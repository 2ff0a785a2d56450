import BoostSamples.Scheduling.TaskLife

/-!
# Wake-ups of the watcher

The watcher tests its condition and begins to wait with the mutex held, and every call
that changes a status, the task list or the running flag notifies after it has owned the
mutex, unless it throws. A body does not own the mutex: it can store its status and notify
after the watcher has read its task as pending and before it waits. While no body notifies
in that window, and no `Stop` throws at the promise of a task whose body is done, whoever
gives the waiting watcher something to do has its notification still to come.
-/

namespace Scheduling

/-- A body comes to its notification: its callback is behind it, or it has been cancelled. -/
def BodyPc.notifies (pc : BodyPc) (promise : Promise) : Bool :=
  match pc with
  | .storeDone | .storeReady | .swap | .storeFailed | .notify => true
  | .getFuture | .waitFor => promise.value.isSome
  | .callback | .done => false

/-- A notification comes next in the code of the call, unless it throws. -/
def CallPc.ahead {τ : Type*} : CallPc τ → Bool
  | .stopTaskErase _ | .unlockNotify | .notify | .stopLock | .stopLoop | .stopClear
  | .stopUnlock | .stopNotify | .statusStore .. | .futureWait .. => true
  | .statusRead _ (.next _) | .setValue _ (.next _) => true
  | .statusRead _ (.erase _) | .setValue _ (.erase _) => false
  | .scheduleLock _ | .scheduleEmplace _ | .stopTaskLock _ | .stopTaskFind _ | .stopRead
  | .stopStore | .stopJoin | .unlockReturn _ | .done _ => false

theorem ahead_pc {τ : Type*} (after : After τ) : after.pc.ahead = true := by
  rcases after with type | (_ | ⟨k, rest⟩) <;> rfl

theorem notifies_of_value {pc : BodyPc} {p q : Promise} (h : pc.notifies p = true)
    (hvalue : p.value.isSome = true → q.value.isSome = true) : pc.notifies q = true := by
  cases pc <;> simp_all [BodyPc.notifies]

namespace Life

def notifies (l : Life) : Bool := l.pc.notifies l.promise

theorem Step.notifies {l m : Life} (h : Step l m) (hl : l.Sane) (hpc : l.pc ≠ .notify)
    (hn : l.notifies = true) : m.notifies = true := by
  have hidle := hl.idle
  unfold Life.notifies at hn ⊢
  cases h with
  | setValue hgrip hnone => exact notifies_of_value hn fun _ => rfl
  | _ => simp_all [BodyPc.notifies]

theorem Step.pending_or {l m : Life} (h : Step l m) (hl : l.Sane) (hpc : l.pc ≠ .notify)
    (hp : l.status = .pending ∨ l.notifies = true) :
    m.status = .pending ∨ m.notifies = true := by
  rcases hp with hp | hn
  · have hmark := hl.mark
    unfold Life.notifies
    cases h <;> simp_all [BodyPc.notifies]
  · exact .inr (h.notifies hl hpc hn)

end Life

namespace Scheduler

variable {τ : Type*} {s t : Scheduler τ}

def NotifyAhead (s : Scheduler τ) : Prop :=
  (∃ x ∈ s.bodies, x.pc.notifies (s.tasks x.task).promise = true) ∨
    ∃ e ∈ s.calls, e.2.ahead = true

def Due (s : Scheduler τ) : Prop :=
  (∃ e ∈ s.taskList, (s.tasks e.2).status ≠ .pending) ∨ s.isRunning = false

/-- If the watcher waits and has something to do, a notification is to come. -/
def NoLostWakeUp (s : Scheduler τ) : Prop := s.watcher = .blocked → s.Due → s.NotifyAhead

/-- The tasks that the watcher has read in a test that has found all of them pending. -/
def tested (s : Scheduler τ) : List TaskPtr :=
  match s.watcher with
  | .count i 0 => (s.taskList.take i).map (·.2)
  | .wait => s.taskList.map (·.2)
  | _ => []

/-- `Stop` throws at the promise of a task whose body is done. -/
def breaksOff (s : Scheduler τ) : CallPc τ → Bool
  | .setValue k (.next _) => (s.tasks k).promise.value.isSome && s.ready k
  | _ => false

/-- No body notifies after the watcher has read its task as pending and before it waits,
and no `Stop` breaks off. -/
def Timely (s : Scheduler τ) : SchedulerEvent τ → Prop
  | .body b _ => ∀ x ∈ s.bodies[b]?, x.pc = .notify → x.task ∉ s.tested
  | .caller c => ∀ e ∈ s.calls[c]?, s.breaksOff e.2 = false
  | _ => True

instance (s : Scheduler τ) : (e : SchedulerEvent τ) → Decidable (s.Timely e)
  | .body b _ => inferInstanceAs (Decidable (∀ x ∈ s.bodies[b]?, _))
  | .caller c => inferInstanceAs (Decidable (∀ e ∈ s.calls[c]?, _))
  | .watcher | .wakeUp | .call _ | .callFrom _ _ => .isTrue trivial

/-- What keeps the wake-ups: a task that the watcher has read as pending is pending, or its
body comes to its notification; a stop that the watcher has not seen waits for the mutex. -/
structure Watched (s : Scheduler τ) : Prop where
  ordered : s.Ordered
  kept : ∀ k ∈ s.tested, (s.tasks k).status = .pending ∨ (s.life k).notifies = true
  running : (∃ i n, s.watcher = .count i n) ∨ s.watcher = .wait → s.isRunning = false →
    ∃ (c : CallPtr) (op : Op τ), s.calls[c]? = some (op, CallPc.stopLock)
  blocked : s.NoLostWakeUp

theorem notifyAhead_iff (hs : s.Ordered) :
    s.NotifyAhead ↔ (∃ k, (s.life k).notifies = true) ∨ ∃ e ∈ s.calls, e.2.ahead = true := by
  refine or_congr ⟨fun ⟨x, hx, hn⟩ => ?_, fun ⟨k, hn⟩ => ?_⟩ Iff.rfl
  · obtain ⟨b, hb⟩ := List.mem_iff_getElem?.1 hx
    have hpc : x.pc ≠ .done := fun hdone => by simp [hdone, BodyPc.notifies] at hn
    refine ⟨x.task, ?_⟩
    rw [Life.notifies, life, pcOf_of_body hs hb hpc]
    exact hn
  · rw [Life.notifies, life] at hn
    unfold pcOf at hn
    cases hk : (s.tasks k).future with
    | none => simp [hk, BodyPc.notifies] at hn
    | some b =>
        obtain ⟨x, hx, htask⟩ := hs.launched k b hk
        refine ⟨x, List.mem_of_getElem? hx, ?_⟩
        rw [htask]
        simpa [hk, hx] using hn

theorem notifyAhead_of_life (hs : s.Ordered) {k : TaskPtr} (h : (s.life k).notifies = true) :
    s.NotifyAhead :=
  (notifyAhead_iff hs).2 (.inl ⟨k, h⟩)

theorem notifyAhead_of_call {c : CallPtr} {op : Op τ} {pc : CallPc τ}
    (hc : s.calls[c]? = some (op, pc)) (h : pc.ahead = true) : s.NotifyAhead :=
  .inr ⟨(op, pc), List.mem_of_getElem? hc, h⟩

theorem watched_of_constructed (h : s.Constructed) : s.Watched where
  ordered := ordered_of_constructed h
  kept := by simp [tested, h.watcher]
  running := by simp [h.watcher]
  blocked := by simp [NoLostWakeUp, h.watcher]

theorem NotifyAhead.setCall {c : CallPtr} {op : Op τ} {pc pc' : CallPc τ}
    (hc : s.calls[c]? = some (op, pc)) (hpc : pc.ahead = false) (htasks : t.tasks = s.tasks)
    (hbodies : t.bodies = s.bodies) (hcalls : t.calls = (s.setCall c pc').calls)
    (h : s.NotifyAhead) : t.NotifyAhead := by
  rcases h with ⟨x, hx, hn⟩ | ⟨e, he, hahead⟩
  · exact .inl ⟨x, hbodies ▸ hx, htasks ▸ hn⟩
  · obtain ⟨c', hc'⟩ := List.mem_iff_getElem?.1 he
    have hne : c ≠ c' := by
      rintro rfl
      rw [hc] at hc'
      cases hc'
      exact nomatch hpc.symm.trans hahead
    refine .inr ⟨e, List.mem_iff_getElem?.2 ⟨c', ?_⟩, hahead⟩
    rw [hcalls, getElem?_setCall hc, if_neg hne, hc']

theorem Due.congr (htasks : t.tasks = s.tasks)
    (hlist : t.taskList = s.taskList) (hrunning : t.isRunning = s.isRunning) (h : t.Due) :
    s.Due := by
  rcases h with ⟨e, he, hstatus⟩ | hstop
  · exact .inl ⟨e, hlist ▸ he, htasks ▸ hstatus⟩
  · exact .inr (hrunning ▸ hstop)

/-- What a step of a call from one point to another does to a waiting watcher: it wakes it,
or the call has its notification ahead of it, or `Stop` throws at a promise that has its
value, or the call had no notification ahead of it and changes nothing the watcher waits
for. -/
inductive CallEffect (s t : Scheduler τ) (pc pc' : CallPc τ) : Prop
  | woken : t.watcher = s.notifyAll.watcher → CallEffect s t pc pc'
  | ahead : t.watcher = s.watcher → pc'.ahead = true → CallEffect s t pc pc'
  | threw (k : TaskPtr) (rest : List TaskPtr) : t.watcher = s.watcher → t.tasks = s.tasks →
      pc = .setValue k (.next rest) → (s.tasks k).promise.value ≠ none → CallEffect s t pc pc'
  | quiet : t.watcher = s.watcher → pc.ahead = false → t.tasks = s.tasks →
      t.taskList = s.taskList → t.isRunning = s.isRunning → CallEffect s t pc pc'

theorem CallEffect.watcher {pc pc' : CallPc τ} (h : CallEffect s t pc pc') :
    t.watcher = s.watcher ∨ t.watcher = s.notifyAll.watcher := by
  cases h with
  | woken hw => exact .inr hw
  | ahead hw => exact .inl hw
  | threw k rest hw => exact .inl hw
  | quiet hw => exact .inl hw

theorem callStep_effect [LinearOrder τ] {c : CallPtr} (h : s.callStep c = some t) :
    ∃ op pc pc', s.calls[c]? = some (op, pc) ∧ t.calls = (s.setCall c pc').calls ∧
      t.bodies = s.bodies ∧ CallEffect s t pc pc' := by
  unfold callStep at h
  cases hc : s.calls[c]? with
  | none => simp [hc] at h
  | some e =>
      obtain ⟨op, pc⟩ := e
      simp only [hc] at h
      refine ⟨op, pc, ?_⟩
      cases pc with
      | scheduleLock task =>
          obtain ⟨-, ht⟩ := Option.ite_none_right_eq_some.1 h
          cases ht
          exact ⟨_, rfl, rfl, rfl, .quiet rfl rfl rfl rfl rfl⟩
      | scheduleEmplace task =>
          simp only at h
          split at h
          · cases h
            exact ⟨_, rfl, rfl, rfl, .quiet rfl rfl rfl rfl rfl⟩
          · cases h
            exact ⟨.unlockNotify, rfl, rfl, rfl, .ahead rfl rfl⟩
      | stopTaskLock type =>
          obtain ⟨-, ht⟩ := Option.ite_none_right_eq_some.1 h
          cases ht
          exact ⟨_, rfl, rfl, rfl, .quiet rfl rfl rfl rfl rfl⟩
      | stopTaskFind type =>
          simp only at h
          split at h
          · cases h
            exact ⟨_, rfl, rfl, rfl, .quiet rfl rfl rfl rfl rfl⟩
          · cases h
            exact ⟨_, rfl, rfl, rfl, .quiet rfl rfl rfl rfl rfl⟩
      | stopTaskErase type =>
          cases h
          exact ⟨.unlockNotify, rfl, rfl, rfl, .ahead rfl rfl⟩
      | unlockNotify =>
          cases h
          exact ⟨.notify, rfl, rfl, rfl, .ahead rfl rfl⟩
      | notify =>
          cases h
          obtain ⟨-, hcalls, -, hbodies, -⟩ := s.notifyAll_fields
          exact ⟨.done true, rfl, congrArg (fun l => l.modify c fun x => (x.1, .done true)) hcalls,
            hbodies, .woken rfl⟩
      | stopRead =>
          cases h
          exact ⟨_, rfl, rfl, rfl, .quiet rfl rfl rfl rfl rfl⟩
      | stopStore =>
          cases h
          exact ⟨.stopLock, rfl, rfl, rfl, .ahead rfl rfl⟩
      | stopLock =>
          obtain ⟨-, ht⟩ := Option.ite_none_right_eq_some.1 h
          cases ht
          exact ⟨.stopLoop, rfl, rfl, rfl, .ahead rfl rfl⟩
      | stopLoop =>
          cases h
          exact ⟨_, rfl, rfl, rfl, .ahead rfl (ahead_pc _)⟩
      | stopClear =>
          cases h
          exact ⟨.stopUnlock, rfl, rfl, rfl, .ahead rfl rfl⟩
      | stopUnlock =>
          cases h
          exact ⟨.stopNotify, rfl, rfl, rfl, .ahead rfl rfl⟩
      | stopNotify =>
          cases h
          obtain ⟨-, hcalls, -, hbodies, -⟩ := s.notifyAll_fields
          exact ⟨.stopJoin, rfl, congrArg (fun l => l.modify c fun x => (x.1, .stopJoin)) hcalls,
            hbodies, .woken rfl⟩
      | stopJoin =>
          obtain ⟨-, ht⟩ := Option.ite_none_right_eq_some.1 h
          cases ht
          exact ⟨_, rfl, rfl, rfl, .quiet rfl rfl rfl rfl rfl⟩
      | statusRead k after =>
          cases h
          cases after with
          | erase type => exact ⟨_, rfl, rfl, rfl, .quiet rfl rfl rfl rfl rfl⟩
          | next rest => exact ⟨_, rfl, rfl, rfl, .ahead rfl (by split <;> rfl)⟩
      | statusStore k after =>
          cases h
          exact ⟨_, rfl, rfl, rfl, .ahead rfl (ahead_pc after)⟩
      | setValue k after =>
          simp only at h
          split at h
          · next hvalue =>
              cases h
              cases after with
              | erase type => exact ⟨.unlockReturn false, rfl, rfl, rfl, .quiet rfl rfl rfl rfl rfl⟩
              | next rest =>
                  exact ⟨.unlockReturn false, rfl, rfl, rfl,
                    .threw k rest rfl rfl rfl (Option.isSome_iff_ne_none.1 hvalue)⟩
          · cases h
            exact ⟨.futureWait k after, rfl, rfl, rfl, .ahead rfl rfl⟩
      | futureWait k after =>
          obtain ⟨-, ht⟩ := Option.ite_none_right_eq_some.1 h
          cases ht
          exact ⟨_, rfl, rfl, rfl, .ahead rfl (ahead_pc after)⟩
      | unlockReturn normal =>
          cases h
          exact ⟨.done normal, rfl, rfl, rfl, .quiet rfl rfl rfl rfl rfl⟩
      | done normal => exact nomatch h

/-- What a step of a body does besides its task: it wakes the watcher at its notification,
and else leaves it. -/
theorem bodyStep_effect {b : BodyPtr} {outcome : Outcome} (h : s.bodyStep b outcome = some t) :
    ∃ x, s.bodies[b]? = some x ∧ x.pc ≠ .done ∧ t.calls = s.calls ∧
      t.taskList = s.taskList ∧ t.isRunning = s.isRunning ∧
      (x.pc = .notify ∧ t.watcher = s.notifyAll.watcher ∨
        x.pc ≠ .notify ∧ t.watcher = s.watcher) := by
  unfold bodyStep at h
  cases hb : s.bodies[b]? with
  | none => simp [hb] at h
  | some x =>
      simp only [hb] at h
      refine ⟨x, rfl, ?_⟩
      cases hx : x.pc with
      | getFuture =>
          simp only [hx] at h
          split at h <;> cases h <;> exact ⟨nofun, rfl, rfl, rfl, .inr ⟨nofun, rfl⟩⟩
      | callback =>
          simp only [hx] at h
          obtain ⟨-, ht⟩ := Option.ite_none_right_eq_some.1 h
          cases ht
          exact ⟨nofun, rfl, rfl, rfl, .inr ⟨nofun, rfl⟩⟩
      | notify =>
          simp only [hx] at h
          cases h
          obtain ⟨-, hcalls, -, -, hlist, hrunning, -⟩ := s.notifyAll_fields
          exact ⟨nofun, hcalls, hlist, hrunning, .inl ⟨rfl, rfl⟩⟩
      | done =>
          simp only [hx] at h
          exact nomatch h
      | _ =>
          simp only [hx] at h
          cases h
          exact ⟨nofun, rfl, rfl, rfl, .inr ⟨nofun, rfl⟩⟩

/-- A step of a call while the watcher has the mutex: it leaves the tasks and the list, and
stops the scheduler at most. -/
theorem callStep_of_watcher [LinearOrder τ] (hs : s.Ordered) (hm : s.mutex = some .watcher)
    {c : CallPtr} (h : s.callStep c = some t) :
    t.tasks = s.tasks ∧ t.bodies = s.bodies ∧ t.taskList = s.taskList ∧
      ∃ op pc pc', s.calls[c]? = some (op, pc) ∧ pc ≠ .stopLock ∧
        t.calls = (s.setCall c pc').calls ∧
        (t.isRunning = s.isRunning ∨ pc' = .stopLock) := by
  unfold callStep at h
  cases hc : s.calls[c]? with
  | none => simp [hc] at h
  | some e =>
      obtain ⟨op, pc⟩ := e
      have hfree : pc.holds = false := by
        cases hpc : pc.holds with
        | false => rfl
        | true => exact nomatch hm.symm.trans ((hs.caller c).2 ((owns_self hc).2 hpc))
      have hlock : ∀ pc', s.lock c pc' ≠ some t := fun pc' hl => by
        obtain ⟨hnone, -⟩ := Option.ite_none_right_eq_some.1 hl
        exact nomatch hm.symm.trans hnone
      simp only [hc] at h
      cases pc with
      | scheduleLock task => exact absurd h (hlock _)
      | stopTaskLock type => exact absurd h (hlock _)
      | stopLock => exact absurd h (hlock _)
      | notify =>
          cases h
          obtain ⟨-, hcalls, htasks, hbodies, hlist, hrunning, -⟩ := s.notifyAll_fields
          exact ⟨htasks, hbodies, hlist, op, .notify, .done true, rfl, nofun,
            congrArg (fun l => l.modify c fun x => (x.1, .done true)) hcalls, .inl hrunning⟩
      | stopRead =>
          cases h
          exact ⟨rfl, rfl, rfl, op, .stopRead, _, rfl, nofun, rfl, .inl rfl⟩
      | stopStore =>
          cases h
          exact ⟨rfl, rfl, rfl, op, .stopStore, .stopLock, rfl, nofun, rfl, .inr rfl⟩
      | stopNotify =>
          cases h
          obtain ⟨-, hcalls, htasks, hbodies, hlist, hrunning, -⟩ := s.notifyAll_fields
          exact ⟨htasks, hbodies, hlist, op, .stopNotify, .stopJoin, rfl, nofun,
            congrArg (fun l => l.modify c fun x => (x.1, .stopJoin)) hcalls, .inl hrunning⟩
      | stopJoin =>
          obtain ⟨-, ht⟩ := Option.ite_none_right_eq_some.1 h
          cases ht
          exact ⟨rfl, rfl, rfl, op, .stopJoin, _, rfl, nofun, rfl, .inl rfl⟩
      | done normal => exact nomatch h
      | _ => exact nomatch hfree

theorem mutex_of_testing (hs : s.Ordered)
    (h : (∃ i n, s.watcher = .count i n) ∨ s.watcher = .wait) : s.mutex = some .watcher := by
  refine hs.watcher.2 ?_
  rcases h with ⟨i, n, hw⟩ | hw <;> rw [hw] <;> rfl

theorem testing_of_tested {k : TaskPtr} (h : k ∈ s.tested) :
    (∃ i n, s.watcher = .count i n) ∨ s.watcher = .wait := by
  unfold tested at h
  split at h
  · next i hw => exact .inl ⟨i, 0, hw⟩
  · next hw => exact .inr hw
  · exact absurd h List.not_mem_nil

theorem tested_congr (hwatcher : t.watcher = s.watcher) (hlist : t.taskList = s.taskList) :
    t.tested = s.tested := by
  unfold tested
  rw [hwatcher, hlist]

theorem tested_count {i n : Nat} {e : τ × TaskPtr} (hw : s.watcher = .count i n)
    (hi : s.taskList[i]? = some e) {m : Option Thread} {k : TaskPtr}
    (hk : k ∈ tested { s with
      mutex := m
      watcher := .count (i + 1) (if (s.tasks e.2).status ≠ .pending then n + 1 else n) }) :
    k ∈ s.tested ∨ (s.tasks k).status = .pending := by
  by_cases hpending : (s.tasks e.2).status = .pending
  · simp only [hpending, ne_eq, not_true_eq_false, if_false] at hk
    cases n with
    | zero =>
        have hk' : k ∈ (s.taskList.take (i + 1)).map (·.2) := hk
        rw [List.take_add_one, hi, Option.toList_some, List.map_append, List.mem_append] at hk'
        rcases hk' with hold | hnew
        · left
          unfold tested
          rw [hw]
          exact hold
        · obtain rfl : k = e.2 := by simpa using hnew
          exact .inr hpending
    | succ n => exact absurd hk List.not_mem_nil
  · simp only [hpending, ne_eq, not_false_eq_true, if_true] at hk
    exact absurd hk List.not_mem_nil

theorem Watched.of_watcher (hs : s.Watched) {w : Watcher} {m : Option Thread}
    (hordered : Ordered { s with mutex := m, watcher := w })
    (hkept : ∀ k ∈ tested { s with mutex := m, watcher := w },
      k ∈ s.tested ∨ (s.tasks k).status = .pending)
    (hrunning : (∃ i n, w = .count i n) ∨ w = .wait →
      (∃ i n, s.watcher = .count i n) ∨ s.watcher = .wait ∨ s.isRunning = true)
    (hblocked : w = .blocked → s.Due → s.NotifyAhead) :
    Watched { s with mutex := m, watcher := w } where
  ordered := hordered
  kept k hk := by
    rcases hkept k hk with hold | hpending
    · have hpc : pcOf { s with mutex := m, watcher := w } k = s.pcOf k := rfl
      simpa only [Life.notifies, life, hpc] using hs.kept k hold
    · exact .inl hpending
  running hw hstop := by
    rcases hrunning hw with hw | hw | hrunning
    · exact hs.running (.inl hw) hstop
    · exact hs.running (.inr hw) hstop
    · cases hrunning.symm.trans hstop
  blocked := hblocked

theorem watched_outside (hordered : t.Ordered) (hwait : t.watcher ≠ .wait)
    (hcount : ∀ i n, t.watcher ≠ .count i n) (hblocked : t.watcher ≠ .blocked) : t.Watched where
  ordered := hordered
  kept k hk := by
    rcases testing_of_tested hk with ⟨i, n, hw⟩ | hw
    · exact absurd hw (hcount i n)
    · exact absurd hw hwait
  running hw := by
    rcases hw with ⟨i, n, hw⟩ | hw
    · exact absurd hw (hcount i n)
    · exact absurd hw hwait
  blocked hw := absurd hw hblocked

theorem Watched.watcherStep (hs : s.Watched) (h : s.watcherStep = some t) : t.Watched := by
  have hordered := (ordered_watcherStep hs.ordered h).1
  unfold Scheduler.watcherStep at h
  cases hw : s.watcher with
  | test =>
      simp only [hw] at h
      by_cases hrunning : s.isRunning = true
      · rw [if_pos hrunning] at h
        cases h
        exact hs.of_watcher hordered (fun k hk => absurd hk List.not_mem_nil)
          (fun _ => .inr (.inr hrunning)) (fun hw => nomatch hw)
      · rw [if_neg hrunning] at h
        cases h
        exact watched_outside hordered nofun nofun nofun
  | count i n =>
      simp only [hw] at h
      have htesting : (∃ i n, s.watcher = .count i n) ∨ s.watcher = .wait := .inl ⟨i, n, hw⟩
      cases hi : s.taskList[i]? with
      | none =>
          simp only [hi] at h
          by_cases hn : n = 0
          · rw [if_pos hn] at h
            cases h
            refine hs.of_watcher hordered (fun k hk => .inl ?_)
              (fun _ => htesting.imp_right .inl) (fun hw => nomatch hw)
            have hall : s.taskList.take i = s.taskList :=
              List.take_of_length_le (List.getElem?_eq_none_iff.1 hi)
            have hk' : k ∈ s.taskList.map (·.2) := hk
            unfold tested
            rw [hw, hn]
            simpa only [hall] using hk'
          · rw [if_neg hn] at h
            cases h
            exact watched_outside hordered nofun nofun nofun
      | some e =>
          simp only [hi] at h
          cases h
          refine hs.of_watcher hordered (fun k hk => tested_count hw hi hk)
            (fun _ => htesting.imp_right .inl) (fun hw => nomatch hw)
  | wait =>
      simp only [hw] at h
      cases h
      refine hs.of_watcher hordered (fun k hk => absurd hk List.not_mem_nil) (fun hw => ?_)
        fun _ hdue => ?_
      · rcases hw with ⟨i, n, hw⟩ | hw <;> exact nomatch hw
      · rcases hdue with ⟨e, he, hstatus⟩ | hstop
        · have hk : e.2 ∈ s.tested := by
            unfold tested
            rw [hw]
            exact List.mem_map_of_mem he
          exact notifyAhead_of_life hs.ordered ((hs.kept e.2 hk).resolve_left hstatus)
        · obtain ⟨c, op, hc⟩ := hs.running (.inr hw) hstop
          exact notifyAhead_of_call hc rfl
  | loop =>
      simp only [hw] at h
      cases h
      refine watched_outside hordered ?_ ?_ ?_ <;> cases s.isRunning <;> simp
  | lock =>
      simp only [hw] at h
      obtain ⟨-, ht⟩ := Option.ite_none_right_eq_some.1 h
      cases ht
      exact watched_outside hordered nofun nofun nofun
  | scan i =>
      simp only [hw] at h
      cases hi : s.taskList[i]? with
      | none =>
          simp only [hi] at h
          cases h
          exact watched_outside hordered nofun nofun nofun
      | some e =>
          simp only [hi] at h
          cases h
          refine watched_outside hordered ?_ ?_ ?_ <;> intros <;> dsimp only <;> split <;> nofun
  | futureWait i k =>
      simp only [hw] at h
      obtain ⟨-, ht⟩ := Option.ite_none_right_eq_some.1 h
      cases ht
      exact watched_outside hordered nofun nofun nofun
  | store i k =>
      simp only [hw] at h
      cases h
      exact watched_outside hordered nofun nofun nofun
  | launch i k =>
      simp only [hw] at h
      cases h
      exact watched_outside hordered nofun nofun nofun
  | scanStopped i k =>
      simp only [hw] at h
      split at h
      · cases h
        exact watched_outside hordered nofun nofun nofun
      · cases h
        exact watched_outside hordered nofun nofun nofun
  | blocked =>
      simp only [hw] at h
      exact nomatch h
  | relock =>
      simp only [hw] at h
      obtain ⟨-, ht⟩ := Option.ite_none_right_eq_some.1 h
      cases ht
      exact watched_outside hordered nofun nofun nofun
  | unlock =>
      simp only [hw] at h
      cases h
      exact watched_outside hordered nofun nofun nofun
  | done =>
      simp only [hw] at h
      exact nomatch h

theorem watcher_notifyAll (s : Scheduler τ) :
    s.notifyAll.watcher = s.watcher ∨ s.notifyAll.watcher = .relock := by
  unfold notifyAll
  split
  · exact .inr rfl
  · exact .inl rfl

/-- A step after which the watcher does not test has left it or has woken it. -/
theorem watcher_of_testing (hw : t.watcher = s.watcher ∨ t.watcher = s.notifyAll.watcher)
    (h : (∃ i n, t.watcher = .count i n) ∨ t.watcher = .wait) : t.watcher = s.watcher := by
  rcases hw with hw | hw
  · exact hw
  · rcases s.watcher_notifyAll with hsame | hrelock
    · exact hw.trans hsame
    · rw [hw, hrelock] at h
      rcases h with ⟨i, n, h⟩ | h <;> exact nomatch h

theorem pcOf_ne_done (hs : s.Ordered) {k : TaskPtr} (h : s.ready k = false) :
    s.pcOf k ≠ .done := by
  unfold ready at h
  unfold pcOf
  cases hk : (s.tasks k).future with
  | none => simp [hk] at h
  | some b =>
      obtain ⟨x, hx, -⟩ := hs.launched k b hk
      simpa [hk, hx] using h

/-- A step of a body keeps the tests: it stores a status only on the way to its
notification. -/
theorem Watched.bodyStep (hs : s.Watched) {b : BodyPtr} {outcome : Outcome}
    (htimely : s.Timely (.body b outcome)) (h : s.bodyStep b outcome = some t) : t.Watched := by
  obtain ⟨x, hb, hordered, hlives⟩ := ordered_bodyStep hs.ordered h
  obtain ⟨x', hb', hdone, hcalls, hlist, hrunning, heffect⟩ := bodyStep_effect h
  cases hb.symm.trans hb'
  have hwatcher : t.watcher = s.watcher ∨ t.watcher = s.notifyAll.watcher :=
    heffect.elim (fun h => .inr h.2) (fun h => .inl h.2)
  have hpc : (s.life x.task).pc = x.pc := pcOf_of_body hs.ordered hb hdone
  have hkeep : x.pc ≠ .notify → ∀ k, (s.tasks k).status = .pending ∨ (s.life k).notifies = true →
      (t.tasks k).status = .pending ∨ (t.life k).notifies = true := fun hx k hk => by
    by_cases hne : x.task = k
    · subst hne
      exact hlives.self.pending_or (hs.ordered.sane _) (by rwa [hpc]) hk
    · have hstatus : (t.tasks k).status = (s.tasks k).status :=
        congrArg Life.status (hlives.other k hne)
      rwa [hstatus, hlives.other k hne]
  refine ⟨hordered, fun k hk => ?_, fun htesting hstop => ?_, fun hblocked hdue => ?_⟩
  · have hk' : k ∈ s.tested :=
      tested_congr (watcher_of_testing hwatcher (testing_of_tested hk)) hlist ▸ hk
    by_cases hx : x.pc = .notify
    · have hne : x.task ≠ k := fun hne => htimely x hb hx (hne ▸ hk')
      have hstatus : (t.tasks k).status = (s.tasks k).status :=
        congrArg Life.status (hlives.other k hne)
      rw [hstatus, hlives.other k hne]
      exact hs.kept k hk'
    · exact hkeep hx k (hs.kept k hk')
  · rw [watcher_of_testing hwatcher htesting] at htesting
    rw [hcalls]
    exact hs.running htesting (hrunning ▸ hstop)
  · rcases heffect with ⟨-, hw⟩ | ⟨hx, hw⟩
    · exact absurd (hw ▸ hblocked) s.notifyAll_fields.2.2.2.2.2.2.2.2
    · have hahead : s.Due → t.NotifyAhead := fun hdue => by
        rw [notifyAhead_iff hordered, hcalls]
        refine ((notifyAhead_iff hs.ordered).1 (hs.blocked (hw ▸ hblocked) hdue)).imp_left ?_
        rintro ⟨k, hk⟩
        refine ⟨k, ?_⟩
        by_cases hne : x.task = k
        · subst hne
          exact hlives.self.notifies (hs.ordered.sane _) (by rwa [hpc]) hk
        · rwa [hlives.other k hne]
      rcases hdue with ⟨e, he, hstatus⟩ | hstop
      · by_cases hpending : (s.tasks e.2).status = .pending
        · exact notifyAhead_of_life hordered ((hkeep hx e.2 (.inl hpending)).resolve_left hstatus)
        · exact hahead (.inl ⟨e, hlist ▸ he, hpending⟩)
      · exact hahead (.inr (hrunning ▸ hstop))

theorem Watched.call (hs : s.Watched) (hordered : t.Ordered)
    (hlives : ∀ k, t.life k = s.life k) (hwatcher : t.watcher = s.watcher)
    (hlist : t.taskList = s.taskList) (hrunning : t.isRunning = s.isRunning)
    (htasks : t.tasks = s.tasks) {more : List (Op τ × CallPc τ)}
    (hcalls : t.calls = s.calls ++ more) : t.Watched := by
  refine ⟨hordered, fun k hk => ?_, fun htesting hstop => ?_, fun hblocked hdue => ?_⟩
  · rw [htasks, hlives]
    exact hs.kept k (tested_congr hwatcher hlist ▸ hk)
  · obtain ⟨c, op, hc⟩ := hs.running (hwatcher ▸ htesting) (hrunning ▸ hstop)
    exact ⟨c, op, by rw [hcalls, List.getElem?_append_left (List.getElem?_eq_some_iff.1 hc).1, hc]⟩
  · have hahead := hs.blocked (hwatcher ▸ hblocked) (hdue.congr htasks hlist hrunning)
    rw [notifyAhead_iff hordered]
    refine ((notifyAhead_iff hs.ordered).1 hahead).imp (fun ⟨k, hk⟩ => ⟨k, by rwa [hlives]⟩) ?_
    rintro ⟨e, he, hahead⟩
    exact ⟨e, hcalls ▸ List.mem_append_left _ he, hahead⟩

variable [LinearOrder τ]

/-- A step of a call keeps the tests: while the watcher tests, it can at most announce that
the scheduler stops. -/
theorem Watched.callStep (hs : s.Watched) {c : CallPtr} (htimely : s.Timely (.caller c))
    (h : s.callStep c = some t) : t.Watched := by
  have hordered := (ordered_callStep hs.ordered h).1
  obtain ⟨op, pc, pc', hc, hcalls, hbodies, heffect⟩ := callStep_effect h
  have hwatcher : t.watcher = s.watcher ∨ t.watcher = s.notifyAll.watcher := heffect.watcher
  have hself : t.calls[c]? = some (op, pc') := by rw [hcalls, getElem?_setCall hc, if_pos rfl]
  refine ⟨hordered, fun k hk => ?_, fun htesting hstop => ?_, fun hblocked hdue => ?_⟩
  · have hsame := watcher_of_testing hwatcher (testing_of_tested hk)
    have hm : s.mutex = some .watcher :=
      mutex_of_testing hs.ordered (hsame ▸ testing_of_tested hk)
    obtain ⟨htasks, -, hlist, -⟩ := callStep_of_watcher hs.ordered hm h
    have hpc : t.pcOf k = s.pcOf k := by simp only [pcOf, htasks, hbodies]
    have hkept := hs.kept k (tested_congr hsame hlist ▸ hk)
    simpa only [Life.notifies, life, hpc, htasks] using hkept
  · have hsame := watcher_of_testing hwatcher htesting
    have hm : s.mutex = some .watcher := mutex_of_testing hs.ordered (hsame ▸ htesting)
    obtain ⟨-, -, -, op₁, pc₁, pc₁', hc₁, hne, hcalls₁, hrunning⟩ :=
      callStep_of_watcher hs.ordered hm h
    rcases hrunning with hrunning | rfl
    · obtain ⟨c', op', hc'⟩ := hs.running (hsame ▸ htesting) (hrunning ▸ hstop)
      have hcc' : c ≠ c' := by
        rintro rfl
        rw [hc₁] at hc'
        cases hc'
        exact hne rfl
      exact ⟨c', op', by rw [hcalls, getElem?_setCall hc, if_neg hcc', hc']⟩
    · exact ⟨c, op₁, by rw [hcalls₁, getElem?_setCall hc₁, if_pos rfl]⟩
  · cases heffect with
    | woken hw => exact absurd (hw ▸ hblocked) s.notifyAll_fields.2.2.2.2.2.2.2.2
    | ahead _ hahead => exact notifyAhead_of_call hself hahead
    | threw k rest _ htasks hpc hvalue =>
        subst hpc
        have hgrip : (s.life k).grip = some .set := by
          have hm := (hs.ordered.caller c).2 ((owns_self hc).2 rfl)
          exact (congrArg (gripOn · k) (grip_of_caller hm hc)).trans (gripOn_some_self k _)
        have hbreaks := htimely _ hc
        have hready : s.ready k = false := by
          simpa [breaksOff, Option.isSome_iff_ne_none.2 hvalue] using hbreaks
        have hbusy := pcOf_ne_done hs.ordered hready
        have hpc : t.pcOf k = s.pcOf k := by simp only [pcOf, htasks, hbodies]
        refine notifyAhead_of_life hordered (k := k) ?_
        have hvalue' : (s.life k).promise.value.isSome = true := Option.isSome_iff_ne_none.2 hvalue
        rw [Life.notifies, life, hpc, htasks]
        rcases (hs.ordered.sane k).set hgrip hvalue with h | h | h | h | h
        · exact h ▸ hvalue'
        · exact h ▸ hvalue'
        · exact h ▸ rfl
        · exact h ▸ rfl
        · exact absurd h hbusy
    | quiet hw hpc htasks hlist hrunning =>
        have hahead := hs.blocked (hw ▸ hblocked) (hdue.congr htasks hlist hrunning)
        exact hahead.setCall hc hpc htasks hbodies hcalls

theorem Watched.step (hs : s.Watched) {e : SchedulerEvent τ} (htimely : s.Timely e)
    (h : s.step e = some t) : t.Watched := by
  have hordered := (ordered_step hs.ordered h).1
  cases e with
  | watcher => exact hs.watcherStep h
  | wakeUp =>
      obtain ⟨-, ht⟩ := Option.ite_none_right_eq_some.1 h
      cases ht
      exact watched_outside hordered nofun nofun nofun
  | body b outcome => exact hs.bodyStep htimely h
  | call op =>
      cases h
      have hlives := (hs.ordered.call (t := s.call op) op rfl rfl rfl rfl fun _ => rfl).2
      exact hs.call hordered hlives rfl rfl rfl rfl rfl
  | callFrom b op =>
      have hlives := (ordered_callFrom hs.ordered h).2
      simp only [Scheduler.step, callFrom] at h
      cases hb : s.bodies[b]? with
      | none => simp [hb] at h
      | some x =>
          simp only [hb] at h
          obtain ⟨-, ht⟩ := Option.ite_none_right_eq_some.1 h
          cases ht
          exact hs.call hordered hlives rfl rfl rfl rfl rfl
  | caller c => exact hs.callStep htimely h

/-- While no body notifies too early and no `Stop` breaks off, no wake-up is lost. -/
theorem noLostWakeUp_of_timely (hs : system.ReachableWhile Timely s) : s.NoLostWakeUp := by
  refine (hs.invariant (I := Watched) (fun _ h => watched_of_constructed h) ?_).blocked
  intro s e t hs htimely hstep
  exact hs.step htimely hstep

def repeating : Scheduler Nat where
  tasks k := { type := k, repeat_ := true }

theorem constructed_repeating : repeating.Constructed := by
  constructor <;> first | rfl | exact fun _ => rfl

/-- What is seen of a scheduler of which one task has been scheduled. -/
structure View where
  watcher : Watcher
  isRunning : Bool
  taskList : List (Nat × TaskPtr)
  status : Status
  bodies : List Body
  calls : List (CallPc Nat)
  deriving DecidableEq

def view (s : Scheduler Nat) : View :=
  ⟨s.watcher, s.isRunning, s.taskList, (s.tasks 0).status, s.bodies, s.calls.map (·.2)⟩

/-- A call that goes on `n` times. -/
def callerSteps (c : CallPtr) (n : Nat) : List (SchedulerEvent Nat) :=
  List.replicate n (.caller c)

/-- The watcher goes on `n` times. -/
def watcherSteps (n : Nat) : List (SchedulerEvent Nat) := List.replicate n .watcher

/-- A body goes on `n` times. -/
def bodySteps (b : BodyPtr) (n : Nat) : List (SchedulerEvent Nat) :=
  List.replicate n (.body b .returned)

/-- A task is scheduled and launched. -/
def launchRun : List (SchedulerEvent Nat) :=
  .call (.schedule 0) :: callerSteps 0 4 ++ watcherSteps 6

/-- The watcher reads the task as pending, its body does all that is left to do, and the
watcher waits. -/
def earlyRun : List (SchedulerEvent Nat) :=
  launchRun ++ watcherSteps 3 ++ bodySteps 0 6 ++ watcherSteps 2

/-- `StopTask` cancels a callback that runs, the callback leaves its body with something
that is not a `std::exception`, the task is scheduled once more, and `Stop` throws. -/
def escapedRun : List (SchedulerEvent Nat) :=
  launchRun ++ watcherSteps 5 ++ bodySteps 0 2 ++
    .call (.stopTask 0) :: callerSteps 1 4 ++ .body 0 .escaped :: callerSteps 1 4 ++
    watcherSteps 4 ++
    .call (.schedule 0) :: callerSteps 2 4 ++ watcherSteps 5 ++
    .call .stop :: callerSteps 3 7

/-- The watcher waits for good, with something to do and no thread that notifies: a task
that is queued up, or the stop of the scheduler. -/
theorem earlyRun_lost :
    (∃ t, system.exec repeating earlyRun = some t ∧ t.watcher = .blocked ∧
      (t.tasks 0).status = .queuedUp ∧ t.Due ∧ ¬ t.NotifyAhead) ∧
    ∃ t, system.exec repeating escapedRun = some t ∧ t.watcher = .blocked ∧
      t.isRunning = false ∧ t.Due ∧ ¬ t.NotifyAhead := by
  have hnone : ∀ {t : Scheduler Nat}, t.bodies = [⟨0, .done, none⟩] →
      (∀ pc ∈ t.calls.map (·.2), pc.ahead = false) → ¬ t.NotifyAhead := by
    rintro t hbodies hcalls (⟨x, hx, hn⟩ | ⟨e, he, hahead⟩)
    · rw [hbodies, List.mem_singleton] at hx
      exact nomatch hx ▸ hn
    · exact nomatch (hcalls e.2 (List.mem_map_of_mem he)).symm.trans hahead
  constructor
  · have hview : (system.exec repeating earlyRun).map view =
        some ⟨.blocked, true, [(0, 0)], .queuedUp, [⟨0, .done, none⟩], [.done true]⟩ := by
      decide +kernel
    obtain ⟨t, ht, hview⟩ := Option.map_eq_some_iff.1 hview
    have hlist : t.taskList = [(0, 0)] := congrArg View.taskList hview
    have hstatus : (t.tasks 0).status = .queuedUp := congrArg View.status hview
    have hcalls : t.calls.map (·.2) = [.done true] := congrArg View.calls hview
    refine ⟨t, ht, congrArg View.watcher hview, hstatus,
      .inl ⟨(0, 0), by simp [hlist], by simp [hstatus]⟩,
      hnone (congrArg View.bodies hview) ?_⟩
    rw [hcalls]
    decide
  · have hview : (system.exec repeating escapedRun).map view =
        some ⟨.blocked, false, [(0, 0)], .pending, [⟨0, .done, none⟩],
          [.done true, .done true, .done true, .done false]⟩ := by
      decide +kernel
    obtain ⟨t, ht, hview⟩ := Option.map_eq_some_iff.1 hview
    have hrunning : t.isRunning = false := congrArg View.isRunning hview
    have hcalls : t.calls.map (·.2) = [.done true, .done true, .done true, .done false] :=
      congrArg View.calls hview
    refine ⟨t, ht, congrArg View.watcher hview, hrunning, .inr hrunning,
      hnone (congrArg View.bodies hview) ?_⟩
    rw [hcalls]
    decide

/-- The watcher waits, and the body stores that its task is queued up. -/
def promptRun : List (SchedulerEvent Nat) := launchRun ++ watcherSteps 5 ++ bodySteps 0 4

theorem promptRun_noLostWakeUp :
    ∃ t, system.execWhile Timely repeating promptRun = some t ∧ t.watcher = .blocked ∧ t.Due ∧
      t.NotifyAhead := by
  have hview : (system.execWhile Timely repeating promptRun).map view =
      some ⟨.blocked, true, [(0, 0)], .queuedUp, [⟨0, .swap, none⟩], [.done true]⟩ := by
    decide +kernel
  obtain ⟨t, ht, hview⟩ := Option.map_eq_some_iff.1 hview
  have hwatcher : t.watcher = .blocked := congrArg View.watcher hview
  have hlist : t.taskList = [(0, 0)] := congrArg View.taskList hview
  have hstatus : (t.tasks 0).status = .queuedUp := congrArg View.status hview
  have hdue : t.Due := .inl ⟨(0, 0), by simp [hlist], by simp [hstatus]⟩
  exact ⟨t, ht, hwatcher, hdue, noLostWakeUp_of_timely
    ((Transition.System.ReachableWhile.init constructed_repeating).execWhile ht) hwatcher hdue⟩

end Scheduler

end Scheduling
