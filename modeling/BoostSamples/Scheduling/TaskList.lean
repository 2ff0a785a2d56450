import BoostSamples.Scheduling.WakeUp

/-!
# The tasks that are in the list

A body that has not stored its status yet is that of a task in the list: the watcher
launches the tasks that it finds there, and whoever removes a task has found that its
body has stored its status, or has waited for it. `Listed` says so, with what the owner of
the mutex knows on its way to a removal.
-/

namespace Scheduling

/-- The functions that have this point in their code. -/
def CallPc.Of {τ : Type*} : CallPc τ → Op τ → Prop
  | .scheduleLock k, op | .scheduleEmplace k, op => op = .schedule k
  | .stopTaskLock type, op | .stopTaskFind type, op | .stopTaskErase type, op =>
      op = .stopTask type
  | .stopRead, op | .stopStore, op | .stopLock, op | .stopLoop, op | .stopClear, op
  | .stopUnlock, op | .stopNotify, op | .stopJoin, op => op = .stop
  | .statusRead _ (.erase type), op | .statusStore _ (.erase type), op
  | .setValue _ (.erase type), op | .futureWait _ (.erase type), op => op = .stopTask type
  | .statusRead _ (.next _), op | .statusStore _ (.next _), op | .setValue _ (.next _), op
  | .futureWait _ (.next _), op => op = .stop
  | .unlockNotify, op | .notify, op => op ≠ .stop
  | .unlockReturn normal, op => normal = true → op ≠ .stop
  | .done _, _ => True

theorem Op.of_pc {τ : Type*} (op : Op τ) : op.pc.Of op := by cases op <;> rfl

theorem After.of_pc {τ : Type*} {after : After τ} {k : TaskPtr} {op : Op τ}
    (h : (CallPc.futureWait k after).Of op) : after.pc.Of op := by
  rcases after with type | (_ | ⟨k, rest⟩) <;> exact h

/-- The entry that the watcher is at, by its index and its task. -/
def Watcher.entry : Watcher → Option (Nat × TaskPtr)
  | .futureWait i k | .store i k | .launch i k | .scanStopped i k => some (i, k)
  | _ => none

namespace Life

/-- The body of the task can still run the callback, or store a status. -/
def active (l : Life) : Bool := storing l.pc

theorem Step.active {l m : Life} (h : Step l m) (hm : m.active = true) :
    l.active = true ∨ l.grip = some .launch ∧ m.grip = none := by
  unfold Life.active at hm ⊢
  cases h <;> simp_all [Life.storing]

end Life

namespace Scheduler

variable {τ : Type*} {s t : Scheduler τ} {k : TaskPtr}

/-- The body of the task can still run the callback, or store a status. -/
def Active (s : Scheduler τ) (k : TaskPtr) : Prop := (s.life k).active = true

def InList (s : Scheduler τ) (k : TaskPtr) : Prop := ∃ type, (type, k) ∈ s.taskList

def Turned (s : Scheduler τ) (k : TaskPtr) : After τ → Prop
  | .erase type => (type, k) ∈ s.taskList
  | .next rest => ∀ e ∈ s.taskList, s.Active e.2 → e.2 = k ∨ e.2 ∈ rest

def Settled (s : Scheduler τ) : After τ → Prop
  | .erase type => ∀ e ∈ s.taskList, e.1 = type → ¬ s.Active e.2
  | .next rest => ∀ e ∈ s.taskList, s.Active e.2 → e.2 ∈ rest

def Knows (s : Scheduler τ) : CallPc τ → Prop
  | .statusRead k after | .statusStore k after | .setValue k after | .futureWait k after =>
      s.Turned k after
  | .stopTaskErase type => s.Settled (.erase type)
  | .stopClear => s.Settled (.next [])
  | _ => True

/-- The list has one entry for a type, with a task of that type; a task with an active
body is in it, and so is the one the watcher is at; and the calls know what they rely on. -/
structure Listed (s : Scheduler τ) : Prop where
  ordered : s.Ordered
  keys : (s.taskList.map (·.1)).Nodup
  typed : ∀ e ∈ s.taskList, (s.tasks e.2).type = e.1
  active : ∀ k, s.Active k → s.InList k
  entry : ∀ i k, s.watcher.entry = some (i, k) → s.taskList[i]?.map (·.2) = some k
  known : ∀ e ∈ s.calls, s.Knows e.2
  of : ∀ e ∈ s.calls, e.2.Of e.1

theorem launch_of_grip (hs : s.Ordered) (h : (s.life k).grip = some .launch) :
    s.mutex = some .watcher ∧ ∃ i, s.watcher = .launch i k := by
  simp only [life, grip] at h
  cases hm : s.mutex with
  | none => simp [hm] at h
  | some th =>
      cases th with
      | watcher =>
          refine ⟨rfl, ?_⟩
          simp only [hm, gripOn] at h
          cases hw : s.watcher <;> simp_all [Watcher.grip]
      | caller c =>
          obtain ⟨op, pc, hc, -⟩ := (hs.caller c).1 hm
          simp only [hm, hc, gripOn] at h
          cases pc <;> simp_all [CallPc.grip]

theorem grip_of_launch (hs : s.Ordered) {i : Nat} (hw : s.watcher = .launch i k) :
    (s.life k).grip = some .launch := by
  have hm : s.mutex = some .watcher := hs.watcher.2 (by rw [hw]; rfl)
  rw [life, grip_of_watcher hm, hw]
  exact gripOn_some_self k _

theorem Lives.active (h : Lives s t) (hs : s.Ordered) (ht : t.Ordered)
    (hw : ∀ i, s.watcher = .launch i k → t.watcher = s.watcher) (hk : t.Active k) :
    s.Active k := by
  rcases h k with heq | hstep
  · unfold Active at hk ⊢
    rwa [heq] at hk
  · refine (hstep.active hk).resolve_right fun ⟨hgrip, hnone⟩ => ?_
    obtain ⟨-, i, hi⟩ := launch_of_grip hs hgrip
    exact nomatch hnone.symm.trans (grip_of_launch ht ((hw i hi).trans hi))

theorem Turned.mono {after : After τ} (h : s.Turned k after) (hlist : t.taskList = s.taskList)
    (hactive : ∀ k, t.Active k → s.Active k) : t.Turned k after := by
  cases after with
  | erase type => exact (congrArg ((type, k) ∈ ·) hlist).mpr h
  | next rest => exact fun e he hk => h e (hlist ▸ he) (hactive _ hk)

theorem Settled.mono {after : After τ} (h : s.Settled after) (hlist : t.taskList = s.taskList)
    (hactive : ∀ k, t.Active k → s.Active k) : t.Settled after := by
  cases after with
  | erase type => exact fun e he htype hk => h e (hlist ▸ he) htype (hactive _ hk)
  | next rest => exact fun e he hk => h e (hlist ▸ he) (hactive _ hk)

theorem Knows.mono {pc : CallPc τ} (h : s.Knows pc) (hlist : t.taskList = s.taskList)
    (hactive : ∀ k, t.Active k → s.Active k) : t.Knows pc := by
  cases pc with
  | statusRead k after => exact Turned.mono h hlist hactive
  | statusStore k after => exact Turned.mono h hlist hactive
  | setValue k after => exact Turned.mono h hlist hactive
  | futureWait k after => exact Turned.mono h hlist hactive
  | stopTaskErase type => exact (show s.Settled (.erase type) from h).mono hlist hactive
  | stopClear => exact (show s.Settled (.next []) from h).mono hlist hactive
  | _ => trivial

/-- Nothing is known without the mutex. -/
theorem knows_of_free {pc : CallPc τ} (h : pc.holds = false) : s.Knows pc := by
  cases pc <;> first | exact trivial | exact nomatch h

theorem free_of_ne (hs : s.Ordered) {c c' : CallPtr} {op op' : Op τ} {pc pc' : CallPc τ}
    (hc : s.calls[c]? = some (op, pc)) (hc' : s.calls[c']? = some (op', pc')) (hne : c ≠ c')
    (h : pc.holds = true) : pc'.holds = false := by
  cases hpc : pc'.holds with
  | false => rfl
  | true =>
      have hm := (hs.caller c).2 ((owns_self hc).2 h)
      have hm' := (hs.caller c').2 ((owns_self hc').2 hpc)
      exact absurd (Thread.caller.inj (Option.some.inj (hm.symm.trans hm'))) hne

theorem free_of_watcher (hs : s.Ordered) (hm : s.mutex = some .watcher) {c : CallPtr}
    {op : Op τ} {pc : CallPc τ} (hc : s.calls[c]? = some (op, pc)) : pc.holds = false := by
  cases hpc : pc.holds with
  | false => rfl
  | true => exact nomatch hm.symm.trans ((hs.caller c).2 ((owns_self hc).2 hpc))

/-- When a task has been stopped, the next step knows what it relies on. -/
theorem Settled.knows {after : After τ} (h : s.Settled after) : s.Knows after.pc := by
  rcases after with type | (_ | ⟨k, rest⟩)
  · exact h
  · exact h
  · exact fun e he hk => List.mem_cons.1 (h e he hk)

theorem eq_of_key (hkeys : (s.taskList.map (·.1)).Nodup) {e e' : τ × TaskPtr}
    (he : e ∈ s.taskList) (he' : e' ∈ s.taskList) (h : e.1 = e'.1) : e = e' :=
  List.inj_on_of_nodup_map hkeys he he' h

theorem Turned.settled {after : After τ} (h : s.Turned k after)
    (hkeys : (s.taskList.map (·.1)).Nodup) (hk : ¬ s.Active k) : s.Settled after := by
  cases after with
  | erase type =>
      intro e he htype
      rw [eq_of_key hkeys he h htype]
      exact hk
  | next rest =>
      intro e he he'
      exact (h e he he').resolve_left fun heq => hk (heq ▸ he')

def fixed (s : Scheduler τ) (k : TaskPtr) : τ × Bool := ((s.tasks k).type, (s.tasks k).repeat_)

/-- What is done to the tasks leaves that, queues up again only tasks that repeat, and gives
a task a future only at a launch. -/
structure Keeps (s t : Scheduler τ) : Prop where
  fixed : ∀ k, t.fixed k = s.fixed k
  future : (∀ k, (t.tasks k).future = (s.tasks k).future) ∨ ∃ i k, s.watcher = .launch i k
  queued : ∀ k, (t.tasks k).status = .queuedUp →
    (s.tasks k).status = .queuedUp ∨ (s.tasks k).repeat_ = true

theorem keeps_of_tasks (h : t.tasks = s.tasks) : Keeps s t where
  fixed k := by rw [Scheduler.fixed, h, Scheduler.fixed]
  future := .inl fun k => by rw [h]
  queued k hk := .inl (h ▸ hk)

theorem keeps_of_update {x : Task τ} (htasks : t.tasks = Function.update s.tasks k x)
    (htype : x.type = (s.tasks k).type) (hrepeat : x.repeat_ = (s.tasks k).repeat_)
    (hfuture : x.future = (s.tasks k).future ∨ ∃ i k, s.watcher = .launch i k)
    (hqueued : x.status = .queuedUp →
      (s.tasks k).status = .queuedUp ∨ (s.tasks k).repeat_ = true) : Keeps s t where
  fixed k' := by
    rw [Scheduler.fixed, Scheduler.fixed, htasks]
    by_cases hk : k' = k
    · subst hk
      rw [Function.update_self, htype, hrepeat]
    · rw [Function.update_of_ne hk]
  future := hfuture.imp_left fun hfuture k' => by
    rw [htasks]
    by_cases hk : k' = k
    · subst hk
      rw [Function.update_self, hfuture]
    · rw [Function.update_of_ne hk]
  queued k' hk' := by
    rw [htasks] at hk'
    by_cases hk : k' = k
    · subst hk
      rw [Function.update_self] at hk'
      exact hqueued hk'
    · rw [Function.update_of_ne hk] at hk'
      exact .inl hk'

/-- A step of the watcher leaves the calls and the running flag, removes a task from the list
at most, and launches a body at most. -/
theorem watcherStep_keeps (h : s.watcherStep = some t) :
    Keeps s t ∧ t.calls = s.calls ∧ t.isRunning = s.isRunning ∧
      t.taskList.Sublist s.taskList ∧
      (t.bodies = s.bodies ∨ ∃ k, t.bodies = s.bodies ++ [{ task := k }]) := by
  unfold watcherStep at h
  cases hw : s.watcher with
  | lock =>
      simp only [hw] at h
      obtain ⟨-, ht⟩ := Option.ite_none_right_eq_some.1 h
      cases ht
      exact ⟨keeps_of_tasks rfl, rfl, rfl, .refl _, .inl rfl⟩
  | relock =>
      simp only [hw] at h
      obtain ⟨-, ht⟩ := Option.ite_none_right_eq_some.1 h
      cases ht
      exact ⟨keeps_of_tasks rfl, rfl, rfl, .refl _, .inl rfl⟩
  | futureWait i k =>
      simp only [hw] at h
      obtain ⟨-, ht⟩ := Option.ite_none_right_eq_some.1 h
      cases ht
      exact ⟨keeps_of_tasks rfl, rfl, rfl, .refl _, .inl rfl⟩
  | scan i =>
      simp only [hw] at h
      split at h <;> cases h <;> exact ⟨keeps_of_tasks rfl, rfl, rfl, .refl _, .inl rfl⟩
  | count i n =>
      simp only [hw] at h
      split at h <;> cases h <;> exact ⟨keeps_of_tasks rfl, rfl, rfl, .refl _, .inl rfl⟩
  | scanStopped i k =>
      simp only [hw] at h
      split at h <;> cases h
      · exact ⟨keeps_of_tasks rfl, rfl, rfl, List.eraseIdx_sublist .., .inl rfl⟩
      · exact ⟨keeps_of_tasks rfl, rfl, rfl, .refl _, .inl rfl⟩
  | store i k =>
      simp only [hw] at h
      cases h
      exact ⟨keeps_of_update rfl rfl rfl (.inl rfl) nofun, rfl, rfl, .refl _, .inl rfl⟩
  | launch i k =>
      simp only [hw] at h
      cases h
      exact ⟨keeps_of_update rfl rfl rfl (.inr ⟨i, k, hw⟩) .inl, rfl, rfl, .refl _, .inr ⟨k, rfl⟩⟩
  | blocked =>
      simp only [hw] at h
      exact nomatch h
  | done =>
      simp only [hw] at h
      exact nomatch h
  | _ =>
      simp only [hw] at h
      cases h
      exact ⟨keeps_of_tasks rfl, rfl, rfl, .refl _, .inl rfl⟩

theorem keeps_bodyStep (hs : s.Ordered) {b : BodyPtr} {outcome : Outcome}
    (h : s.bodyStep b outcome = some t) : Keeps s t := by
  unfold bodyStep at h
  cases hb : s.bodies[b]? with
  | none => simp [hb] at h
  | some x =>
      simp only [hb] at h
      cases hx : x.pc with
      | getFuture =>
          simp only [hx] at h
          split at h <;> cases h
          · exact keeps_of_tasks rfl
          · exact keeps_of_update rfl rfl rfl (.inl rfl) .inl
      | waitFor =>
          simp only [hx] at h
          cases h
          exact keeps_of_tasks rfl
      | callback =>
          simp only [hx] at h
          obtain ⟨-, ht⟩ := Option.ite_none_right_eq_some.1 h
          cases ht
          exact keeps_of_tasks rfl
      | storeDone =>
          simp only [hx] at h
          cases h
          refine keeps_of_update rfl rfl rfl (.inl rfl) fun hqueued => .inr ?_
          cases hrepeat : (s.tasks x.task).repeat_ with
          | true => rfl
          | false =>
              exact nomatch (if_neg (by simp [hrepeat]) : _ = Status.stopped).symm.trans hqueued
      | storeReady =>
          simp only [hx] at h
          cases h
          refine keeps_of_update rfl rfl rfl (.inl rfl) fun hqueued => ?_
          exact nomatch (hs.sane x.task).getD_value.symm.trans hqueued
      | swap =>
          simp only [hx] at h
          cases h
          exact keeps_of_update rfl rfl rfl (.inl rfl) .inl
      | storeFailed =>
          simp only [hx] at h
          cases h
          exact keeps_of_update rfl rfl rfl (.inl rfl) nofun
      | notify =>
          simp only [hx] at h
          cases h
          exact keeps_of_tasks s.notifyAll_fields.2.2.1
      | done =>
          simp only [hx] at h
          exact nomatch h

theorem listed_of_constructed (h : s.Constructed) : s.Listed where
  ordered := ordered_of_constructed h
  keys := by simp [h.taskList]
  typed := by simp [h.taskList]
  active k hk := by simp [Active, Life.active, life, pcOf, h.future, Life.storing] at hk
  entry := by simp [h.watcher, Watcher.entry]
  known := by simp [h.calls]
  of := by simp [h.calls]

theorem Listed.of_same (hs : s.Listed) (hordered : t.Ordered)
    (hkeeps : Keeps s t) (hlist : t.taskList = s.taskList)
    (hactive : ∀ k, t.Active k → s.Active k)
    (hentry : ∀ i k, t.watcher.entry = some (i, k) → s.taskList[i]?.map (·.2) = some k)
    (hknown : ∀ e ∈ t.calls, s.Knows e.2)
    (hof : ∀ e ∈ t.calls, e.2.Of e.1) : t.Listed where
  ordered := hordered
  keys := hlist ▸ hs.keys
  typed e he := (congrArg Prod.fst (hkeeps.fixed e.2)).trans (hs.typed e (hlist ▸ he))
  active k hk := by
    rw [InList, hlist]
    exact hs.active k (hactive k hk)
  entry := hlist ▸ hentry
  known e he := (hknown e he).mono hlist hactive
  of := hof

theorem Listed.watcher_same (hs : s.Listed) (h : s.watcherStep = some t)
    (hw : ∀ i k, s.watcher ≠ .launch i k) (hcalls : t.calls = s.calls)
    (hlist : t.taskList = s.taskList)
    (hentry : ∀ i k, t.watcher.entry = some (i, k) → s.taskList[i]?.map (·.2) = some k) :
    t.Listed := by
  obtain ⟨hordered, hlives⟩ := ordered_watcherStep hs.ordered h
  exact hs.of_same hordered (watcherStep_keeps h).1 hlist
    (fun k => hlives.active hs.ordered hordered fun i hi => absurd hi (hw i k)) hentry
    (hcalls ▸ hs.known) (hcalls ▸ hs.of)

theorem knows_of_watcher (hs : s.Ordered) (hm : s.mutex = some .watcher) :
    ∀ e ∈ s.calls, t.Knows e.2 := fun e he => by
  obtain ⟨c, hc⟩ := List.mem_iff_getElem?.1 he
  exact knows_of_free (free_of_watcher hs hm hc)

theorem Listed.watcher_erase (hs : s.Listed) {i : Nat} (hw : s.watcher = .scanStopped i k)
    (hstatus : (s.tasks k).status = .stopped) (h : s.watcherStep = some t)
    (ht : t = { s with taskList := s.taskList.eraseIdx i, watcher := .scan i }) : t.Listed := by
  have hm : s.mutex = some .watcher := hs.ordered.watcher.2 (by rw [hw]; rfl)
  obtain ⟨hordered, hlives⟩ := ordered_watcherStep hs.ordered h
  have hsub : (s.taskList.eraseIdx i).Sublist s.taskList := List.eraseIdx_sublist ..
  have hentry : s.taskList[i]?.map (·.2) = some k := hs.entry i k (by rw [hw]; rfl)
  subst ht
  refine ⟨hordered, hs.keys.sublist (hsub.map _), fun e he => hs.typed e (hsub.subset he),
    fun k' hk => ?_, nofun, knows_of_watcher (s := s) hs.ordered hm, hs.of⟩
  have hactive : s.Active k' := hlives.active hs.ordered hordered (by simp [hw]) hk
  obtain ⟨type, he⟩ := hs.active k' hactive
  refine ⟨type, ?_⟩
  obtain ⟨j, hj⟩ := List.mem_iff_getElem?.1 he
  refine List.mem_eraseIdx_iff_getElem?.2 ⟨j, ?_, hj⟩
  rintro rfl
  -- an active body has not stored its status
  rw [hj] at hentry
  cases hentry
  exact nomatch hstatus.symm.trans ((hs.ordered.sane k').pending hactive)

theorem Listed.watcher_launch (hs : s.Listed) {i : Nat} (hw : s.watcher = .launch i k)
    (h : s.watcherStep = some t) (hlist : t.taskList = s.taskList) (hcalls : t.calls = s.calls)
    (hwatcher : t.watcher = .scan (i + 1)) : t.Listed := by
  have hm : s.mutex = some .watcher := hs.ordered.watcher.2 (by rw [hw]; rfl)
  obtain ⟨hordered, hlives⟩ := ordered_watcherStep hs.ordered h
  refine ⟨hordered, hlist ▸ hs.keys, fun e he => ?_, fun k' hk => ?_, ?_, ?_, hcalls ▸ hs.of⟩
  · exact (congrArg Prod.fst ((watcherStep_keeps h).1.fixed e.2)).trans (hs.typed e (hlist ▸ he))
  · rw [InList, hlist]
    by_cases hne : k' = k
    · subst hne
      obtain ⟨e, he, hk⟩ := Option.map_eq_some_iff.1 (hs.entry i k' (by rw [hw]; rfl))
      exact ⟨e.1, hk ▸ List.mem_of_getElem? he⟩
    · have hother : ∀ j, s.watcher ≠ .launch j k' := fun j hj =>
        hne (Watcher.launch.inj (hj.symm.trans hw)).2
      exact hs.active k' (hlives.active hs.ordered hordered (fun j hj => absurd hj (hother j)) hk)
  · rw [hwatcher]
    exact nofun
  · rw [hcalls]
    exact knows_of_watcher hs.ordered hm

theorem Listed.watcherStep (hs : s.Listed) (h : s.watcherStep = some t) : t.Listed := by
  have hcopy := h
  unfold Scheduler.watcherStep at h
  cases hw : s.watcher with
  | lock =>
      simp only [hw] at h
      obtain ⟨-, ht⟩ := Option.ite_none_right_eq_some.1 h
      cases ht
      exact hs.watcher_same hcopy (by simp [hw]) rfl rfl nofun
  | relock =>
      simp only [hw] at h
      obtain ⟨-, ht⟩ := Option.ite_none_right_eq_some.1 h
      cases ht
      exact hs.watcher_same hcopy (by simp [hw]) rfl rfl nofun
  | scan i =>
      simp only [hw] at h
      cases hi : s.taskList[i]? with
      | none =>
          simp only [hi] at h
          cases h
          exact hs.watcher_same hcopy (by simp [hw]) rfl rfl nofun
      | some e =>
          simp only [hi] at h
          cases h
          refine hs.watcher_same hcopy (by simp [hw]) rfl rfl fun j k hk => ?_
          have hat : (j, k) = (i, e.2) := by
            split at hk <;> exact (Option.some.inj hk).symm
          cases hat
          simp [hi]
  | futureWait i k =>
      simp only [hw] at h
      obtain ⟨-, ht⟩ := Option.ite_none_right_eq_some.1 h
      cases ht
      refine hs.watcher_same hcopy (by simp [hw]) rfl rfl fun j k' hk => ?_
      exact hs.entry j k' (hw ▸ hk)
  | store i k =>
      simp only [hw] at h
      cases h
      refine hs.watcher_same hcopy (by simp [hw]) rfl rfl fun j k' hk => ?_
      exact hs.entry j k' (hw ▸ hk)
  | launch i k =>
      simp only [hw] at h
      cases h
      exact hs.watcher_launch hw hcopy rfl rfl rfl
  | scanStopped i k =>
      simp only [hw] at h
      split at h
      · next hstatus =>
          cases h
          exact hs.watcher_erase hw hstatus hcopy rfl
      · cases h
        exact hs.watcher_same hcopy (by simp [hw]) rfl rfl nofun
  | test =>
      simp only [hw] at h
      cases h
      refine hs.watcher_same hcopy (by simp [hw]) rfl rfl fun j k hk => ?_
      split at hk <;> exact nomatch hk
  | loop =>
      simp only [hw] at h
      cases h
      refine hs.watcher_same hcopy (by simp [hw]) rfl rfl fun j k hk => ?_
      split at hk <;> exact nomatch hk
  | count i n =>
      simp only [hw] at h
      cases hi : s.taskList[i]? with
      | none =>
          simp only [hi] at h
          cases h
          refine hs.watcher_same hcopy (by simp [hw]) rfl rfl fun j k hk => ?_
          split at hk <;> exact nomatch hk
      | some e =>
          simp only [hi] at h
          cases h
          exact hs.watcher_same hcopy (by simp [hw]) rfl rfl nofun
  | wait =>
      simp only [hw] at h
      cases h
      exact hs.watcher_same hcopy (by simp [hw]) rfl rfl nofun
  | unlock =>
      simp only [hw] at h
      cases h
      exact hs.watcher_same hcopy (by simp [hw]) rfl rfl nofun
  | blocked =>
      simp only [hw] at h
      exact nomatch h
  | done =>
      simp only [hw] at h
      exact nomatch h

theorem watcher_of_launch (hw : t.watcher = s.watcher ∨ t.watcher = s.notifyAll.watcher)
    {i : Nat} (h : s.watcher = .launch i k) : t.watcher = s.watcher := by
  rcases hw with hw | hw
  · exact hw
  · rw [hw, notifyAll, h, if_neg nofun, h]

theorem entry_of_watcher (hw : t.watcher = s.watcher ∨ t.watcher = s.notifyAll.watcher) :
    t.watcher.entry = s.watcher.entry := by
  rcases hw with hw | hw
  · rw [hw]
  · rw [hw, notifyAll]
    split
    · next h => rw [h]; rfl
    · rfl

theorem Listed.bodyStep (hs : s.Listed) {b : BodyPtr} {outcome : Outcome}
    (h : s.bodyStep b outcome = some t) : t.Listed := by
  obtain ⟨x, -, hordered, hlives⟩ := ordered_bodyStep hs.ordered h
  obtain ⟨y, -, -, hcalls, hlist, -, heffect⟩ := bodyStep_effect h
  have hwatcher : t.watcher = s.watcher ∨ t.watcher = s.notifyAll.watcher :=
    heffect.elim (fun h => .inr h.2) (fun h => .inl h.2)
  refine hs.of_same hordered (keeps_bodyStep hs.ordered h) hlist (fun k => ?_) ?_
    (hcalls ▸ hs.known) (hcalls ▸ hs.of)
  · exact hlives.lives.active hs.ordered hordered fun i => watcher_of_launch hwatcher
  · rw [entry_of_watcher hwatcher]
    exact hs.entry

theorem Listed.call (hs : s.Listed) (hordered : t.Ordered) (hlives : ∀ k, t.life k = s.life k)
    (htasks : t.tasks = s.tasks) (hlist : t.taskList = s.taskList)
    (hwatcher : t.watcher = s.watcher) {op : Op τ} (hcalls : t.calls = s.calls ++ [(op, op.pc)]) :
    t.Listed := by
  refine hs.of_same hordered (keeps_of_tasks htasks) hlist (fun k hk => ?_) ?_
    (fun e he => ?_) fun e he => ?_
  · rwa [Active, hlives] at hk
  · rw [hwatcher]
    exact hs.entry
  · rw [hcalls, List.mem_append, List.mem_singleton] at he
    rcases he with he | rfl
    · exact hs.known e he
    · exact knows_of_free (by cases op <;> rfl)
  · rw [hcalls, List.mem_append, List.mem_singleton] at he
    rcases he with he | rfl
    · exact hs.of e he
    · exact op.of_pc

theorem forall_setCall {P : Op τ × CallPc τ → Prop} {c : CallPtr} {op : Op τ} {pc pc' : CallPc τ}
    (hc : s.calls[c]? = some (op, pc)) (hself : P (op, pc'))
    (hother : ∀ c' e, c ≠ c' → s.calls[c']? = some e → P e) :
    ∀ e ∈ (s.setCall c pc').calls, P e := fun e he => by
  obtain ⟨c', hc'⟩ := List.mem_iff_getElem?.1 he
  rw [getElem?_setCall hc] at hc'
  split at hc'
  · cases hc'
    exact hself
  · next hne => exact hother c' e hne hc'

theorem Listed.call_same (hs : s.Listed) {c : CallPtr} {op : Op τ} {pc : CallPc τ}
    (hc : s.calls[c]? = some (op, pc)) (pc' : CallPc τ)
    (ht : t.Ordered ∧ Lives s t) (hkeeps : Keeps s t)
    (hcalls : t.calls = (s.setCall c pc').calls) (hlist : t.taskList = s.taskList)
    (hwatcher : t.watcher = s.watcher ∨ t.watcher = s.notifyAll.watcher)
    (hknows : s.Knows pc') (hof : pc'.Of op) : t.Listed := by
  refine hs.of_same ht.1 hkeeps hlist (fun k => ?_) ?_ ?_ ?_
  · exact ht.2.active hs.ordered ht.1 fun i => watcher_of_launch hwatcher
  · rw [entry_of_watcher hwatcher]
    exact hs.entry
  · rw [hcalls]
    exact forall_setCall hc hknows fun _ e _ he => hs.known e (List.mem_of_getElem? he)
  · rw [hcalls]
    exact forall_setCall hc hof fun _ e _ he => hs.of e (List.mem_of_getElem? he)

theorem Listed.call_list (hs : s.Listed) {c : CallPtr} {op : Op τ} {pc : CallPc τ}
    (hc : s.calls[c]? = some (op, pc)) (hholds : pc.holds = true) (pc' : CallPc τ)
    (ht : t.Ordered ∧ Lives s t) (htasks : t.tasks = s.tasks) (hbodies : t.bodies = s.bodies)
    (hwatcher : t.watcher = s.watcher) (hcalls : t.calls = (s.setCall c pc').calls)
    (hkeys : (t.taskList.map (·.1)).Nodup)
    (htyped : ∀ e ∈ t.taskList, e ∈ s.taskList ∨ (s.tasks e.2).type = e.1)
    (hactive : ∀ e ∈ s.taskList, s.Active e.2 → e ∈ t.taskList)
    (hknows : t.Knows pc') (hof : pc'.Of op) : t.Listed := by
  have hm : s.mutex = some (.caller c) := (hs.ordered.caller c).2 ((owns_self hc).2 hholds)
  refine ⟨ht.1, hkeys, fun e he => ?_, fun k hk => ?_, fun i k hi => ?_, ?_, ?_⟩
  · rw [htasks]
    exact (htyped e he).elim (hs.typed e) id
  · have hk' : s.Active k := by
      simpa only [Active, Life.active, life, pcOf, htasks, hbodies] using hk
    obtain ⟨type, he⟩ := hs.active k hk'
    exact ⟨type, hactive _ he hk'⟩
  · have hfree : s.watcher.holds = false := by
      cases hw : s.watcher.holds with
      | false => rfl
      | true => cases hm.symm.trans (hs.ordered.watcher.2 hw)
    rw [hwatcher] at hi
    cases hw : s.watcher <;> simp_all [Watcher.entry, Watcher.holds]
  · rw [hcalls]
    exact forall_setCall hc hknows fun c' e hne he =>
      knows_of_free (free_of_ne hs.ordered hc he hne hholds)
  · rw [hcalls]
    exact forall_setCall hc hof fun _ e _ he => hs.of e (List.mem_of_getElem? he)

variable [LinearOrder τ]

inductive CallMove (s : Scheduler τ) : CallPc τ → CallPc τ → Prop
  | scheduleLock (k : TaskPtr) : CallMove s (.scheduleLock k) (.scheduleEmplace k)
  | refused (k : TaskPtr) : CallMove s (.scheduleEmplace k) (.unlockReturn false)
  | emplaced (k : TaskPtr) : CallMove s (.scheduleEmplace k) .unlockNotify
  | stopTaskLock (type : τ) : CallMove s (.stopTaskLock type) (.stopTaskFind type)
  | missed (type : τ) : CallMove s (.stopTaskFind type) (.unlockReturn true)
  | found (type : τ) (k : TaskPtr) : CallMove s (.stopTaskFind type) (.statusRead k (.erase type))
  | erased (type : τ) : CallMove s (.stopTaskErase type) .unlockNotify
  | unlocked : CallMove s .unlockNotify .notify
  | notified : CallMove s .notify (.done true)
  | running : s.isRunning = true → CallMove s .stopRead .stopStore
  | away : s.isRunning = false → CallMove s .stopRead (.done true)
  | stored : CallMove s .stopStore .stopLock
  | stopLock : CallMove s .stopLock .stopLoop
  | stopLoop (ks : List TaskPtr) : CallMove s .stopLoop (After.next ks).pc
  | cleared : CallMove s .stopClear .stopUnlock
  | stopUnlock : CallMove s .stopUnlock .stopNotify
  | stopNotify : CallMove s .stopNotify .stopJoin
  | joined : CallMove s .stopJoin (.done true)
  | other (k : TaskPtr) (after : After τ) :
      CallMove s (.statusRead k after) (.statusStore k after)
  | pending (k : TaskPtr) (after : After τ) :
      CallMove s (.statusRead k after) (.setValue k after)
  | marked (k : TaskPtr) (after : After τ) : CallMove s (.statusStore k after) after.pc
  | threw (k : TaskPtr) (after : After τ) : CallMove s (.setValue k after) (.unlockReturn false)
  | set (k : TaskPtr) (after : After τ) : (s.tasks k).promise.value = none →
      CallMove s (.setValue k after) (.futureWait k after)
  | waited (k : TaskPtr) (after : After τ) : CallMove s (.futureWait k after) after.pc
  | returned (normal : Bool) : CallMove s (.unlockReturn normal) (.done normal)

theorem callStep_move {c : CallPtr} (h : s.callStep c = some t) :
    ∃ op pc pc', s.calls[c]? = some (op, pc) ∧ t.calls[c]? = some (op, pc') ∧
      CallMove s pc pc' := by
  unfold callStep at h
  cases hc : s.calls[c]? with
  | none => simp [hc] at h
  | some e =>
      obtain ⟨op, pc⟩ := e
      have hnext : ∀ pc', t.calls = (s.setCall c pc').calls → CallMove s pc pc' →
          ∃ op₁ pc₁ pc', some (op, pc) = some (op₁, pc₁) ∧ t.calls[c]? = some (op₁, pc') ∧
            CallMove s pc₁ pc' := fun pc' hcalls hmove =>
        ⟨op, pc, pc', rfl, by rw [hcalls, getElem?_setCall hc, if_pos rfl], hmove⟩
      have hlock : ∀ pc', s.lock c pc' = some t → t.calls = (s.setCall c pc').calls :=
        fun pc' hl => by
          obtain ⟨-, ht⟩ := Option.ite_none_right_eq_some.1 hl
          cases ht
          rfl
      simp only [hc] at h
      cases pc with
      | scheduleLock k => exact hnext _ (hlock _ h) (.scheduleLock k)
      | stopTaskLock type => exact hnext _ (hlock _ h) (.stopTaskLock type)
      | stopLock => exact hnext _ (hlock _ h) .stopLock
      | scheduleEmplace k =>
          simp only at h
          split at h <;> cases h
          · exact hnext _ rfl (.refused k)
          · exact hnext _ rfl (.emplaced k)
      | stopTaskFind type =>
          simp only at h
          split at h <;> cases h
          · exact hnext _ rfl (.missed type)
          · exact hnext _ rfl (.found type _)
      | stopTaskErase type =>
          cases h
          exact hnext _ rfl (.erased type)
      | unlockNotify =>
          cases h
          exact hnext _ rfl .unlocked
      | notify =>
          cases h
          obtain ⟨-, hcalls, -⟩ := s.notifyAll_fields
          exact hnext _ (congrArg (fun l => l.modify c fun x => (x.1, .done true)) hcalls) .notified
      | stopRead =>
          cases h
          by_cases hrunning : s.isRunning = true
          · exact hnext .stopStore (by rw [if_pos hrunning]) (.running hrunning)
          · exact hnext (.done true) (by rw [if_neg hrunning]) (.away (by simpa using hrunning))
      | stopStore =>
          cases h
          exact hnext _ rfl .stored
      | stopLoop =>
          cases h
          exact hnext _ rfl (.stopLoop _)
      | stopClear =>
          cases h
          exact hnext _ rfl .cleared
      | stopUnlock =>
          cases h
          exact hnext _ rfl .stopUnlock
      | stopNotify =>
          cases h
          obtain ⟨-, hcalls, -⟩ := s.notifyAll_fields
          exact hnext _ (congrArg (fun l => l.modify c fun x => (x.1, .stopJoin)) hcalls)
            .stopNotify
      | stopJoin =>
          obtain ⟨-, ht⟩ := Option.ite_none_right_eq_some.1 h
          cases ht
          exact hnext _ rfl .joined
      | statusRead k after =>
          cases h
          by_cases hpending : (s.tasks k).status = .pending
          · exact hnext (.setValue k after) (by simp only [hpending, ne_eq, not_true, if_false])
              (.pending k after)
          · exact hnext (.statusStore k after)
              (by simp only [hpending, ne_eq, not_false_iff, if_true]) (.other k after)
      | statusStore k after =>
          cases h
          exact hnext _ rfl (.marked k after)
      | setValue k after =>
          simp only at h
          split at h
          · cases h
            exact hnext _ rfl (.threw k after)
          · next hvalue =>
              cases h
              exact hnext _ rfl (.set k after (by simpa using hvalue))
      | futureWait k after =>
          obtain ⟨-, ht⟩ := Option.ite_none_right_eq_some.1 h
          cases ht
          exact hnext _ rfl (.waited k after)
      | unlockReturn normal =>
          cases h
          exact hnext _ rfl (.returned normal)
      | done normal => exact nomatch h

/-- A step of a call removes tasks from the list, or enters the one it schedules. -/
theorem callStep_keeps {c : CallPtr} (h : s.callStep c = some t) :
    Keeps s t ∧ (t.taskList.Sublist s.taskList ∨
      ∃ e ∈ s.calls[c]?, ∃ k, e.2 = .scheduleEmplace k ∧
        emplace s.taskList (s.tasks k).type k = some t.taskList) := by
  unfold callStep at h
  cases hc : s.calls[c]? with
  | none => simp [hc] at h
  | some e =>
      obtain ⟨op, pc⟩ := e
      have hlock : ∀ pc', s.lock c pc' = some t →
          Keeps s t ∧ t.taskList.Sublist s.taskList := fun pc' hl => by
        obtain ⟨-, ht⟩ := Option.ite_none_right_eq_some.1 hl
        cases ht
        exact ⟨keeps_of_tasks rfl, .refl _⟩
      simp only [hc] at h
      cases pc with
      | scheduleLock k => exact (hlock _ h).imp_right .inl
      | stopTaskLock type => exact (hlock _ h).imp_right .inl
      | stopLock => exact (hlock _ h).imp_right .inl
      | scheduleEmplace k =>
          simp only at h
          split at h
          · cases h
            exact ⟨keeps_of_tasks rfl, .inl (.refl _)⟩
          · next l hl =>
              cases h
              exact ⟨keeps_of_tasks rfl, .inr ⟨_, rfl, k, rfl, hl⟩⟩
      | stopTaskFind type =>
          simp only at h
          split at h <;> cases h <;> exact ⟨keeps_of_tasks rfl, .inl (.refl _)⟩
      | stopTaskErase type =>
          cases h
          exact ⟨keeps_of_tasks rfl, .inl List.eraseP_sublist⟩
      | stopClear =>
          cases h
          exact ⟨keeps_of_tasks rfl, .inl (List.nil_sublist _)⟩
      | notify =>
          cases h
          obtain ⟨-, -, htasks, -, hlist, -⟩ := s.notifyAll_fields
          exact ⟨keeps_of_tasks htasks, .inl (hlist ▸ .refl _)⟩
      | stopNotify =>
          cases h
          obtain ⟨-, -, htasks, -, hlist, -⟩ := s.notifyAll_fields
          exact ⟨keeps_of_tasks htasks, .inl (hlist ▸ .refl _)⟩
      | stopJoin =>
          obtain ⟨-, ht⟩ := Option.ite_none_right_eq_some.1 h
          cases ht
          exact ⟨keeps_of_tasks rfl, .inl (.refl _)⟩
      | futureWait k after =>
          obtain ⟨-, ht⟩ := Option.ite_none_right_eq_some.1 h
          cases ht
          exact ⟨keeps_of_tasks rfl, .inl (.refl _)⟩
      | statusStore k after =>
          cases h
          exact ⟨keeps_of_update rfl rfl rfl (.inl rfl) nofun, .inl (.refl _)⟩
      | setValue k after =>
          simp only at h
          split at h <;> cases h
          · exact ⟨keeps_of_tasks rfl, .inl (.refl _)⟩
          · exact ⟨keeps_of_update rfl rfl rfl (.inl rfl) .inl, .inl (.refl _)⟩
      | done normal => exact nomatch h
      | _ =>
          cases h
          exact ⟨keeps_of_tasks rfl, .inl (.refl _)⟩

theorem keeps_step (hs : s.Ordered) {e : SchedulerEvent τ} (h : s.step e = some t) :
    Keeps s t := by
  cases e with
  | watcher => exact (watcherStep_keeps h).1
  | wakeUp =>
      obtain ⟨-, ht⟩ := Option.ite_none_right_eq_some.1 h
      cases ht
      exact keeps_of_tasks rfl
  | body b outcome => exact keeps_bodyStep hs h
  | call op =>
      cases h
      exact keeps_of_tasks rfl
  | callFrom b op =>
      simp only [step, callFrom] at h
      cases hb : s.bodies[b]? with
      | none => simp [hb] at h
      | some x =>
          simp only [hb] at h
          obtain ⟨-, ht⟩ := Option.ite_none_right_eq_some.1 h
          cases ht
          exact keeps_of_tasks rfl
  | caller c => exact (callStep_keeps h).1

theorem mem_emplace {l l' : List (τ × TaskPtr)} {type : τ} (h : emplace l type k = some l')
    (e : τ × TaskPtr) : e ∈ l' ↔ e = (type, k) ∨ e ∈ l := by
  unfold emplace at h
  split at h
  · exact nomatch h
  · cases h
    rw [List.mem_orderedInsert]

theorem nodup_emplace {l l' : List (τ × TaskPtr)} {type : τ} (h : emplace l type k = some l')
    (hkeys : (l.map (·.1)).Nodup) : (l'.map (·.1)).Nodup := by
  unfold emplace at h
  split at h
  · exact nomatch h
  · next hnot =>
      cases h
      have hperm := (List.perm_orderedInsert (fun a b : τ × TaskPtr => a.1 ≤ b.1) (type, k) l).map
        (·.1)
      refine hperm.nodup_iff.2 (List.nodup_cons.2 ⟨fun hmem => hnot ?_, hkeys⟩)
      obtain ⟨e, he, htype⟩ := List.mem_map.1 hmem
      exact List.any_eq_true.2 ⟨e, he, by simpa using htype⟩

/-- In a list with one entry for a type, `eraseP` removes all entries of the type. -/
theorem mem_eraseP_of_keys {l : List (τ × TaskPtr)} (hkeys : (l.map (·.1)).Nodup) (type : τ)
    (e : τ × TaskPtr) : e ∈ l.eraseP (·.1 = type) ↔ e ∈ l ∧ e.1 ≠ type := by
  induction l with
  | nil => simp
  | cons a l ih =>
      rw [List.map_cons, List.nodup_cons] at hkeys
      by_cases ha : a.1 = type
      · rw [List.eraseP_cons_of_pos (by simpa using ha), List.mem_cons]
        refine ⟨fun he => ⟨.inr he, fun htype => hkeys.1 ?_⟩, fun ⟨he, htype⟩ => ?_⟩
        · exact List.mem_map.2 ⟨e, he, htype.trans ha.symm⟩
        · exact he.resolve_left fun heq => htype (heq ▸ ha)
      · rw [List.eraseP_cons_of_neg (by simpa using ha), List.mem_cons, List.mem_cons,
          ih hkeys.2]
        refine ⟨fun h => h.elim (fun h => ⟨.inl h, h ▸ ha⟩) fun h => ⟨.inr h.1, h.2⟩, ?_⟩
        rintro ⟨rfl | he, htype⟩
        · exact .inl rfl
        · exact .inr ⟨he, htype⟩

theorem Listed.callStep (hs : s.Listed) {c : CallPtr} (h : s.callStep c = some t) : t.Listed := by
  have ht := ordered_callStep hs.ordered h
  have hkeeps := (callStep_keeps h).1
  unfold Scheduler.callStep at h
  cases hc : s.calls[c]? with
  | none => simp [hc] at h
  | some e =>
      obtain ⟨op, pc⟩ := e
      have hmem := List.mem_of_getElem? hc
      have hknown := hs.known _ hmem
      have hof : pc.Of op := hs.of _ hmem
      have hlock : ∀ pc', s.Knows pc' → pc'.Of op → s.lock c pc' = some t → t.Listed :=
        fun pc' hk hof hl => by
          obtain ⟨-, htl⟩ := Option.ite_none_right_eq_some.1 hl
          cases htl
          exact hs.call_same hc pc' ht hkeeps rfl rfl (.inl rfl) hk hof
      simp only [hc] at h
      cases pc with
      | scheduleLock k => exact hlock (.scheduleEmplace k) trivial hof h
      | scheduleEmplace k =>
          simp only at h
          split at h
          · cases h
            exact hs.call_same hc (.unlockReturn false) ht hkeeps rfl rfl (.inl rfl) trivial
              fun h => by cases h
          · next l hl =>
              cases h
              refine hs.call_list hc rfl .unlockNotify ht rfl rfl rfl rfl (nodup_emplace hl hs.keys)
                (fun e he => ?_) (fun e he _ => (mem_emplace hl e).2 (.inr he)) trivial
                fun hop => by cases hop.symm.trans hof
              rcases (mem_emplace hl e).1 he with rfl | he
              · exact .inr rfl
              · exact .inl he
      | stopTaskLock type => exact hlock (.stopTaskFind type) trivial hof h
      | stopTaskFind type =>
          simp only at h
          split at h
          · cases h
            exact hs.call_same hc (.unlockReturn true) ht hkeeps rfl rfl (.inl rfl) trivial
              fun _ hop => by cases hop.symm.trans hof
          · next type' k hfind =>
              cases h
              refine hs.call_same hc (.statusRead k (.erase type)) ht hkeeps rfl rfl (.inl rfl) ?_
                hof
              have htype : type' = type := by simpa using List.find?_some hfind
              exact htype ▸ List.mem_of_find?_eq_some hfind
      | stopTaskErase type =>
          cases h
          refine hs.call_list hc rfl .unlockNotify ht rfl rfl rfl rfl
            (hs.keys.sublist (List.eraseP_sublist.map _))
            (fun e he => .inl (List.eraseP_sublist.subset he)) (fun e he hk => ?_) trivial
            fun hop => by cases hop.symm.trans hof
          exact (mem_eraseP_of_keys hs.keys type e).2 ⟨he, fun htype => hknown e he htype hk⟩
      | unlockNotify =>
          cases h
          exact hs.call_same hc .notify ht hkeeps rfl rfl (.inl rfl) trivial hof
      | notify =>
          cases h
          obtain ⟨-, hcalls, -, -, hlist, -⟩ := s.notifyAll_fields
          exact hs.call_same hc (.done true) ht hkeeps
            (congrArg (fun l => l.modify c fun x => (x.1, .done true)) hcalls) hlist (.inr rfl)
            trivial trivial
      | stopRead =>
          cases h
          refine hs.call_same hc _ ht hkeeps rfl rfl (.inl rfl) ?_ ?_
          · split <;> trivial
          · split
            · exact hof
            · trivial
      | stopStore =>
          cases h
          exact hs.call_same hc .stopLock ht hkeeps rfl rfl (.inl rfl) trivial hof
      | stopLock => exact hlock .stopLoop trivial hof h
      | stopLoop =>
          cases h
          have hnext : (CallPc.futureWait 0 (.next (s.taskList.map (·.2)))).Of op := hof
          exact hs.call_same hc _ ht hkeeps rfl rfl (.inl rfl)
            (Settled.knows fun e he _ => List.mem_map_of_mem he) (After.of_pc hnext)
      | stopClear =>
          cases h
          exact hs.call_list hc rfl .stopUnlock ht rfl rfl rfl rfl List.nodup_nil
            (fun e he => by cases he)
            (fun e he hk => absurd (hknown e he hk) List.not_mem_nil) trivial hof
      | stopUnlock =>
          cases h
          exact hs.call_same hc .stopNotify ht hkeeps rfl rfl (.inl rfl) trivial hof
      | stopNotify =>
          cases h
          obtain ⟨-, hcalls, -, -, hlist, -⟩ := s.notifyAll_fields
          exact hs.call_same hc .stopJoin ht hkeeps
            (congrArg (fun l => l.modify c fun x => (x.1, .stopJoin)) hcalls) hlist (.inr rfl)
            trivial hof
      | stopJoin =>
          obtain ⟨-, htl⟩ := Option.ite_none_right_eq_some.1 h
          cases htl
          exact hs.call_same hc (.done true) ht hkeeps rfl rfl (.inl rfl) trivial trivial
      | statusRead k after =>
          cases h
          refine hs.call_same hc _ ht hkeeps rfl rfl (.inl rfl) ?_ ?_
          · split <;> exact hknown
          · cases after <;> split <;> exact hof
      | statusStore k after =>
          cases h
          have hgrip : (s.life k).grip = some .mark := by
            rw [life, grip_of_caller ((hs.ordered.caller c).2 ((owns_self hc).2 rfl)) hc]
            exact gripOn_some_self k _
          -- a task that is marked has no active body
          have hk : ¬ s.Active k := fun hk =>
            (hs.ordered.sane k).mark hgrip ((hs.ordered.sane k).pending hk)
          refine hs.call_same hc _ ht hkeeps rfl rfl (.inl rfl)
            (Turned.settled hknown hs.keys hk).knows (After.of_pc (k := k) ?_)
          cases after <;> exact hof
      | setValue k after =>
          simp only at h
          split at h
          · cases h
            exact hs.call_same hc (.unlockReturn false) ht hkeeps rfl rfl (.inl rfl) trivial
              fun h => by cases h
          · cases h
            refine hs.call_same hc (.futureWait k after) ht hkeeps rfl rfl (.inl rfl) hknown ?_
            cases after <;> exact hof
      | futureWait k after =>
          obtain ⟨hready, htl⟩ := Option.ite_none_right_eq_some.1 h
          cases htl
          have hk : ¬ s.Active k := fun hk => by
            simp [Active, Life.active, life, pcOf_of_ready hready, Life.storing] at hk
          exact hs.call_same hc _ ht hkeeps rfl rfl (.inl rfl)
            (Turned.settled hknown hs.keys hk).knows (After.of_pc hof)
      | unlockReturn normal =>
          cases h
          exact hs.call_same hc (.done normal) ht hkeeps rfl rfl (.inl rfl) trivial trivial
      | done normal => cases h

theorem Listed.step (hs : s.Listed) {e : SchedulerEvent τ} (h : s.step e = some t) :
    t.Listed := by
  cases e with
  | watcher => exact hs.watcherStep h
  | wakeUp =>
      have hordered := ordered_step hs.ordered h
      obtain ⟨hw, ht⟩ := Option.ite_none_right_eq_some.1 h
      cases ht
      refine hs.of_same hordered.1 (keeps_of_tasks rfl) rfl (fun k => ?_) nofun hs.known hs.of
      exact hordered.2.active hs.ordered hordered.1 (by simp [hw])
  | body b outcome => exact hs.bodyStep h
  | call op =>
      cases h
      obtain ⟨hordered, hlives⟩ :=
        hs.ordered.call (t := s.call op) op rfl rfl rfl rfl fun _ => rfl
      exact hs.call hordered hlives rfl rfl rfl rfl
  | callFrom b op =>
      obtain ⟨hordered, hlives⟩ := ordered_callFrom hs.ordered h
      simp only [Scheduler.step, callFrom] at h
      cases hb : s.bodies[b]? with
      | none => simp [hb] at h
      | some x =>
          simp only [hb] at h
          obtain ⟨-, ht⟩ := Option.ite_none_right_eq_some.1 h
          cases ht
          exact hs.call hordered hlives rfl rfl rfl rfl
  | caller c => exact hs.callStep h

theorem listed_of_reachable (h : system.Reachable s) : s.Listed :=
  h.invariant (I := Listed) (fun _ h => listed_of_constructed h)
    fun _ e _ hs _ hstep => hs.step (e := e) hstep

end Scheduler

end Scheduling
