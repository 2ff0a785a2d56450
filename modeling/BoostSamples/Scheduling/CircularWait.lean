import Mathlib.Logic.Relation
import BoostSamples.Scheduling.Discipline

/-!
# Who waits for whom

The watcher and the callers wait for the mutex, that is for its owner; the watcher,
`StopTask` and `Stop` wait for bodies with the mutex held; `Stop` waits for the watcher;
and a body waits for the call that its callback makes. The body that the watcher waits for
has stored its status and takes no mutex. The body that a call waits for may be in its
callback, and the callback may be at a call of the scheduler: then they wait for each
other, and else nobody waits in a circle.
-/

namespace Scheduling

inductive Waiter
  | watcher
  | caller (c : CallPtr)
  | body (b : BodyPtr)
  deriving DecidableEq, Repr

def Thread.waiter : Thread → Waiter
  | .watcher => .watcher
  | .caller c => .caller c

def CallPc.locks {τ : Type*} : CallPc τ → Bool
  | .scheduleLock _ | .stopTaskLock _ | .stopLock => true
  | _ => false

def CallPc.awaits {τ : Type*} : CallPc τ → Option TaskPtr
  | .futureWait k _ => some k
  | _ => none

def CallPc.sets {τ : Type*} : CallPc τ → Option TaskPtr
  | .setValue k _ => some k
  | _ => none

def CallPc.leaves {τ : Type*} : CallPc τ → Bool
  | .notify | .done _ => true
  | _ => false

/-- How many threads there are behind a call, each waiting for the next. -/
def CallPc.depth {τ : Type*} : CallPc τ → Nat
  | .futureWait .. => 2
  | .scheduleLock _ | .stopTaskLock _ | .stopLock => 3
  | .stopJoin => 4
  | _ => 0

theorem CallPc.depth_of_holds {τ : Type*} {pc : CallPc τ} (h : pc.holds = true) :
    pc.depth ≤ 2 := by
  cases pc <;> first | exact Nat.zero_le 2 | exact Nat.le_refl 2 | exact nomatch h

theorem CallPc.depth_of_locks {τ : Type*} {pc : CallPc τ} (h : pc.locks = true) :
    pc.depth = 3 := by
  cases pc <;> first | rfl | exact nomatch h

theorem CallPc.depth_of_leaves {τ : Type*} {pc : CallPc τ} (h : pc.leaves = true) :
    pc.depth = 0 := by
  cases pc <;> first | rfl | exact nomatch h

def BodyPc.starts : BodyPc → Bool
  | .getFuture | .waitFor => true
  | _ => false

def Watcher.locks : Watcher → Bool
  | .lock | .relock => true
  | _ => false

@[simp] theorem After.awaits_pc {τ : Type*} (after : After τ) : after.pc.awaits = none := by
  rcases after with type | (_ | ⟨k, rest⟩) <;> rfl

def Watcher.depth : Watcher → Nat
  | .futureWait .. => 1
  | .lock | .relock => 3
  | _ => 0

theorem Watcher.depth_of_holds {w : Watcher} (h : w.holds = true) : w.depth ≤ 1 := by
  cases w <;> first | exact Nat.zero_le 1 | exact Nat.le_refl 1 | exact nomatch h

theorem Watcher.depth_of_locks {w : Watcher} (h : w.locks = true) :
    w.depth = 3 ∧ w.holds = false := by
  cases w <;> first | exact ⟨rfl, rfl⟩ | exact nomatch h

theorem Watcher.depth_le (w : Watcher) : w.depth ≤ 3 := by
  cases w <;> simp [Watcher.depth]

namespace Scheduler

variable {τ : Type*} {s t : Scheduler τ}

def AwaitedAs (s : Scheduler τ) (k : TaskPtr) (b : BodyPtr) : Prop :=
  (s.tasks k).future = some b ∧ s.ready k = false

/-- Who waits for whom. -/
inductive WaitsFor (s : Scheduler τ) : Waiter → Waiter → Prop
  | watcherMutex {th : Thread} : s.watcher.locks = true → s.mutex = some th →
      WaitsFor s .watcher th.waiter
  | watcherFuture {i : Nat} {k : TaskPtr} {b : BodyPtr} : s.watcher = .futureWait i k →
      s.AwaitedAs k b → WaitsFor s .watcher (.body b)
  | callMutex {c : CallPtr} {op : Op τ} {pc : CallPc τ} {th : Thread} :
      s.calls[c]? = some (op, pc) → pc.locks = true → s.mutex = some th →
      WaitsFor s (.caller c) th.waiter
  | callFuture {c : CallPtr} {op : Op τ} {k : TaskPtr} {after : After τ} {b : BodyPtr} :
      s.calls[c]? = some (op, .futureWait k after) → s.AwaitedAs k b →
      WaitsFor s (.caller c) (.body b)
  | join {c : CallPtr} {op : Op τ} : s.calls[c]? = some (op, .stopJoin) → s.watcher ≠ .done →
      WaitsFor s (.caller c) .watcher
  | callback {b : BodyPtr} {x : Body} {c : CallPtr} : s.bodies[b]? = some x →
      x.pc = .callback → x.call = some c → s.returned x.call = false →
      WaitsFor s (.body b) (.caller c)

/-- Some thread waits for itself, through others or directly. -/
def CircularWait (s : Scheduler τ) : Prop := ∃ w, Relation.TransGen s.WaitsFor w w

/-- The callback is at no call that still needs the mutex. -/
def free (s : Scheduler τ) (x : Body) : Bool :=
  match x.call with
  | none => true
  | some c => s.calls[c]?.any (·.2.leaves)

/-- The callback of the body of the task is at a call that still needs the mutex. -/
def entangled (s : Scheduler τ) (k : TaskPtr) : Bool :=
  ((s.tasks k).future.bind (s.bodies[·]?)).any fun x => x.pc = .callback && !s.free x

def awaited (s : Scheduler τ) (b : BodyPtr) : Bool :=
  s.calls.any fun e => e.2.awaits.any fun k => (s.tasks k).future = some b

/-- No call begins to wait for a body whose callback is at a call that still needs the mutex,
and no callback calls the scheduler while a call waits for its body. -/
def Careful (s : Scheduler τ) : SchedulerEvent τ → Prop
  | .caller c => ∀ e ∈ s.calls[c]?, ∀ k ∈ e.2.sets,
      (s.tasks k).promise.value = none → s.entangled k = false
  | .callFrom b _ => s.awaited b = false
  | _ => True

instance (s : Scheduler τ) : (e : SchedulerEvent τ) → Decidable (s.Careful e)
  | .caller c => inferInstanceAs (Decidable (∀ e ∈ s.calls[c]?, _))
  | .callFrom b _ => inferInstanceAs (Decidable (s.awaited b = false))
  | .watcher | .wakeUp | .body _ _ | .call _ => .isTrue trivial

/-- The bodies that calls wait for have no callback that still needs the mutex. -/
structure Untangled (s : Scheduler τ) : Prop where
  ordered : s.Ordered
  fresh : ∀ x ∈ s.bodies, x.pc.starts = true → x.call = none
  free : ∀ e ∈ s.calls, ∀ k ∈ e.2.awaits, s.entangled k = false

theorem untangled_of_constructed (h : s.Constructed) : s.Untangled where
  ordered := ordered_of_constructed h
  fresh := by simp [h.bodies]
  free := by simp [h.calls]

theorem not_entangled {k : TaskPtr} {b : BodyPtr} {x : Body} (h : s.entangled k = false)
    (hfuture : (s.tasks k).future = some b) (hb : s.bodies[b]? = some x)
    (hx : x.pc = .callback) : s.free x = true := by
  simpa [entangled, hfuture, hb, hx] using h

theorem entangled_eq_false {k : TaskPtr}
    (h : ∀ b x, (s.tasks k).future = some b → s.bodies[b]? = some x → x.pc = .callback →
      s.free x = true) : s.entangled k = false := by
  unfold entangled
  cases hfuture : (s.tasks k).future with
  | none => rfl
  | some b =>
      cases hb : s.bodies[b]? with
      | none => simp [hb]
      | some x =>
          simp only [Option.bind_some, hb, Option.any_some, Bool.and_eq_false_imp,
            decide_eq_true_eq, Bool.not_eq_false']
          exact h b x hfuture hb

/-- A body comes to the callback from the start, and to the start from nowhere. -/
theorem bodies_bodyStep {b : BodyPtr} {outcome : Outcome} (h : s.bodyStep b outcome = some t) :
    ∃ x pc, s.bodies[b]? = some x ∧ t.bodies = s.bodies.modify b (fun y => { y with pc := pc }) ∧
      (pc = .callback → x.pc.starts = true) ∧ (pc.starts = true → x.pc.starts = true) := by
  unfold bodyStep at h
  cases hb : s.bodies[b]? with
  | none => simp [hb] at h
  | some x =>
      simp only [hb] at h
      refine ⟨x, ?_⟩
      cases hx : x.pc with
      | getFuture =>
          simp only [hx] at h
          split at h <;> cases h
          · exact ⟨.storeFailed, rfl, rfl, nofun, nofun⟩
          · exact ⟨.waitFor, rfl, rfl, nofun, fun _ => rfl⟩
      | waitFor =>
          simp only [hx] at h
          cases h
          exact ⟨_, rfl, rfl, fun _ => rfl, fun _ => rfl⟩
      | callback =>
          simp only [hx] at h
          obtain ⟨-, ht⟩ := Option.ite_none_right_eq_some.1 h
          cases ht
          exact ⟨outcome.pc, rfl, rfl, by cases outcome <;> nofun, by cases outcome <;> nofun⟩
      | storeDone =>
          simp only [hx] at h
          cases h
          exact ⟨.swap, rfl, rfl, nofun, nofun⟩
      | storeReady =>
          simp only [hx] at h
          cases h
          exact ⟨.swap, rfl, rfl, nofun, nofun⟩
      | swap =>
          simp only [hx] at h
          cases h
          exact ⟨.notify, rfl, rfl, nofun, nofun⟩
      | storeFailed =>
          simp only [hx] at h
          cases h
          exact ⟨.notify, rfl, rfl, nofun, nofun⟩
      | notify =>
          simp only [hx] at h
          cases h
          obtain ⟨-, -, -, hbodies, -⟩ := s.notifyAll_fields
          exact ⟨.done, rfl, congrArg (fun l => l.modify b fun y => { y with pc := .done }) hbodies,
            nofun, nofun⟩
      | done =>
          simp only [hx] at h
          exact nomatch h

/-- A call comes to wait for a body when it has set the promise. -/
theorem awaits_of_move {pc pc' : CallPc τ} {k : TaskPtr} (h : CallMove s pc pc')
    (hk : pc'.awaits = some k) : pc.sets = some k ∧ (s.tasks k).promise.value = none := by
  cases h with
  | set k' after hvalue =>
      cases hk
      exact ⟨rfl, hvalue⟩
  | stopLoop ks => exact nomatch (After.awaits_pc _).symm.trans hk
  | marked k' after => exact nomatch after.awaits_pc.symm.trans hk
  | waited k' after => exact nomatch after.awaits_pc.symm.trans hk
  | _ => exact nomatch hk

variable [LinearOrder τ]

theorem bodies_step {e : SchedulerEvent τ} (h : s.step e = some t) {b : BodyPtr} {y : Body}
    (hb : t.bodies[b]? = some y) :
    y.call = none ∧ y.pc = .getFuture ∨ ∃ x, s.bodies[b]? = some x ∧
      (y.pc = .callback → x.pc = .callback ∨ x.pc.starts = true) ∧
      (y.pc.starts = true → x.pc.starts = true) ∧
      (y.call = x.call ∨ x.pc = .callback ∧ y.pc = .callback ∧ ∃ op, e = .callFrom b op) := by
  cases e with
  | watcher =>
      obtain ⟨-, -, -, -, hbodies | ⟨k, hbodies⟩⟩ := watcherStep_keeps h
      · rw [hbodies] at hb
        exact .inr ⟨y, hb, .inl, id, .inl rfl⟩
      · rw [hbodies, List.getElem?_append] at hb
        split at hb
        · exact .inr ⟨y, hb, .inl, id, .inl rfl⟩
        · obtain ⟨-, rfl⟩ : _ ∧ y = { task := k } := by
            simpa [List.getElem?_singleton, eq_comm] using hb
          exact .inl ⟨rfl, rfl⟩
  | wakeUp =>
      obtain ⟨-, ht⟩ := Option.ite_none_right_eq_some.1 h
      cases ht
      exact .inr ⟨y, hb, .inl, id, .inl rfl⟩
  | body b' outcome =>
      obtain ⟨x, pc, hb', hbodies, hcallback, hstarts⟩ := bodies_bodyStep h
      by_cases hne : b' = b
      · subst hne
        have hy : { x with pc := pc } = y := by simpa [hbodies, hb'] using hb
        subst hy
        exact .inr ⟨x, hb', fun hpc => .inr (hcallback hpc), hstarts, .inl rfl⟩
      · have hy : s.bodies[b]? = some y := by simpa [hbodies, hne] using hb
        exact .inr ⟨y, hy, .inl, id, .inl rfl⟩
  | call op =>
      cases h
      exact .inr ⟨y, hb, .inl, id, .inl rfl⟩
  | callFrom b' op =>
      simp only [step, callFrom] at h
      cases hb' : s.bodies[b']? with
      | none => simp [hb'] at h
      | some x =>
          simp only [hb'] at h
          obtain ⟨⟨hpc, -⟩, ht⟩ := Option.ite_none_right_eq_some.1 h
          cases ht
          by_cases hne : b' = b
          · subst hne
            have hy : { x with call := some s.calls.length } = y := by simpa [hb'] using hb
            subst hy
            exact .inr ⟨x, hb', .inl, id, .inr ⟨hpc, hpc, op, rfl⟩⟩
          · have hy : s.bodies[b]? = some y := by simpa [hne] using hb
            exact .inr ⟨y, hy, .inl, id, .inl rfl⟩
  | caller c =>
      obtain ⟨-, -, -, -, -, hbodies, -⟩ := callStep_effect h
      exact .inr ⟨y, hbodies ▸ hb, .inl, id, .inl rfl⟩

theorem leaves_step {c : CallPtr} {x : Op τ × CallPc τ} (hc : s.calls[c]? = some x)
    (hx : x.2.leaves = true) {e : SchedulerEvent τ} (h : s.step e = some t) :
    ∃ y, t.calls[c]? = some y ∧ y.2.leaves = true := by
  by_cases he : e = .caller c
  · subst he
    obtain ⟨op, pc, pc', hc', hself, hmove⟩ := callStep_move h
    cases hc.symm.trans hc'
    refine ⟨_, hself, ?_⟩
    cases hmove with
    | notified => rfl
    | _ => exact nomatch hx
  · exact ⟨x, call_step hc h he, hx⟩

theorem free_step {x y : Body} (hx : s.free x = true) (hcall : y.call = x.call)
    {e : SchedulerEvent τ} (h : s.step e = some t) : t.free y = true := by
  unfold free at hx ⊢
  rw [hcall]
  cases hc : x.call with
  | none => rfl
  | some c =>
      simp only [hc] at hx
      obtain ⟨z, hz, hleaves⟩ := (Option.any_eq_true _ _).1 hx
      obtain ⟨z', hz', hleaves'⟩ := leaves_step hz hleaves h
      simp only [hz', Option.any_some, hleaves']

/-- A body that a call waits for stays free of calls that need the mutex. -/
theorem Untangled.entangled_step (hs : s.Untangled) {k : TaskPtr}
    (hk : s.entangled k = false) (hw : ∀ i k, s.watcher ≠ .launch i k)
    {e : SchedulerEvent τ} (he : ∀ b op, e = .callFrom b op → (s.tasks k).future ≠ some b)
    (h : s.step e = some t) : t.entangled k = false := by
  refine entangled_eq_false fun b y hfuture hb hy => ?_
  have hfutures := (keeps_step hs.ordered h).future.resolve_right
    fun ⟨i, k, hi⟩ => hw i k hi
  rw [hfutures] at hfuture
  obtain ⟨-, hpc⟩ | ⟨x, hx, hcallback, -, hcall⟩ := bodies_step h hb
  · exact nomatch hpc.symm.trans hy
  · have hcall' : y.call = x.call := by
      rcases hcall with hcall | ⟨-, -, op, rfl⟩
      · exact hcall
      · exact absurd hfuture (he b op rfl)
    refine free_step ?_ hcall' h
    rcases hcallback hy with hpc | hstarts
    · exact not_entangled hk hfuture hx hpc
    · rw [Scheduler.free, hs.fresh x (List.mem_of_getElem? hx) hstarts]

omit [LinearOrder τ] in
/-- While a call has the mutex the watcher launches nothing. -/
theorem not_launch_of_holds (hs : s.Ordered) {c : CallPtr} {op : Op τ} {pc : CallPc τ}
    (hc : s.calls[c]? = some (op, pc)) (hpc : pc.holds = true) (i : Nat) (k : TaskPtr) :
    s.watcher ≠ .launch i k := fun hw => by
  have hm : s.mutex = some .watcher := hs.watcher.2 (by rw [hw]; rfl)
  exact nomatch (free_of_watcher hs hm hc).symm.trans hpc

theorem Untangled.step (hs : s.Untangled) {e : SchedulerEvent τ} (he : s.Careful e)
    (h : s.step e = some t) : t.Untangled := by
  refine ⟨(ordered_step hs.ordered h).1, fun y hy hstarts => ?_, fun y hy k hk => ?_⟩
  · obtain ⟨b, hb⟩ := List.mem_iff_getElem?.1 hy
    obtain ⟨hcall, -⟩ | ⟨x, hx, -, hstart, hcall⟩ := bodies_step h hb
    · exact hcall
    · rcases hcall with hcall | ⟨-, hpc, -⟩
      · rw [hcall]
        exact hs.fresh x (List.mem_of_getElem? hx) (hstart hstarts)
      · exact nomatch hpc ▸ hstarts
  · obtain ⟨c, hc⟩ := List.mem_iff_getElem?.1 hy
    rcases calls_step h hc with ⟨x, hx, rfl | rfl⟩ | ⟨op, rfl⟩
    · -- the call has waited for the body before, and has had the mutex
      obtain ⟨op, pc⟩ := y
      have hholds : pc.holds = true := by cases pc <;> first | rfl | exact nomatch hk
      refine hs.entangled_step (hs.free _ (List.mem_of_getElem? hx) k hk)
        (not_launch_of_holds hs.ordered hx hholds) (fun b op he' hfuture => ?_) h
      subst he'
      have hnot : s.awaited b = false := he
      rw [awaited, List.any_eq_false] at hnot
      have hawaits : pc.awaits = some k := hk
      exact hnot _ (List.mem_of_getElem? hx) (by simp [hawaits, hfuture])
    · obtain ⟨op, pc, pc', hx', hself, hmove⟩ := callStep_move h
      cases hx.symm.trans hx'
      cases hc.symm.trans hself
      obtain ⟨hsets, hvalue⟩ := awaits_of_move hmove hk
      have hholds : pc.holds = true := by cases pc <;> first | rfl | exact nomatch hsets
      refine hs.entangled_step (he _ hx k hsets hvalue)
        (not_launch_of_holds hs.ordered hx hholds) (fun b op hfrom => ?_) h
      exact nomatch hfrom
    · cases op <;> exact nomatch hk

theorem untangled_of_reachable (h : system.ReachableWhile Careful s) : s.Untangled :=
  h.invariant (I := Untangled) (fun _ h => untangled_of_constructed h)
    fun _ e _ hs he hstep => hs.step (e := e) he hstep

omit [LinearOrder τ]

def callDepth (s : Scheduler τ) (c : CallPtr) : Nat := (s.calls[c]?.map (·.2.depth)).getD 0

def bodyDepth (s : Scheduler τ) (x : Body) : Nat :=
  if x.pc = .callback then (x.call.map (s.callDepth · + 1)).getD 0 else 0

/-- How many threads there are behind a thread, each waiting for the next. -/
def depth (s : Scheduler τ) : Waiter → Nat
  | .watcher => s.watcher.depth
  | .caller c => s.callDepth c
  | .body b => (s.bodies[b]?.map s.bodyDepth).getD 0

theorem callDepth_of_call {c : CallPtr} {op : Op τ} {pc : CallPc τ}
    (hc : s.calls[c]? = some (op, pc)) : s.callDepth c = pc.depth := by
  simp [callDepth, hc]

/-- The owner of the mutex waits for a body at most. -/
theorem depth_of_owner (hs : s.Ordered) {th : Thread} (hm : s.mutex = some th) :
    s.depth th.waiter ≤ 2 := by
  cases th with
  | watcher => exact (Watcher.depth_of_holds (hs.watcher.1 hm)).trans (Nat.le_succ 1)
  | caller c =>
      obtain ⟨op, pc, hc, hholds⟩ := (hs.caller c).1 hm
      exact (callDepth_of_call hc).le.trans (CallPc.depth_of_holds hholds)

/-- A body that is free waits for a call that has released the mutex, or for nothing. -/
theorem bodyDepth_of_free {x : Body} (hx : s.free x = true) : s.bodyDepth x ≤ 1 := by
  unfold bodyDepth
  split
  · unfold free at hx
    cases hc : x.call with
    | none => simp
    | some c =>
        simp only [hc] at hx
        obtain ⟨y, hy, hleaves⟩ := (Option.any_eq_true _ _).1 hx
        simp [callDepth, hy, CallPc.depth_of_leaves hleaves]
  · exact Nat.zero_le 1

/-- The body that the watcher waits for has stored its status. -/
theorem bodyDepth_of_watcher (hs : s.Ordered) {i : Nat} {k : TaskPtr} {b : BodyPtr} {x : Body}
    (hw : s.watcher = .futureWait i k) (hfuture : (s.tasks k).future = some b)
    (hb : s.bodies[b]? = some x) : s.bodyDepth x = 0 := by
  refine if_neg fun hpc => ?_
  have hm : s.mutex = some .watcher := hs.watcher.2 (by rw [hw]; rfl)
  have hgrip : (s.life k).grip = some .queued := by
    rw [life, grip_of_watcher hm, hw]
    exact gripOn_some_self k _
  have hlife : (s.life k).pc = .callback := by simp [life, pcOf, hfuture, hb, hpc]
  have hpending := (hs.sane k).pending (by rw [hlife]; rfl)
  cases hpending.symm.trans ((hs.sane k).queued (.inl hgrip))

/-- Each thread has more threads behind it than the one that it waits for. -/
theorem Untangled.depth_lt (hs : s.Untangled) {v w : Waiter} (h : s.WaitsFor v w) :
    s.depth w < s.depth v := by
  cases h with
  | watcherMutex hlocks hm =>
      have howner := depth_of_owner hs.ordered hm
      have hdepth : s.depth .watcher = 3 := (Watcher.depth_of_locks hlocks).1
      omega
  | watcherFuture hw hawaited =>
      have hdepth : s.depth .watcher = 1 := by rw [depth, hw]; rfl
      obtain ⟨x, hx, -⟩ := hs.ordered.launched _ _ hawaited.1
      rw [hdepth, depth, hx]
      exact Nat.lt_one_iff.2 (bodyDepth_of_watcher hs.ordered hw hawaited.1 hx)
  | @callMutex c op pc th hc hlocks hm =>
      have howner := depth_of_owner hs.ordered hm
      have hdepth : s.depth (.caller c) = 3 :=
        (callDepth_of_call hc).trans (CallPc.depth_of_locks hlocks)
      omega
  | @callFuture c op k after b hc hawaited =>
      have hdepth : s.depth (.caller c) = 2 := callDepth_of_call hc
      obtain ⟨x, hx, -⟩ := hs.ordered.launched _ _ hawaited.1
      have hbody : s.depth (.body b) = s.bodyDepth x := by simp [depth, hx]
      have hle : s.bodyDepth x ≤ 1 := by
        by_cases hpc : x.pc = .callback
        · have hnot := hs.free _ (List.mem_of_getElem? hc) k rfl
          exact bodyDepth_of_free (not_entangled hnot hawaited.1 hx hpc)
        · rw [bodyDepth, if_neg hpc]
          exact Nat.zero_le 1
      omega
  | @join c op hc hw =>
      have hdepth : s.depth (.caller c) = 4 := callDepth_of_call hc
      have hle : s.depth .watcher ≤ 3 := s.watcher.depth_le
      omega
  | @callback b x c hb hpc hcall hnot =>
      have hbody : s.depth (.body b) = s.callDepth c + 1 := by
        simp [depth, hb, bodyDepth, hpc, hcall]
      rw [hbody]
      exact Nat.lt_succ_self _

/-- Nobody waits in a circle, if no call begins to wait for a body whose callback is at a
call that still needs the mutex, and no callback calls the scheduler while a call waits for
its body. -/
theorem no_circularWait_of_careful [LinearOrder τ] (hs : system.ReachableWhile Careful s) :
    ¬ s.CircularWait := by
  rintro ⟨w, hw⟩
  have hlt : ∀ {v w}, Relation.TransGen s.WaitsFor v w → s.depth w < s.depth v := fun h => by
    induction h with
    | single h => exact (untangled_of_reachable hs).depth_lt h
    | tail _ h ih => exact ((untangled_of_reachable hs).depth_lt h).trans ih
  exact (hlt hw).false

/-- A callback stops its own task. -/
def selfRun : List (SchedulerEvent Nat) :=
  launchRun ++ watcherSteps 5 ++ bodySteps 0 2 ++ .callFrom 0 (.stopTask 0) :: callerSteps 1 4

/-- A callback schedules a task while another thread stops its own. -/
def crossRun : List (SchedulerEvent Nat) :=
  launchRun ++ watcherSteps 5 ++ bodySteps 0 2 ++ .call (.stopTask 0) :: callerSteps 1 4 ++
    [.callFrom 0 (.schedule 1)]

theorem awaitedAs_of_view {s : Scheduler Nat} {call : Option CallPtr}
    (hbodies : s.bodies = [⟨0, .callback, call⟩]) (hfuture : (s.tasks 0).future = some 0) :
    s.AwaitedAs 0 0 := by
  refine ⟨hfuture, ?_⟩
  simp [ready, hfuture, hbodies]

/-- A callback waits for itself, and a callback and the thread that stops its task wait for
each other. -/
theorem selfRun_circularWait :
    (∃ s, system.exec repeating selfRun = some s ∧ s.CircularWait) ∧
      ∃ s, system.exec repeating crossRun = some s ∧ s.CircularWait := by
  constructor
  · have hview : (system.exec repeating selfRun).map
        (fun s => ((s.bodies, (s.tasks 0).future), s.calls[1]?)) =
        some (([⟨0, .callback, some 1⟩], some 0),
          some (.stopTask 0, .futureWait 0 (.erase 0))) := by
      decide +kernel
    obtain ⟨s, hs, hview⟩ := Option.map_eq_some_iff.1 hview
    obtain ⟨hbody, hc⟩ := Prod.mk.inj hview
    obtain ⟨hbodies, hfuture⟩ := Prod.mk.inj hbody
    have hcall : s.WaitsFor (.caller 1) (.body 0) :=
      .callFuture hc (awaitedAs_of_view hbodies hfuture)
    have hcallback : s.WaitsFor (.body 0) (.caller 1) :=
      .callback (x := ⟨0, .callback, some 1⟩) (by rw [hbodies]; rfl) rfl rfl
        (by simp only [returned, hc])
    exact ⟨s, hs, _, .tail (.single hcall) hcallback⟩
  · have hview : (system.exec repeating crossRun).map
        (fun s => ((s.bodies, (s.tasks 0).future), s.mutex)) =
        some (([⟨0, .callback, some 2⟩], some 0), some (.caller 1)) := by
      decide +kernel
    have hcalls : (system.exec repeating crossRun).map (fun s => (s.calls[1]?, s.calls[2]?)) =
        some (some (.stopTask 0, .futureWait 0 (.erase 0)),
          some (.schedule 1, .scheduleLock 1)) := by
      decide +kernel
    obtain ⟨s, hs, hview⟩ := Option.map_eq_some_iff.1 hview
    rw [hs] at hcalls
    obtain ⟨hbody, hm⟩ := Prod.mk.inj hview
    obtain ⟨hbodies, hfuture⟩ := Prod.mk.inj hbody
    obtain ⟨hc, hc'⟩ := Prod.mk.inj (Option.some.inj hcalls)
    have hcall : s.WaitsFor (.caller 1) (.body 0) :=
      .callFuture hc (awaitedAs_of_view hbodies hfuture)
    have hcallback : s.WaitsFor (.body 0) (.caller 2) :=
      .callback (x := ⟨0, .callback, some 2⟩) (by rw [hbodies]; rfl) rfl rfl
        (by simp only [returned, hc'])
    have hlock : s.WaitsFor (.caller 2) (.caller 1) := .callMutex hc' rfl hm
    exact ⟨s, hs, _, .tail (.tail (.single hcall) hcallback) hlock⟩

/-- A callback has scheduled a task, and then another thread stops its own. -/
def carefulRun : List (SchedulerEvent Nat) :=
  launchRun ++ watcherSteps 5 ++ bodySteps 0 2 ++ .callFrom 0 (.schedule 1) :: callerSteps 1 4 ++
    .call (.stopTask 0) :: callerSteps 2 4

theorem carefulRun_no_circularWait :
    ∃ s, system.execWhile Careful repeating carefulRun = some s ∧
      s.calls[2]? = some (.stopTask 0, .futureWait 0 (.erase 0)) ∧ ¬ s.CircularWait := by
  have hview : (system.execWhile Careful repeating carefulRun).map (fun s => s.calls[2]?) =
      some (some (.stopTask 0, .futureWait 0 (.erase 0))) := by
    decide +kernel
  obtain ⟨s, hs, hc⟩ := Option.map_eq_some_iff.1 hview
  exact ⟨s, hs, hc, no_circularWait_of_careful
    ((Transition.System.ReachableWhile.init constructed_repeating).execWhile hs)⟩

end Scheduler

end Scheduling
