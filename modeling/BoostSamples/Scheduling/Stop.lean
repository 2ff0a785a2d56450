import BoostSamples.Scheduling.StopTask

/-!
# Stopping the scheduler

When `Stop` has emptied the list no body is active, since it has stopped every task of the
list with the mutex held. It releases the mutex before the watcher has ended, and a
watcher that has passed its running check scans the list once more: a task that has been
scheduled in between is launched. And a `Stop` that finds the flag cleared returns at once,
whether the one that has cleared it has stopped any task or not. But for these two the
callbacks have ended when `Stop` returns.
-/

namespace Scheduling

def CallPc.cleared {τ : Type*} : CallPc τ → Bool
  | .stopUnlock | .stopNotify | .stopJoin => true
  | .done normal => normal
  | _ => false

theorem After.cleared_pc {τ : Type*} (after : After τ) : after.pc.cleared = false := by
  rcases after with type | (_ | ⟨k, rest⟩) <;> rfl

namespace Scheduler

variable {τ : Type*} {s t : Scheduler τ} {k : TaskPtr}

def Cleared (s : Scheduler τ) : Prop := ∃ e ∈ s.calls, e.1 = .stop ∧ e.2.cleared = true

def launches (s : Scheduler τ) : Bool :=
  match s.watcher with
  | .scan i => s.taskList[i]?.any fun e => (s.tasks e.2).status = .queuedUp
  | _ => false

/-- A call of `Stop` finds the flag cleared and returns. -/
def turnedAway (s : Scheduler τ) (c : CallPtr) : Bool :=
  s.calls[c]?.any fun e => !s.isRunning && match e.2 with | .stopRead => true | _ => false

/-- The watcher launches no task once a `Stop` has emptied the list, and no `Stop` finds the
flag cleared before. -/
def InTime (s : Scheduler τ) : SchedulerEvent τ → Prop
  | .watcher => s.launches = true → ¬ s.Cleared
  | .caller c => s.turnedAway c = true → s.Cleared
  | _ => True

instance [DecidableEq τ] (s : Scheduler τ) : Decidable s.Cleared :=
  inferInstanceAs (Decidable (∃ e ∈ s.calls, _))

instance [DecidableEq τ] (s : Scheduler τ) : (e : SchedulerEvent τ) → Decidable (s.InTime e)
  | .watcher => inferInstanceAs (Decidable (s.launches = true → _))
  | .caller c => inferInstanceAs (Decidable (s.turnedAway c = true → _))
  | .wakeUp | .body _ _ | .call _ | .callFrom _ _ => .isTrue trivial

/-- Once a `Stop` has emptied the list no body is active, and the watcher is not about to
launch one. -/
structure Ended (s : Scheduler τ) : Prop where
  listed : s.Listed
  inactive : s.Cleared → ∀ k, ¬ s.Active k
  idle : s.Cleared → s.watcher.grip = none

theorem ended_of_constructed (h : s.Constructed) : s.Ended where
  listed := listed_of_constructed h
  inactive := by simp [Cleared, h.calls]
  idle := by simp [Cleared, h.calls]

theorem cleared_congr (h : t.calls = s.calls) : t.Cleared ↔ s.Cleared := by
  rw [Cleared, h, Cleared]

theorem cleared_of_call {op : Op τ} (h : (s.call op).Cleared) : s.Cleared := by
  obtain ⟨e, he, hop, hpc⟩ := h
  rcases List.mem_append.1 he with he | he
  · exact ⟨e, he, hop, hpc⟩
  · rw [List.mem_singleton] at he
    subst he
    cases op <;> exact nomatch hpc

/-- A watcher that has turned to no task turns to the one it finds to launch, if any. -/
theorem grip_watcherStep (hgrip : s.watcher.grip = none) (hlaunches : s.launches = false)
    (h : s.watcherStep = some t) : t.watcher.grip = none := by
  unfold watcherStep at h
  unfold launches at hlaunches
  cases hw : s.watcher with
  | scan i =>
      simp only [hw] at h hlaunches
      cases hi : s.taskList[i]? with
      | none =>
          simp only [hi] at h
          cases h
          rfl
      | some e =>
          have hstatus : (s.tasks e.2).status ≠ .queuedUp := by simpa [hi] using hlaunches
          simp only [hi, if_neg hstatus] at h
          cases h
          rfl
  | lock =>
      simp only [hw] at h
      obtain ⟨-, ht⟩ := Option.ite_none_right_eq_some.1 h
      cases ht
      rfl
  | relock =>
      simp only [hw] at h
      obtain ⟨-, ht⟩ := Option.ite_none_right_eq_some.1 h
      cases ht
      rfl
  | futureWait i k => exact nomatch hw ▸ hgrip
  | store i k => exact nomatch hw ▸ hgrip
  | launch i k => exact nomatch hw ▸ hgrip
  | loop =>
      simp only [hw] at h
      cases h
      split <;> rfl
  | test =>
      simp only [hw] at h
      cases h
      split <;> rfl
  | count i n =>
      simp only [hw] at h
      split at h <;> cases h
      · split <;> rfl
      · rfl
  | scanStopped i k =>
      simp only [hw] at h
      split at h <;> cases h <;> rfl
  | blocked =>
      simp only [hw] at h
      exact nomatch h
  | done =>
      simp only [hw] at h
      exact nomatch h
  | _ =>
      simp only [hw] at h
      cases h
      rfl

theorem grip_of_woken (hw : t.watcher = s.watcher ∨ t.watcher = s.notifyAll.watcher) :
    t.watcher.grip = s.watcher.grip := by
  obtain ⟨-, -, -, -, -, -, -, hgrip, -⟩ := s.notifyAll_fields
  rcases hw with hw | hw
  · rw [hw]
  · rw [hw, hgrip]

/-- A step after which, once the list has been emptied, all is as it was. -/
theorem Ended.of_same (hs : s.Ended) (ht : t.Listed) (hlives : Lives s t)
    (hcleared : t.Cleared → s.Cleared)
    (hgrip : t.Cleared → s.watcher.grip = none → t.watcher.grip = none) : t.Ended where
  listed := ht
  inactive hc k hk := by
    have hidle := hs.idle (hcleared hc)
    refine hs.inactive (hcleared hc) k (hlives.active hs.listed.ordered ht.ordered ?_ hk)
    intro i hi
    exact nomatch hidle.symm.trans (congrArg Watcher.grip hi)
  idle hc := hgrip hc (hs.idle (hcleared hc))

/-- A `Stop` that has emptied the list had done so before, or does so now, or it finds the
flag cleared. -/
theorem cleared_of_move {c : CallPtr} {pc pc' : CallPc τ}
    (hc : s.calls[c]? = some (.stop, pc)) (hof : pc.Of .stop) (h : CallMove s pc pc')
    (hcleared : pc'.cleared = true) :
    pc.cleared = true ∨ pc = .stopClear ∨ s.turnedAway c = true := by
  cases h with
  | away hrunning => exact .inr (.inr (by simp [turnedAway, hc, hrunning]))
  | cleared => exact .inr (.inl rfl)
  | stopUnlock => exact .inl rfl
  | stopNotify => exact .inl rfl
  | joined => exact .inl rfl
  | notified => exact absurd rfl hof
  | returned normal => exact absurd rfl (hof hcleared)
  | stopLoop ks => exact nomatch (After.cleared_pc _).symm.trans hcleared
  | marked k after => exact nomatch after.cleared_pc.symm.trans hcleared
  | waited k after => exact nomatch after.cleared_pc.symm.trans hcleared
  | _ => exact nomatch hcleared

variable [LinearOrder τ]

theorem Ended.callStep (hs : s.Ended) {c : CallPtr} (hin : s.InTime (.caller c))
    (h : s.callStep c = some t) : t.Ended := by
  have ht : t.Listed := hs.listed.callStep h
  have hlives : Lives s t := (ordered_callStep hs.listed.ordered h).2
  obtain ⟨op₁, pc₁, pc₁', -, -, -, heffect⟩ := callStep_effect h
  have hwatcher : t.watcher = s.watcher ∨ t.watcher = s.notifyAll.watcher := heffect.watcher
  obtain ⟨op, pc, pc', hc, hself, hmove⟩ := callStep_move h
  have hcleared : t.Cleared → s.Cleared ∨ op = .stop ∧ pc = .stopClear := by
    rintro ⟨e, he, hop, hpc⟩
    obtain ⟨c', hc'⟩ := List.mem_iff_getElem?.1 he
    rcases calls_step (e := .caller c) h hc' with ⟨x, hx, rfl | hcc'⟩ | ⟨op', rfl⟩
    · exact .inl ⟨e, List.mem_of_getElem? hx, hop, hpc⟩
    · cases hcc'
      cases hself.symm.trans hc'
      cases hop
      have hof := hs.listed.of _ (List.mem_of_getElem? hc)
      rcases cleared_of_move hc hof hmove hpc with hold | rfl | haway
      · exact .inl ⟨_, List.mem_of_getElem? hc, rfl, hold⟩
      · exact .inr ⟨rfl, rfl⟩
      · exact .inl (hin haway)
    · cases op' <;> cases hpc
  by_cases hclear : pc = .stopClear
  · subst hclear
    -- the list has no active tasks, and the others are none
    have hinactive : ∀ k, ¬ s.Active k := fun k hk => by
      obtain ⟨type, he⟩ := hs.listed.active k hk
      exact absurd (hs.listed.known _ (List.mem_of_getElem? hc) _ he hk) List.not_mem_nil
    have hm : s.mutex = some (.caller c) :=
      (hs.listed.ordered.caller c).2 ((owns_self hc).2 rfl)
    have hgrip : s.watcher.grip = none := by
      cases hg : s.watcher.grip with
      | none => rfl
      | some g =>
          have hholds : s.watcher.holds = true := by
            cases hw : s.watcher <;> simp_all [Watcher.grip, Watcher.holds]
          cases hm.symm.trans (hs.listed.ordered.watcher.2 hholds)
    refine ⟨ht, fun _ k hk => hinactive k ?_, fun _ => (grip_of_woken hwatcher).trans hgrip⟩
    exact hlives.active hs.listed.ordered ht.ordered
      (fun i hi => by cases hgrip.symm.trans (congrArg Watcher.grip hi)) hk
  · exact hs.of_same ht hlives (fun hc => (hcleared hc).resolve_right fun h => hclear h.2)
      fun _ hgrip => (grip_of_woken hwatcher).trans hgrip

theorem Ended.step (hs : s.Ended) {e : SchedulerEvent τ} (hin : s.InTime e)
    (h : s.step e = some t) : t.Ended := by
  have ht : t.Listed := hs.listed.step h
  have hlives : Lives s t := (ordered_step hs.listed.ordered h).2
  cases e with
  | watcher =>
      have hcleared := cleared_congr (watcherStep_keeps h).2.1
      refine hs.of_same ht hlives hcleared.1 fun hc hgrip => grip_watcherStep hgrip ?_ h
      cases hlaunches : s.launches with
      | false => rfl
      | true => exact absurd (hcleared.1 hc) (hin hlaunches)
  | wakeUp =>
      obtain ⟨-, htl⟩ := Option.ite_none_right_eq_some.1 h
      cases htl
      exact hs.of_same ht hlives id fun _ _ => rfl
  | body b outcome =>
      obtain ⟨x, -, -, hcalls, -, -, heffect⟩ := bodyStep_effect h
      have hwatcher : t.watcher = s.watcher ∨ t.watcher = s.notifyAll.watcher :=
        heffect.elim (fun h => .inr h.2) (fun h => .inl h.2)
      exact hs.of_same ht hlives (cleared_congr hcalls).1 fun _ => (grip_of_woken hwatcher).trans
  | call op =>
      cases h
      exact hs.of_same ht hlives cleared_of_call fun _ h => h
  | callFrom b op =>
      simp only [Scheduler.step, callFrom] at h
      cases hb : s.bodies[b]? with
      | none => simp [hb] at h
      | some x =>
          simp only [hb] at h
          obtain ⟨-, htl⟩ := Option.ite_none_right_eq_some.1 h
          cases htl
          exact hs.of_same ht hlives cleared_of_call fun _ h => h
  | caller c => exact hs.callStep hin h

theorem ended_of_reachable (h : system.ReachableWhile InTime s) : s.Ended :=
  h.invariant (I := Ended) (fun _ h => ended_of_constructed h)
    fun _ e _ hs hin hstep => hs.step (e := e) hin hstep

theorem done_of_execWhile {P : Scheduler τ → SchedulerEvent τ → Prop} [∀ s e, Decidable (P s e)]
    {c : CallPtr} {op : Op τ} {normal : Bool} (hc : s.calls[c]? = some (op, .done normal))
    {es : List (SchedulerEvent τ)} (hes : system.execWhile P s es = some t) :
    t.calls[c]? = some (op, .done normal) := by
  induction es generalizing s with
  | nil =>
      cases hes
      exact hc
  | cons e es ih =>
      obtain ⟨-, hes⟩ := Option.ite_none_right_eq_some.1 hes
      obtain ⟨u, hu, hrest⟩ := Option.bind_eq_some_iff.1 hes
      refine ih (call_step hc hu ?_) hrest
      rintro rfl
      simp [system, Scheduler.step, callStep, hc] at hu

/-- Once `Stop` has returned normally no callback runs, and none is started later: if the
watcher launches no task after a `Stop` has emptied the list, and no `Stop` finds the flag
cleared before that. -/
theorem stop_final (c : CallPtr) (hs : system.ReachableWhile InTime s)
    (hc : s.calls[c]? = some (.stop, .done true)) {es : List (SchedulerEvent τ)}
    (hes : system.execWhile InTime s es = some t) : ∀ x ∈ t.bodies, x.pc ≠ .callback := by
  have ht := ended_of_reachable (hs.execWhile hes)
  have hcleared : t.Cleared :=
    ⟨_, List.mem_of_getElem? (done_of_execWhile hc hes), rfl, rfl⟩
  intro x hx
  have hnot : ¬ t.Active x.task := ht.inactive hcleared x.task
  intro hpc
  obtain ⟨b, hb⟩ := List.mem_iff_getElem?.1 hx
  refine hnot ?_
  have hof : t.pcOf x.task = .callback :=
    (pcOf_of_body ht.listed.ordered hb (by rw [hpc]; nofun)).trans hpc
  simp [Active, Life.active, life, hof, Life.storing]

/-- The watcher has passed its check when `Stop` empties the list; a task is scheduled
before the watcher has the mutex, and its callback begins after `Stop` has returned. -/
def lateRun : List (SchedulerEvent Nat) :=
  .watcher :: .call .stop :: callerSteps 0 7 ++ .call (.schedule 0) :: callerSteps 1 4 ++
    watcherSteps 9 ++ callerSteps 0 1 ++ bodySteps 0 2

/-- A second `Stop` returns while the first one waits for the mutex and a callback runs. -/
def secondRun : List (SchedulerEvent Nat) :=
  launchRun ++ bodySteps 0 2 ++ .call .stop :: callerSteps 1 2 ++ .call .stop :: callerSteps 2 1

theorem lateRun_not_final :
    (∃ t, system.exec repeating lateRun = some t ∧ t.calls[0]? = some (.stop, .done true) ∧
      t.bodies = [⟨0, .callback, none⟩]) ∧
    ∃ t, system.exec repeating secondRun = some t ∧ t.calls[2]? = some (.stop, .done true) ∧
      t.bodies = [⟨0, .callback, none⟩] := by
  have hlate : (system.exec repeating lateRun).map (fun s => (s.calls[0]?, s.bodies)) =
      some (some (.stop, .done true), [⟨0, .callback, none⟩]) := by
    decide +kernel
  have hsecond : (system.exec repeating secondRun).map (fun s => (s.calls[2]?, s.bodies)) =
      some (some (.stop, .done true), [⟨0, .callback, none⟩]) := by
    decide +kernel
  obtain ⟨t, ht, hview⟩ := Option.map_eq_some_iff.1 hlate
  obtain ⟨u, hu, huview⟩ := Option.map_eq_some_iff.1 hsecond
  exact ⟨⟨t, ht, (Prod.mk.inj hview).1, (Prod.mk.inj hview).2⟩,
    ⟨u, hu, (Prod.mk.inj huview).1, (Prod.mk.inj huview).2⟩⟩

/-- `Stop` cancels a callback's task while it runs, and waits for it. -/
def stoppedRun : List (SchedulerEvent Nat) :=
  launchRun ++ watcherSteps 5 ++ bodySteps 0 2 ++ .call .stop :: callerSteps 1 6 ++
    bodySteps 0 4 ++ callerSteps 1 4 ++ watcherSteps 4 ++ callerSteps 1 1

theorem stoppedRun_final :
    ∃ s t, system.execWhile InTime repeating stoppedRun = some s ∧
      s.calls[1]? = some (.stop, .done true) ∧
      system.execWhile InTime s (.call (.schedule 1) :: callerSteps 2 4) = some t ∧
      ∀ x ∈ t.bodies, x.pc ≠ .callback := by
  have hstop : (system.execWhile InTime repeating stoppedRun).map (fun s => s.calls[1]?) =
      some (some (.stop, .done true)) := by
    decide +kernel
  have hrest : ((system.execWhile InTime repeating stoppedRun).bind fun s =>
      system.execWhile InTime s (.call (.schedule 1) :: callerSteps 2 4)).isSome := by
    decide +kernel
  obtain ⟨s, hs, hc⟩ := Option.map_eq_some_iff.1 hstop
  rw [hs] at hrest
  obtain ⟨t, ht⟩ := Option.isSome_iff_exists.1 hrest
  exact ⟨s, t, hs, hc, ht, stop_final 1
    ((Transition.System.ReachableWhile.init constructed_repeating).execWhile hs) hc ht⟩

end Scheduler

end Scheduling
