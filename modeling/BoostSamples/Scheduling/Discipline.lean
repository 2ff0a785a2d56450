import BoostSamples.Scheduling.Stop

/-!
# The discipline of execution

What has been done so far is recorded: the tasks that have been entered into the list, the
callbacks that have been invoked and those that have thrown. A task whose callback has
thrown is stopped, or pending for good, and so is a task that does not repeat once its
callback has been invoked; the watcher launches neither.
-/

namespace Scheduling

inductive Deed
  | scheduled (k : TaskPtr)
  | invoked (k : TaskPtr)
  | threw (k : TaskPtr)
  deriving DecidableEq, Repr

namespace Life

/-- The task is not launched any more: it is stopped, or its callback has left its body and
it is pending for good. -/
def Over (l : Life) : Prop :=
  l.status = .stopped ∨ l.status = .pending ∧ l.pc = .done ∧ l.grip ≠ some .launch

def Failed (l : Life) : Prop := l.pc = .storeFailed ∨ l.Over

/-- The callback has been invoked by the last body, or will not be. -/
def Spent (l : Life) : Prop := called l.pc = true ∨ l.Over

theorem Step.over {l m : Life} (h : Step l m) (hl : l.Sane) (ho : l.Over) : m.Over := by
  have hpending := hl.pending
  have hqueued := hl.queued
  have hmark := hl.mark
  have hidle := hl.idle
  unfold Life.Over at ho ⊢
  cases h <;> simp_all [Life.storing]

theorem Step.failed {l m : Life} (h : Step l m) (hl : l.Sane) (hf : l.Failed) : m.Failed := by
  rcases hf with hf | ho
  · have hidle := hl.idle
    unfold Life.Failed Life.Over
    cases h <;> simp_all
  · exact .inr (h.over hl ho)

/-- A callback that has been invoked is not invoked again, unless the task is queued up. -/
theorem Step.spent {l m : Life} (h : Step l m) (hl : l.Sane) (hs : l.Spent) :
    m.Spent ∨ l.status = .pending ∧ m.status = .queuedUp := by
  rcases hs with hs | ho
  · have hpending := hl.pending
    have hidle := hl.idle
    have hmark := hl.mark
    unfold Life.Spent Life.Over
    cases h with
    | @storeDone status hpc hne =>
        cases status <;> simp_all [Life.called, Life.storing]
    | _ => simp_all [Life.called, Life.storing]
  · exact .inl (.inr (h.over hl ho))

theorem Sane.not_over {l : Life} (hl : l.Sane) (hpc : l.pc = .waitFor) : ¬ l.Over := by
  have hpending := hl.pending
  unfold Over
  simp_all [Life.storing]

theorem Step.failed_of_callback {l m : Life} (h : Step l m) (hl : l.Sane)
    (hpc : l.pc = .callback) (hm : m.pc = .storeFailed ∨ m.pc = .done) : m.Failed := by
  have hpending := hl.pending
  have hidle := hl.idle
  unfold Life.Failed Life.Over
  cases h <;> simp_all [Life.storing]

end Life

namespace Scheduler

variable {τ : Type*} [LinearOrder τ] {s t : Scheduler τ} {k : TaskPtr}

def observe (s : Scheduler τ) : SchedulerEvent τ → Option Deed
  | .body b outcome =>
      s.bodies[b]?.bind fun x =>
        match x.pc with
        | .waitFor =>
            if (s.tasks x.task).promise.value.isSome then none else some (.invoked x.task)
        | .callback => if outcome = .returned then none else some (.threw x.task)
        | _ => none
  | .caller c =>
      s.calls[c]?.bind fun e =>
        match e.2 with
        | .scheduleEmplace k =>
            if (emplace s.taskList (s.tasks k).type k).isSome then some (.scheduled k) else none
        | _ => none
  | _ => none

def recorded : Transition.System (Scheduler τ × List Deed) (SchedulerEvent τ) :=
  system.recording observe

theorem observe_of_schedules {e : SchedulerEvent τ} (h : s.Schedules k e) :
    s.observe e = some (.scheduled k) := by
  cases e with
  | caller c =>
      obtain ⟨x, hx, hpc, hsome⟩ := h
      have hc : s.calls[c]? = some x := hx
      simp [observe, hc, hpc, hsome]
  | _ => exact h.elim

omit [LinearOrder τ] in
theorem pcOf_setBody (hs : s.Ordered) {b : BodyPtr} {x : Body} (hb : s.bodies[b]? = some x)
    (hx : x.pc ≠ .done) (pc : BodyPc) : (s.setBody b pc).pcOf x.task = pc := by
  have hfuture : (s.tasks x.task).future = some b := hs.current b x hb hx
  simp [pcOf, setBody, hfuture, hb]

theorem step_of_observe (hs : s.Ordered) {e : SchedulerEvent τ} {d : Deed}
    (hd : s.observe e = some d) (h : s.step e = some t) :
    match d with
    | .scheduled _ => True
    | .invoked k => (s.life k).pc = .waitFor ∧ (t.life k).pc = .callback
    | .threw k => (s.life k).pc = .callback ∧
        ((t.life k).pc = .storeFailed ∨ (t.life k).pc = .done) := by
  cases e with
  | body b outcome =>
      simp only [observe] at hd
      simp only [step, bodyStep] at h
      cases hb : s.bodies[b]? with
      | none => simp [hb] at h
      | some x =>
          simp only [hb, Option.bind_some] at hd h
          cases hx : x.pc with
          | waitFor =>
              simp only [hx] at hd h
              obtain ⟨hvalue, hd⟩ := Option.ite_none_left_eq_some.1 hd
              cases hd
              have hne : x.pc ≠ .done := by simp [hx]
              rw [if_neg hvalue] at h
              cases h
              exact ⟨(pcOf_of_body hs hb hne).trans hx, pcOf_setBody hs hb hne _⟩
          | callback =>
              simp only [hx] at hd h
              obtain ⟨houtcome, hd⟩ := Option.ite_none_left_eq_some.1 hd
              cases hd
              have hne : x.pc ≠ .done := by simp [hx]
              obtain ⟨-, ht⟩ := Option.ite_none_right_eq_some.1 h
              cases ht
              refine ⟨(pcOf_of_body hs hb hne).trans hx, ?_⟩
              have hpc : (s.setBody b outcome.pc).pcOf x.task = outcome.pc :=
                pcOf_setBody hs hb hne _
              cases outcome with
              | returned => exact absurd rfl houtcome
              | threw => exact .inl hpc
              | escaped => exact .inr hpc
          | _ =>
              simp only [hx] at hd
              cases hd
  | caller c =>
      simp only [observe] at hd
      cases hc : s.calls[c]? with
      | none => simp [hc] at hd
      | some x =>
          simp only [hc, Option.bind_some] at hd
          split at hd
          · obtain ⟨-, hd⟩ := Option.ite_none_right_eq_some.1 hd
            cases hd
            trivial
          · cases hd
  | _ => cases hd

structure Told (s : Scheduler τ) (log : List Deed) : Prop where
  listed : s.Listed
  scheduled : ∀ k, s.InList k ∨ .invoked k ∈ log → .scheduled k ∈ log
  failed : ∀ k, .threw k ∈ log → (s.life k).Failed
  spent : ∀ k, (s.tasks k).repeat_ = false → .invoked k ∈ log → (s.life k).Spent
  once : ∀ k, (s.tasks k).repeat_ = false → log.count (.invoked k) ≤ 1
  order : ∀ k before after, log = before ++ .threw k :: after → .invoked k ∉ after

omit [LinearOrder τ] in
theorem told_of_constructed (h : s.Constructed) : s.Told [] where
  listed := listed_of_constructed h
  scheduled k hk := by simp [InList, h.taskList] at hk
  failed := nofun
  spent := nofun
  once := by simp
  order k before after h := by simp at h

omit [LinearOrder τ] in
/-- A callback that is invoked had not thrown, and if its task does not repeat it had not
been invoked. -/
theorem Told.invoked {log : List Deed} (hs : s.Told log) (hpc : (s.life k).pc = .waitFor) :
    s.InList k ∧ .threw k ∉ log ∧ ((s.tasks k).repeat_ = false → .invoked k ∉ log) := by
  have hsane := hs.listed.ordered.sane k
  refine ⟨hs.listed.active k ?_, fun hmem => ?_, fun hrepeat hmem => ?_⟩
  · simp [Active, Life.active, hpc, Life.storing]
  · rcases hs.failed k hmem with hfailed | hover
    · cases hpc.symm.trans hfailed
    · exact hsane.not_over hpc hover
  · rcases hs.spent k hrepeat hmem with hcalled | hover
    · rw [hpc] at hcalled
      cases hcalled
    · exact hsane.not_over hpc hover

theorem Told.stays {log : List Deed} (hs : s.Told log) {e : SchedulerEvent τ}
    (h : s.step e = some t) (k : TaskPtr) :
    ((s.life k).Failed → (t.life k).Failed) ∧
      ((s.tasks k).repeat_ = false → (s.life k).Spent → (t.life k).Spent) := by
  have hsane := hs.listed.ordered.sane k
  rcases (ordered_step hs.listed.ordered h).2 k with heq | hstep
  · rw [heq]
    exact ⟨id, fun _ => id⟩
  · refine ⟨hstep.failed hsane, fun hrepeat hspent => ?_⟩
    refine (hstep.spent hsane hspent).resolve_right fun ⟨hpending, hqueued⟩ => ?_
    rcases (keeps_step hs.listed.ordered h).queued k hqueued with hold | hrepeats
    · exact nomatch hpending.symm.trans hold
    · exact nomatch hrepeat.symm.trans hrepeats

theorem Told.step {log : List Deed} (hs : s.Told log) {e : SchedulerEvent τ}
    (h : s.step e = some t) : t.Told (log ++ (s.observe e).toList) := by
  have hordered := hs.listed.ordered
  have hmem : ∀ d, d ∈ log ++ (s.observe e).toList ↔ d ∈ log ∨ s.observe e = some d := fun d => by
    rw [List.mem_append, Option.mem_toList]
  have hrepeat : ∀ k, (t.tasks k).repeat_ = (s.tasks k).repeat_ := fun k =>
    congrArg Prod.snd ((keeps_step hordered h).fixed k)
  have hinvoked : ∀ k, s.observe e = some (.invoked k) →
      (s.life k).pc = .waitFor ∧ (t.life k).pc = .callback :=
    fun k hk => step_of_observe hordered hk h
  refine ⟨hs.listed.step h, fun k hk => ?_, fun k hk => ?_, fun k hr hk => ?_, fun k hr => ?_,
    fun k before after hlog hk => ?_⟩
  · rcases hk with hk | hk
    · rcases inList_step h hk with hk | hk
      · exact (hmem _).2 (.inl (hs.scheduled k (.inl hk)))
      · exact (hmem _).2 (.inr (observe_of_schedules hk))
    · refine (hmem _).2 (.inl (hs.scheduled k ?_))
      rcases (hmem _).1 hk with hk | hk
      · exact .inr hk
      · exact .inl (hs.invoked (hinvoked k hk).1).1
  · rcases (hmem _).1 hk with hk | hk
    · exact (hs.stays h k).1 (hs.failed k hk)
    · obtain ⟨hpc, hpc'⟩ := step_of_observe hordered hk h
      rcases (ordered_step hordered h).2 k with heq | hstep
      · rw [heq, hpc] at hpc'
        exact hpc'.elim nofun nofun
      · exact hstep.failed_of_callback (hordered.sane k) hpc hpc'
  · rcases (hmem _).1 hk with hk | hk
    · have hr' : (s.tasks k).repeat_ = false := (hrepeat k).symm.trans hr
      exact (hs.stays h k).2 hr' (hs.spent k hr' hk)
    · refine .inl ?_
      rw [(hinvoked k hk).2]
      rfl
  · have hr' : (s.tasks k).repeat_ = false := (hrepeat k).symm.trans hr
    rw [List.count_append]
    by_cases hk : s.observe e = some (.invoked k)
    · have hnot := (hs.invoked (hinvoked k hk).1).2.2 hr'
      rw [List.count_eq_zero_of_not_mem hnot, hk]
      simp
    · have hnot : Deed.invoked k ∉ (s.observe e).toList := by simpa using hk
      rw [List.count_eq_zero_of_not_mem hnot]
      exact hs.once k hr'
  · cases hobserve : s.observe e with
    | none =>
        rw [hobserve, Option.toList_none, List.append_nil] at hlog
        exact hs.order k before after hlog hk
    | some d =>
        rw [hobserve, Option.toList_some] at hlog
        rcases List.eq_nil_or_concat after with rfl | ⟨after, d', rfl⟩
        · exact absurd hk List.not_mem_nil
        · -- what comes last in the record is what is recorded now
          rw [List.concat_eq_append, ← List.cons_append, ← List.append_assoc] at hlog
          obtain ⟨hlast, hd⟩ := List.append_inj' hlog rfl
          cases hd
          rw [List.concat_eq_append, List.mem_append, List.mem_singleton] at hk
          rcases hk with hk | rfl
          · exact hs.order k before after hlast hk
          · have hthrew : .threw k ∈ log := by simp [hlast]
            exact (hs.invoked (hinvoked k hobserve).1).2.1 hthrew

theorem told_of_reachable {x : Scheduler τ × List Deed} (h : recorded.Reachable x) :
    x.1.Told x.2 :=
  h.recorded (fun _ h => told_of_constructed h) fun _ _ e _ hs hstep => hs.step (e := e) hstep

/-- The discipline of execution: a task has one body at most that is not done; its callback
runs once at a time; a task that does not repeat has its callback invoked at most once, and
not without having been scheduled; and a callback that has thrown is not invoked again. -/
structure Disciplined (s : Scheduler τ) (log : List Deed) : Prop where
  single : ∀ (b b' : BodyPtr) (x y : Body), s.bodies[b]? = some x → s.bodies[b']? = some y →
    x.task = y.task → x.pc ≠ .done → y.pc ≠ .done → b = b'
  apart : ∀ (b b' : BodyPtr) (x y : Body), s.bodies[b]? = some x → s.bodies[b']? = some y →
    x.task = y.task → x.pc = .callback → y.pc = .callback → b = b'
  once : ∀ k, (s.tasks k).repeat_ = false →
    log.count (.invoked k) ≤ min 1 (log.count (.scheduled k))
  thrown : ∀ k before after, log = before ++ .threw k :: after → .invoked k ∉ after

omit [LinearOrder τ] in
theorem Ordered.single (hs : s.Ordered) {b b' : BodyPtr} {x y : Body}
    (hb : s.bodies[b]? = some x) (hb' : s.bodies[b']? = some y) (htask : x.task = y.task)
    (hx : x.pc ≠ .done) (hy : y.pc ≠ .done) : b = b' := by
  have hcurrent := hs.current b x hb hx
  rw [htask, hs.current b' y hb' hy] at hcurrent
  exact (Option.some.inj hcurrent).symm

/-- Whatever the threads do, the tasks are executed by the discipline. -/
theorem disciplined_of_reachable (x : Scheduler τ × List Deed) (h : recorded.Reachable x) :
    Disciplined x.1 x.2 := by
  obtain ⟨s, log⟩ := x
  have hs : s.Told log := told_of_reachable h
  refine ⟨fun b b' x y => hs.listed.ordered.single, fun b b' x y hb hb' htask hx hy => ?_,
    fun k hk => ?_, hs.order⟩
  · exact hs.listed.ordered.single hb hb' htask (by rw [hx]; nofun) (by rw [hy]; nofun)
  · refine Nat.le_min.2 ⟨hs.once k hk, ?_⟩
    by_cases hinvoked : Deed.invoked k ∈ log
    · have hscheduled := hs.scheduled k (.inr hinvoked)
      exact (hs.once k hk).trans (List.count_pos_iff.2 hscheduled)
    · rw [List.count_eq_zero_of_not_mem hinvoked]
      exact Nat.zero_le _

/-- The callback of a task throws, and the task is scheduled once more and erased. -/
def thrownRun : List (SchedulerEvent Nat) :=
  launchRun ++ watcherSteps 5 ++ bodySteps 0 2 ++ .body 0 .threw :: bodySteps 0 2 ++
    watcherSteps 13 ++ .call (.schedule 0) :: callerSteps 1 4

theorem thrownRun_disciplined :
    ∃ s, recorded.exec (repeating, []) thrownRun =
        some (s, [.scheduled 0, .invoked 0, .threw 0, .scheduled 0]) ∧
      Disciplined s [.scheduled 0, .invoked 0, .threw 0, .scheduled 0] := by
  have hview : (recorded.exec (repeating, []) thrownRun).map (·.2) =
      some [.scheduled 0, .invoked 0, .threw 0, .scheduled 0] := by
    decide +kernel
  obtain ⟨⟨s, log⟩, hs, rfl⟩ := Option.map_eq_some_iff.1 hview
  have hinit : recorded.init ((repeating, []) : Scheduler Nat × List Deed) :=
    ⟨constructed_repeating, rfl⟩
  exact ⟨s, hs, disciplined_of_reachable _ (Transition.System.Reachable.exec (.init hinit) hs)⟩

end Scheduler

end Scheduling
