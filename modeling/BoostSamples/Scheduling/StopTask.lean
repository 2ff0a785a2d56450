import BoostSamples.Scheduling.TaskList

/-!
# Stopping a task

`StopTask` removes the task it has found when the body of the task can no longer run the
callback: it has read a status that is not `pending`, or it has waited for the body. A task
that is not in the list has no active body, and only `Schedule` puts it there again.
-/

namespace Scheduling

/-- `StopTask` has not looked its type up yet, or it has found the task and has not
removed it, or it throws. -/
def CallPc.Stops {τ : Type*} (type : τ) (k : TaskPtr) : CallPc τ → Prop
  | .stopTaskLock type' | .stopTaskFind type' => type' = type
  | .statusRead k' (.erase type') | .statusStore k' (.erase type') | .setValue k' (.erase type')
  | .futureWait k' (.erase type') => k' = k ∧ type' = type
  | .stopTaskErase type' => type' = type
  | .unlockReturn normal | .done normal => normal = false
  | _ => False

namespace Scheduler

variable {τ : Type*} [LinearOrder τ] {s t : Scheduler τ} {k : TaskPtr} {type : τ}

/-- A call of `Schedule` enters the task into the list. -/
def Schedules (s : Scheduler τ) (k : TaskPtr) : SchedulerEvent τ → Prop
  | .caller c => ∃ e ∈ s.calls[c]?, e.2 = .scheduleEmplace k ∧
      (emplace s.taskList (s.tasks k).type k).isSome = true
  | _ => False

instance (s : Scheduler τ) (k : TaskPtr) : (e : SchedulerEvent τ) → Decidable (s.Schedules k e)
  | .caller c => inferInstanceAs (Decidable (∃ e ∈ s.calls[c]?, _))
  | .watcher | .wakeUp | .body _ _ | .call _ | .callFrom _ _ => .isFalse id

/-- The task is not scheduled again. -/
def NotAgain (k : TaskPtr) (s : Scheduler τ) (e : SchedulerEvent τ) : Prop := ¬ s.Schedules k e

instance (k : TaskPtr) (s : Scheduler τ) (e : SchedulerEvent τ) : Decidable (NotAgain k s e) :=
  inferInstanceAs (Decidable (¬ _))

theorem inList_step {e : SchedulerEvent τ} (h : s.step e = some t) (hk : t.InList k) :
    s.InList k ∨ s.Schedules k e := by
  obtain ⟨type, hk⟩ := hk
  cases e with
  | watcher => exact .inl ⟨type, (watcherStep_keeps h).2.2.2.1.subset hk⟩
  | wakeUp =>
      obtain ⟨-, ht⟩ := Option.ite_none_right_eq_some.1 h
      cases ht
      exact .inl ⟨type, hk⟩
  | body b outcome =>
      obtain ⟨x, -, -, -, hlist, -⟩ := bodyStep_effect h
      exact .inl ⟨type, hlist ▸ hk⟩
  | call op =>
      cases h
      exact .inl ⟨type, hk⟩
  | callFrom b op =>
      simp only [step, callFrom] at h
      cases hb : s.bodies[b]? with
      | none => simp [hb] at h
      | some x =>
          simp only [hb] at h
          obtain ⟨-, ht⟩ := Option.ite_none_right_eq_some.1 h
          cases ht
          exact .inl ⟨type, hk⟩
  | caller c =>
      rcases (callStep_keeps h).2 with hsub | ⟨e, he, k', hpc, hemplace⟩
      · exact .inl ⟨type, hsub.subset hk⟩
      · rcases (mem_emplace hemplace _).1 hk with heq | hold
        · cases heq
          exact .inr ⟨e, he, hpc, Option.isSome_iff_exists.2 ⟨_, hemplace⟩⟩
        · exact .inl ⟨type, hold⟩

theorem call_step {c : CallPtr} {x : Op τ × CallPc τ} (hc : s.calls[c]? = some x)
    {e : SchedulerEvent τ} (h : s.step e = some t) (he : e ≠ .caller c) :
    t.calls[c]? = some x := by
  cases e with
  | watcher =>
      obtain ⟨-, hcalls, -⟩ := watcherStep_keeps h
      rw [hcalls, hc]
  | wakeUp =>
      obtain ⟨-, ht⟩ := Option.ite_none_right_eq_some.1 h
      cases ht
      exact hc
  | body b outcome =>
      obtain ⟨y, -, -, hcalls, -⟩ := bodyStep_effect h
      rw [hcalls, hc]
  | call op =>
      cases h
      exact (List.getElem?_append_left (List.getElem?_eq_some_iff.1 hc).1).trans hc
  | callFrom b op =>
      simp only [step, callFrom] at h
      cases hb : s.bodies[b]? with
      | none => simp [hb] at h
      | some y =>
          simp only [hb] at h
          obtain ⟨-, ht⟩ := Option.ite_none_right_eq_some.1 h
          cases ht
          exact (List.getElem?_append_left (List.getElem?_eq_some_iff.1 hc).1).trans hc
  | caller c' =>
      obtain ⟨op, pc, pc', hc', hcalls, -⟩ := callStep_effect h
      have hne : c' ≠ c := fun heq => he (heq ▸ rfl)
      rw [hcalls, getElem?_setCall hc', if_neg hne, hc]

theorem calls_step {e : SchedulerEvent τ} (h : s.step e = some t) {c : CallPtr}
    {y : Op τ × CallPc τ} (hc : t.calls[c]? = some y) :
    (∃ x, s.calls[c]? = some x ∧ (y = x ∨ e = .caller c)) ∨ ∃ op, y = (op, op.pc) := by
  cases hx : s.calls[c]? with
  | some x =>
      refine .inl ⟨x, rfl, ?_⟩
      by_cases he : e = .caller c
      · exact .inr he
      · exact .inl (Option.some.inj (hc.symm.trans (call_step hx h he)))
  | none =>
      have hlength : s.calls.length ≤ c := List.getElem?_eq_none_iff.1 hx
      have hsame : t.calls ≠ s.calls := fun hcalls => by simp [hcalls, hx] at hc
      have hnew : ∀ op, t.calls = s.calls ++ [(op, op.pc)] → ∃ op : Op τ, y = (op, op.pc) :=
        fun op hcalls => by
          rw [hcalls, List.getElem?_append_right hlength] at hc
          exact ⟨op, by simpa using (List.mem_of_getElem? hc)⟩
      cases e with
      | watcher => exact absurd (watcherStep_keeps h).2.1 hsame
      | wakeUp =>
          obtain ⟨-, ht⟩ := Option.ite_none_right_eq_some.1 h
          cases ht
          exact absurd rfl hsame
      | body b outcome =>
          obtain ⟨x, -, -, hcalls, -⟩ := bodyStep_effect h
          exact absurd hcalls hsame
      | call op =>
          cases h
          exact .inr (hnew op rfl)
      | callFrom b op =>
          simp only [step, callFrom] at h
          cases hb : s.bodies[b]? with
          | none => simp [hb] at h
          | some x =>
              simp only [hb] at h
              obtain ⟨-, ht⟩ := Option.ite_none_right_eq_some.1 h
              cases ht
              exact .inr (hnew op rfl)
      | caller c' =>
          obtain ⟨op, pc, pc', hc', hcalls, -⟩ := callStep_effect h
          have hne : c' ≠ c := fun heq => by simp [heq, hx] at hc'
          rw [hcalls, getElem?_setCall hc', if_neg hne, hx] at hc
          cases hc

structure Unaffected (type : τ) (s t : Scheduler τ) : Prop where
  tasks : ∀ k, (s.tasks k).type ≠ type → t.tasks k = s.tasks k
  taskList : t.taskList.filter (·.1 ≠ type) = s.taskList.filter (·.1 ≠ type)
  bodies : t.bodies = s.bodies
  isRunning : t.isRunning = s.isRunning

theorem filter_eraseP (l : List (τ × TaskPtr)) (type : τ) :
    (l.eraseP (·.1 = type)).filter (·.1 ≠ type) = l.filter (·.1 ≠ type) := by
  induction l with
  | nil => rfl
  | cons a l ih =>
      by_cases ha : a.1 = type
      · rw [List.eraseP_cons_of_pos (by simpa using ha),
          List.filter_cons_of_neg (by simpa using ha)]
      · rw [List.eraseP_cons_of_neg (by simpa using ha),
          List.filter_cons_of_pos (by simpa using ha),
          List.filter_cons_of_pos (by simpa using ha), ih]

omit [LinearOrder τ] in
theorem unaffected_of_update [DecidableEq τ] {x : Task τ} (hk : (s.tasks k).type = type)
    (htasks : t.tasks = Function.update s.tasks k x) {k' : TaskPtr}
    (hk' : (s.tasks k').type ≠ type) : t.tasks k' = s.tasks k' := by
  have hne : k' ≠ k := fun heq => hk' (heq ▸ hk)
  rw [htasks, Function.update_of_ne hne]

theorem Listed.unaffected (hs : s.Listed) {c : CallPtr} {pc : CallPc τ}
    (hc : s.calls[c]? = some (.stopTask type, pc)) (h : s.callStep c = some t) :
    Unaffected type s t := by
  have hmem := List.mem_of_getElem? hc
  have hknown := hs.known _ hmem
  have hof : pc.Of (.stopTask type) := hs.of _ hmem
  have hlock : ∀ pc', s.lock c pc' = some t → Unaffected type s t := fun pc' hl => by
    obtain ⟨-, ht⟩ := Option.ite_none_right_eq_some.1 hl
    cases ht
    exact ⟨fun _ _ => rfl, rfl, rfl, rfl⟩
  simp only [Scheduler.callStep, hc] at h
  cases pc with
  | scheduleLock k => exact hlock _ h
  | stopTaskLock type' => exact hlock _ h
  | stopLock => exact hlock _ h
  | scheduleEmplace k => exact nomatch hof
  | stopTaskFind type' =>
      simp only at h
      split at h <;> cases h <;> exact ⟨fun _ _ => rfl, rfl, rfl, rfl⟩
  | stopTaskErase type' =>
      cases hof
      cases h
      exact ⟨fun _ _ => rfl, filter_eraseP _ _, rfl, rfl⟩
  | notify =>
      cases h
      obtain ⟨-, -, htasks, hbodies, hlist, hrunning, -⟩ := s.notifyAll_fields
      exact ⟨fun k _ => congrFun htasks k, congrArg _ hlist, hbodies, hrunning⟩
  | stopStore => exact nomatch hof
  | stopClear => exact nomatch hof
  | stopNotify => exact nomatch hof
  | stopJoin => exact nomatch hof
  | statusStore k after =>
      cases after with
      | next rest => exact nomatch hof
      | erase type' =>
          cases hof
          cases h
          exact ⟨fun _ => unaffected_of_update (hs.typed _ hknown) rfl, rfl, rfl, rfl⟩
  | setValue k after =>
      cases after with
      | next rest => exact nomatch hof
      | erase type' =>
          cases hof
          simp only at h
          split at h <;> cases h
          · exact ⟨fun _ _ => rfl, rfl, rfl, rfl⟩
          · exact ⟨fun _ => unaffected_of_update (hs.typed _ hknown) rfl, rfl, rfl, rfl⟩
  | futureWait k after =>
      obtain ⟨-, ht⟩ := Option.ite_none_right_eq_some.1 h
      cases ht
      exact ⟨fun _ _ => rfl, rfl, rfl, rfl⟩
  | done normal => exact nomatch h
  | _ =>
      cases h
      exact ⟨fun _ _ => rfl, rfl, rfl, rfl⟩

/-- The entry of a type is that of the task of the type that is in the list. -/
theorem Listed.find?_eq (hs : s.Listed) (htype : (s.tasks k).type = type) (hk : s.InList k) :
    s.taskList.find? (·.1 = type) = some (type, k) := by
  obtain ⟨type', hk⟩ := hk
  cases (hs.typed _ hk).symm.trans htype
  cases hfind : s.taskList.find? (·.1 = type') with
  | none => simpa using List.find?_eq_none.1 hfind _ hk
  | some e =>
      have he : e.1 = type' := by simpa using List.find?_some hfind
      exact congrArg some (List.inj_on_of_nodup_map hs.keys (List.mem_of_find?_eq_some hfind) hk he)

theorem Listed.finds (hs : s.Listed) {c : CallPtr} {op : Op τ}
    (hc : s.calls[c]? = some (op, .stopTaskFind type)) (htype : (s.tasks k).type = type)
    (h : s.callStep c = some t) :
    (∃ pc', t.calls[c]? = some (op, pc') ∧ pc'.Stops type k) ∨ ¬ t.InList k := by
  simp only [Scheduler.callStep, hc] at h
  by_cases hk : s.InList k
  · rw [hs.find?_eq htype hk] at h
    cases h
    exact .inl ⟨_, (getElem?_setCall hc _ c).trans (if_pos rfl), rfl, rfl⟩
  · split at h <;> cases h <;> exact .inr hk

/-- On the way to the removal of a task a call goes on, or it removes it. -/
theorem Listed.stops (hs : s.Listed) {c : CallPtr} {op : Op τ} {pc : CallPc τ}
    (hc : s.calls[c]? = some (op, pc)) (htype : (s.tasks k).type = type) (hpc : pc.Stops type k)
    (h : s.callStep c = some t) :
    (∃ pc', t.calls[c]? = some (op, pc') ∧ pc'.Stops type k) ∨ ¬ t.InList k := by
  by_cases hlookup : pc = .stopTaskFind type
  · exact hs.finds (hlookup ▸ hc) htype h
  obtain ⟨op₁, pc₁, pc', hc', hself, hmove⟩ := callStep_move h
  cases hc.symm.trans hc'
  cases hmove with
  | stopTaskLock type' => exact .inl ⟨_, hself, hpc⟩
  | missed type' => exact absurd (congrArg _ hpc) hlookup
  | found type' k' => exact absurd (congrArg _ hpc) hlookup
  | erased type' =>
      cases hpc
      simp only [Scheduler.callStep, hc] at h
      cases h
      refine .inr fun ⟨type', hk⟩ => ?_
      obtain ⟨hk, hne⟩ := (mem_eraseP_of_keys hs.keys type _).1 hk
      exact hne ((hs.typed _ hk).symm.trans htype)
  | other k' after => exact .inl ⟨_, hself, by cases after <;> exact hpc⟩
  | pending k' after => exact .inl ⟨_, hself, by cases after <;> exact hpc⟩
  | set k' after hvalue => exact .inl ⟨_, hself, by cases after <;> exact hpc⟩
  | threw k' after => exact .inl ⟨_, hself, rfl⟩
  | returned normal => exact .inl ⟨_, hself, hpc⟩
  | marked k' after =>
      refine .inl ⟨_, hself, ?_⟩
      cases after with
      | erase type' => exact hpc.2
      | next rest => exact hpc.elim
  | waited k' after =>
      refine .inl ⟨_, hself, ?_⟩
      cases after with
      | erase type' => exact hpc.2
      | next rest => exact hpc.elim
  | _ => exact hpc.elim

/-- The call is on its way to remove the task, or the task is not in the list. -/
def Removes (c : CallPtr) (type : τ) (k : TaskPtr) (s : Scheduler τ) : Prop :=
  (∃ op pc, s.calls[c]? = some (op, pc) ∧ pc.Stops type k) ∨ ¬ s.InList k

theorem Removes.step {c : CallPtr} (hs : s.Listed) (htype : (s.tasks k).type = type)
    (h : Removes c type k s) {e : SchedulerEvent τ} (hagain : NotAgain k s e)
    (hstep : s.step e = some t) : Removes c type k t := by
  rcases h with ⟨op, pc, hc, hpc⟩ | hnot
  · by_cases he : e = .caller c
    · subst he
      exact (hs.stops hc htype hpc hstep).imp_left fun ⟨pc', hc', hpc'⟩ => ⟨op, pc', hc', hpc'⟩
    · exact .inl ⟨op, pc, call_step hc hstep he, hpc⟩
  · exact .inr fun hk => (inList_step hstep hk).elim hnot hagain

theorem Removes.run {c : CallPtr} (hs : s.Listed) (htype : (s.tasks k).type = type)
    (h : Removes c type k s) {es : List (SchedulerEvent τ)}
    (hes : system.execWhile (NotAgain k) s es = some t) : t.Listed ∧ Removes c type k t := by
  induction es generalizing s with
  | nil =>
      cases hes
      exact ⟨hs, h⟩
  | cons e es ih =>
      obtain ⟨hagain, hes⟩ := Option.ite_none_right_eq_some.1 hes
      obtain ⟨u, hu, hrest⟩ := Option.bind_eq_some_iff.1 hes
      have hfixed : (u.tasks k).type = (s.tasks k).type :=
        congrArg Prod.fst ((keeps_step hs.ordered hu).fixed k)
      exact ih (hs.step hu) (hfixed.trans htype) (h.step hs htype hagain hu) hrest

omit [LinearOrder τ] in
/-- The callback of a task that is not in the list does not run. -/
theorem Listed.no_callback (hs : s.Listed) (hk : ¬ s.InList k) :
    ∀ x ∈ s.bodies, x.task = k → x.pc ≠ .callback := by
  rintro x hx rfl hpc
  obtain ⟨b, hb⟩ := List.mem_iff_getElem?.1 hx
  have hof : s.pcOf x.task = .callback :=
    (pcOf_of_body hs.ordered hb (by rw [hpc]; nofun)).trans hpc
  refine hk (hs.active _ ?_)
  simp [Active, Life.active, life, hof, Life.storing]

/-- A task that is registered when a call has not looked its type up yet has no callback
that runs once the call has returned normally. -/
theorem no_callback_of_returned {c : CallPtr} (hs : system.Reachable s)
    (hk : (type, k) ∈ s.taskList) {op : Op τ} {pc : CallPc τ} (hc : s.calls[c]? = some (op, pc))
    (hpc : pc.Stops type k) {es : List (SchedulerEvent τ)}
    (hes : system.execWhile (NotAgain k) s es = some t)
    (hdone : t.calls[c]? = some (op, .done true)) :
    ∀ x ∈ t.bodies, x.task = k → x.pc ≠ .callback := by
  have hs := listed_of_reachable hs
  obtain ⟨ht, hremoves⟩ := Removes.run hs (hs.typed _ hk) (.inl ⟨_, _, hc, hpc⟩) hes
  refine ht.no_callback (hremoves.resolve_left ?_)
  rintro ⟨op', pc', hc', hpc'⟩
  rw [hdone] at hc'
  cases hc'
  exact Bool.noConfusion (show true = false from hpc')

/-- When a call of `StopTask` has returned normally, the callback of the task that was
registered under its type, when it was called or when it looks the type up, does not run,
and unless the task is scheduled again it does not run later; and no step of a call of
`StopTask` does anything to the tasks of other types. -/
theorem stopTask_effective (type : τ) :
    (∀ (s t : Scheduler τ) (k : TaskPtr) es, system.Reachable s → (type, k) ∈ s.taskList →
      system.execWhile (NotAgain k) s (.call (.stopTask type) :: es) = some t →
      t.calls[s.calls.length]? = some (.stopTask type, .done true) →
      ∀ x ∈ t.bodies, x.task = k → x.pc ≠ .callback) ∧
    (∀ (s t : Scheduler τ) (k : TaskPtr) (c : CallPtr) es, system.Reachable s →
      s.calls[c]? = some (.stopTask type, .stopTaskFind type) → (type, k) ∈ s.taskList →
      system.execWhile (NotAgain k) s es = some t →
      t.calls[c]? = some (.stopTask type, .done true) →
      ∀ x ∈ t.bodies, x.task = k → x.pc ≠ .callback) ∧
    ∀ (s t : Scheduler τ) (c : CallPtr) pc, system.Reachable s →
      s.calls[c]? = some (.stopTask type, pc) → s.step (.caller c) = some t →
      Unaffected type s t := by
  refine ⟨fun s t k es hs hk hes hdone => ?_, fun s t k c es hs hc hk hes hdone => ?_,
    fun s t c pc hs hc hstep => ?_⟩
  · obtain ⟨-, hes⟩ := Option.ite_none_right_eq_some.1 hes
    have hcalled : system.Reachable (s.call (.stopTask type)) :=
      hs.step (e := .call (.stopTask type)) trivial rfl
    have hc : (s.call (.stopTask type)).calls[s.calls.length]? =
        some (.stopTask type, .stopTaskLock type) := List.getElem?_concat_length
    exact no_callback_of_returned hcalled hk hc rfl hes hdone
  · exact no_callback_of_returned hs hk hc rfl hes hdone
  · exact (listed_of_reachable hs).unaffected hc hstep

/-- The callback of a task runs. -/
def callbackRun : List (SchedulerEvent Nat) := launchRun ++ watcherSteps 5 ++ bodySteps 0 2

/-- `StopTask` is called and about to look the task up. -/
def lookupRun : List (SchedulerEvent Nat) := .call (.stopTask 0) :: callerSteps 1 1

/-- It finds the task, the callback returns, and so does the call. -/
def returnRun : List (SchedulerEvent Nat) := callerSteps 1 3 ++ bodySteps 0 4 ++ callerSteps 1 4

theorem returnRun_effective :
    ∃ s t u v, system.exec repeating callbackRun = some s ∧
      s.taskList = [(0, 0)] ∧ s.bodies = [⟨0, .callback, none⟩] ∧
      system.execWhile (NotAgain 0) s (lookupRun ++ returnRun) = some t ∧
      t.calls[1]? = some (.stopTask 0, .done true) ∧
      (∀ x ∈ t.bodies, x.task = 0 → x.pc ≠ .callback) ∧
      system.exec s lookupRun = some u ∧ u.calls[1]? = some (.stopTask 0, .stopTaskFind 0) ∧
      system.execWhile (NotAgain 0) u returnRun = some v ∧
      v.calls[1]? = some (.stopTask 0, .done true) ∧
      (∀ x ∈ v.bodies, x.task = 0 → x.pc ≠ .callback) ∧
      ∃ w, u.step (.caller 1) = some w ∧ Unaffected 0 u w := by
  have hcallback : (system.exec repeating callbackRun).map
      (fun s => (s.taskList, s.bodies, s.calls.length)) =
        some ([(0, 0)], [⟨0, .callback, none⟩], 1) := by
    decide +kernel
  have hreturn : ((system.exec repeating callbackRun).bind fun s =>
      system.execWhile (NotAgain 0) s (lookupRun ++ returnRun)).map (fun s => s.calls[1]?) =
        some (some (.stopTask 0, .done true)) := by
    decide +kernel
  have hlookup : ((system.exec repeating callbackRun).bind fun s => system.exec s lookupRun).map
      (fun s => (s.taskList, s.calls[1]?)) =
        some ([(0, 0)], some (.stopTask 0, .stopTaskFind 0)) := by
    decide +kernel
  have hfound : (((system.exec repeating callbackRun).bind fun s => system.exec s lookupRun).bind
      fun s => system.execWhile (NotAgain 0) s returnRun).map (fun s => s.calls[1]?) =
        some (some (.stopTask 0, .done true)) := by
    decide +kernel
  have hnext : (((system.exec repeating callbackRun).bind fun s => system.exec s lookupRun).bind
      fun s => s.step (.caller 1)).isSome := by
    decide +kernel
  obtain ⟨s, hs, hview⟩ := Option.map_eq_some_iff.1 hcallback
  obtain ⟨hlist, hview⟩ := Prod.mk.inj hview
  obtain ⟨hbodies, hlength⟩ := Prod.mk.inj hview
  rw [hs, Option.bind_some] at hreturn hlookup hfound hnext
  obtain ⟨t, ht, htdone⟩ := Option.map_eq_some_iff.1 hreturn
  obtain ⟨u, hu, huview⟩ := Option.map_eq_some_iff.1 hlookup
  obtain ⟨hulist, hufind⟩ := Prod.mk.inj huview
  rw [hu, Option.bind_some] at hfound hnext
  obtain ⟨v, hv, hvdone⟩ := Option.map_eq_some_iff.1 hfound
  obtain ⟨w, hw⟩ := Option.isSome_iff_exists.1 hnext
  have hsreach : system.Reachable s :=
    Transition.System.Reachable.exec (.init constructed_repeating) hs
  have hureach : system.Reachable u := Transition.System.Reachable.exec hsreach hu
  obtain ⟨hcalled, hlooked, hunaffected⟩ := stopTask_effective (τ := Nat) 0
  refine ⟨s, t, u, v, hs, hlist, hbodies, ht, htdone, ?_, hu, hufind, hv, hvdone, ?_,
    w, hw, hunaffected u w 1 _ hureach hufind hw⟩
  · exact hcalled s t 0 _ hsreach (by simp [hlist]) ht (by rw [hlength]; exact htdone)
  · exact hlooked u v 0 1 _ hureach hufind (by simp [hulist]) hv hvdone

end Scheduler

end Scheduling
