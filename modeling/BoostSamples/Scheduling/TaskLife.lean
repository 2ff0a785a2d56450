import BoostSamples.Scheduling.Scheduler

/-!
# The life of one task

What the threads do to one task, seen alone: its status, its promise, where its body
is, and what the owner of the mutex is about to do to it. Each step of the scheduler
is, for each task, a step of this life or none. `Sane` is what holds throughout: the
status is `pending` while the body has not stored another one, and for good if the
callback has left the body; the body is done before the next one is launched; and a
promise is given a value at most once before its body has taken it.
-/

namespace Scheduling

/-- What the owner of the mutex is about to do to a task. -/
inductive Grip
  /-- The watcher waits for its last body. -/
  | queued
  /-- The watcher stores `pending`. -/
  | store
  /-- The watcher launches its body. -/
  | launch
  /-- A call stores `stopped`. -/
  | mark
  /-- A call sets the value of its promise. -/
  | set
  /-- A call waits for its body. -/
  | await
  deriving DecidableEq, Repr

/-- One task; `pc` is that of its body, and `done` if it has none. -/
structure Life where
  status : Status
  promise : Promise
  pc : BodyPc
  grip : Option Grip
  deriving DecidableEq, Repr

namespace Life

def storing : BodyPc → Bool
  | .getFuture | .waitFor | .callback | .storeDone | .storeReady | .storeFailed => true
  | .swap | .notify | .done => false

/-- The body runs the callback, or has done so and not stored its status yet. -/
def called : BodyPc → Bool
  | .callback | .storeDone | .storeFailed => true
  | _ => false

def holding : BodyPc → Bool
  | .waitFor | .callback | .storeDone | .storeReady | .storeFailed | .swap => true
  | .getFuture | .notify | .done => false

inductive Step : Life → Life → Prop
  | getFuture {l : Life} : l.pc = .getFuture → l.promise.retrieved = false →
      Step l { l with promise := { l.promise with retrieved := true }, pc := .waitFor }
  | getFutureFailed {l : Life} : l.pc = .getFuture → l.promise.retrieved = true →
      Step l { l with pc := .storeFailed }
  | timeout {l : Life} : l.pc = .waitFor → l.promise.value = none →
      Step l { l with pc := .callback }
  | ready {l : Life} : l.pc = .waitFor → l.promise.value ≠ none →
      Step l { l with pc := .storeReady }
  | returned {l : Life} : l.pc = .callback → Step l { l with pc := .storeDone }
  | threw {l : Life} : l.pc = .callback → Step l { l with pc := .storeFailed }
  | escaped {l : Life} : l.pc = .callback → Step l { l with pc := .done }
  | storeDone {l : Life} {status : Status} : l.pc = .storeDone → status ≠ .pending →
      Step l { l with status := status, pc := .swap }
  | storeReady {l : Life} : l.pc = .storeReady →
      Step l { l with status := l.promise.value.getD .stopped, pc := .swap }
  | storeFailed {l : Life} : l.pc = .storeFailed →
      Step l { l with status := .stopped, pc := .notify }
  | swap {l : Life} : l.pc = .swap → Step l { l with promise := {}, pc := .notify }
  | notify {l : Life} : l.pc = .notify → Step l { l with pc := .done }
  | readQueued {l : Life} : l.grip = none → l.status = .queuedUp →
      Step l { l with grip := some .queued }
  | waited {l : Life} : l.grip = some .queued → l.pc = .done →
      Step l { l with grip := some .store }
  | store {l : Life} : l.grip = some .store →
      Step l { l with status := .pending, grip := some .launch }
  | launch {l : Life} : l.grip = some .launch →
      Step l { l with pc := .getFuture, grip := none }
  | readOther {l : Life} : l.grip = none → l.status ≠ .pending →
      Step l { l with grip := some .mark }
  | mark {l : Life} : l.grip = some .mark → Step l { l with status := .stopped, grip := none }
  | readPending {l : Life} : l.grip = none → l.status = .pending →
      Step l { l with grip := some .set }
  | setValue {l : Life} : l.grip = some .set → l.promise.value = none →
      Step l { l with
        promise := { l.promise with value := some .stopped }, grip := some .await }
  | setFailed {l : Life} : l.grip = some .set → l.promise.value ≠ none →
      Step l { l with grip := none }
  | awaited {l : Life} : l.grip = some .await → l.pc = .done → Step l { l with grip := none }

structure Sane (l : Life) : Prop where
  value : l.promise.value = none ∨ l.promise.value = some .stopped
  pending : storing l.pc = true → l.status = .pending
  storing : l.status = .pending → storing l.pc = true ∨ l.grip = some .launch ∨ l.pc = .done
  idle : l.grip = some .store ∨ l.grip = some .launch → l.pc = .done
  queued : l.grip = some .queued ∨ l.grip = some .store → l.status = .queuedUp
  launch : l.grip = some .launch → l.status = .pending
  mark : l.grip = some .mark → l.status ≠ .pending
  called : called l.pc = true → l.promise.value ≠ none → l.grip = some .await
  fresh : l.pc = .getFuture → l.promise.retrieved = false
  retrieved : l.promise.retrieved = true → holding l.pc = true ∨ l.status = .stopped ∨
    l.status = .pending ∧ l.pc = .done ∧ l.grip ≠ some .launch
  set : l.grip = some .set → l.promise.value ≠ none →
    l.pc = .getFuture ∨ l.pc = .waitFor ∨ l.pc = .storeReady ∨ l.pc = .swap ∨ l.pc = .done

def constructed : Life := ⟨.queuedUp, {}, .done, none⟩

theorem sane_constructed : constructed.Sane := by
  constructor <;> simp [constructed, Life.storing, Life.called]

theorem Sane.getD_value {l : Life} (hl : l.Sane) : l.promise.value.getD .stopped = .stopped := by
  rcases hl.value with h | h <;> rw [h] <;> rfl

theorem Step.sane_value {l m : Life} (h : Step l m) (hl : l.Sane) :
    m.promise.value = none ∨ m.promise.value = some .stopped := by
  have hvalue := hl.value
  cases h <;> simp_all

theorem Step.sane_pending {l m : Life} (h : Step l m) (hl : l.Sane)
    (hm : Life.storing m.pc = true) : m.status = .pending := by
  have hpending := hl.pending
  have hlaunch := hl.launch
  have hmark := hl.mark
  cases h <;> simp_all [Life.storing]

theorem Step.sane_storing {l m : Life} (h : Step l m) (hl : l.Sane) (hm : m.status = .pending) :
    Life.storing m.pc = true ∨ m.grip = some .launch ∨ m.pc = .done := by
  have hstoring := hl.storing
  have hvalue := hl.getD_value
  have hidle := hl.idle
  have hmark := hl.mark
  cases h <;> simp_all [Life.storing]

/-- The watcher turns to the launch of a body when the last one is done. -/
theorem Step.sane_idle {l m : Life} (h : Step l m) (hl : l.Sane)
    (hm : m.grip = some .store ∨ m.grip = some .launch) : m.pc = .done := by
  have hidle := hl.idle
  cases h <;> simp_all

theorem Step.sane_queued {l m : Life} (h : Step l m) (hl : l.Sane)
    (hm : m.grip = some .queued ∨ m.grip = some .store) : m.status = .queuedUp := by
  have hqueued := hl.queued
  have hpending := hl.pending
  have hidle := hl.idle
  cases h <;> simp_all [Life.storing]

theorem Step.sane_launch {l m : Life} (h : Step l m) (hl : l.Sane)
    (hm : m.grip = some .launch) : m.status = .pending := by
  have hlaunch := hl.launch
  have hidle := hl.idle
  cases h <;> simp_all

theorem Step.sane_mark {l m : Life} (h : Step l m) (hl : l.Sane) (hm : m.grip = some .mark) :
    m.status ≠ .pending := by
  have hmark := hl.mark
  have hvalue := hl.getD_value
  cases h <;> simp_all

/-- A body comes to the callback without a value, and the next value is awaited. -/
theorem Step.sane_called {l m : Life} (h : Step l m) (hl : l.Sane)
    (hm : Life.called m.pc = true) (hvalue : m.promise.value ≠ none) :
    m.grip = some .await := by
  have hcalled := hl.called
  have hfresh := hl.fresh
  cases h <;> simp_all [Life.called]

theorem Step.sane_fresh {l m : Life} (h : Step l m) (hl : l.Sane) (hm : m.pc = .getFuture) :
    m.promise.retrieved = false := by
  have hfresh := hl.fresh
  have hretrieved := hl.retrieved
  have hlaunch := hl.launch
  have hidle := hl.idle
  cases h <;> simp_all [Life.holding]

/-- A body that is launched finds a promise whose future has not been retrieved: the last
one has swapped it, unless it has failed, and then it is the last. -/
theorem Step.sane_retrieved {l m : Life} (h : Step l m) (hl : l.Sane)
    (hm : m.promise.retrieved = true) :
    Life.holding m.pc = true ∨ m.status = .stopped ∨
      m.status = .pending ∧ m.pc = .done ∧ m.grip ≠ some .launch := by
  have hretrieved := hl.retrieved
  have hpending := hl.pending
  have hidle := hl.idle
  have hqueued := hl.queued
  have hlaunch := hl.launch
  have hfresh := hl.fresh
  cases h <;> simp_all [Life.holding, Life.storing]

/-- A call finds a value at the promise of a pending task whose body has not come to the
callback, or is done. -/
theorem Step.sane_set {l m : Life} (h : Step l m) (hl : l.Sane) (hm : m.grip = some .set)
    (hvalue : m.promise.value ≠ none) :
    m.pc = .getFuture ∨ m.pc = .waitFor ∨ m.pc = .storeReady ∨ m.pc = .swap ∨ m.pc = .done := by
  have hset := hl.set
  have hfresh := hl.fresh
  cases h with
  | readPending hgrip hstatus =>
      have hcalled := hl.called
      have hstoring := hl.storing
      cases hpc : l.pc <;> simp_all [Life.called, Life.storing]
  | _ => simp_all

theorem Step.sane {l m : Life} (h : Step l m) (hl : l.Sane) : m.Sane where
  value := h.sane_value hl
  pending := h.sane_pending hl
  storing := h.sane_storing hl
  idle := h.sane_idle hl
  queued := h.sane_queued hl
  launch := h.sane_launch hl
  mark := h.sane_mark hl
  called := h.sane_called hl
  fresh := h.sane_fresh hl
  retrieved := h.sane_retrieved hl
  set := h.sane_set hl

end Life

def Watcher.holds : Watcher → Bool
  | .scan _ | .futureWait .. | .store .. | .launch .. | .scanStopped .. | .test | .count ..
  | .wait | .unlock => true
  | .loop | .lock | .blocked | .relock | .done => false

def Watcher.grip : Watcher → Option (TaskPtr × Grip)
  | .futureWait _ k => some (k, .queued)
  | .store _ k => some (k, .store)
  | .launch _ k => some (k, .launch)
  | _ => none

def CallPc.holds {τ : Type*} : CallPc τ → Bool
  | .scheduleEmplace _ | .stopTaskFind _ | .stopTaskErase _ | .unlockNotify | .stopLoop
  | .stopClear | .stopUnlock | .statusRead .. | .statusStore .. | .setValue ..
  | .futureWait .. | .unlockReturn _ => true
  | .scheduleLock _ | .stopTaskLock _ | .notify | .stopRead | .stopStore | .stopLock
  | .stopNotify | .stopJoin | .done _ => false

def CallPc.grip {τ : Type*} : CallPc τ → Option (TaskPtr × Grip)
  | .statusStore k _ => some (k, .mark)
  | .setValue k _ => some (k, .set)
  | .futureWait k _ => some (k, .await)
  | _ => none

@[simp] theorem After.holds_pc {τ : Type*} (after : After τ) : after.pc.holds = true := by
  rcases after with type | (_ | ⟨k, rest⟩) <;> rfl

@[simp] theorem After.grip_pc {τ : Type*} (after : After τ) : after.pc.grip = none := by
  rcases after with type | (_ | ⟨k, rest⟩) <;> rfl

namespace Scheduler

variable {τ : Type*} {s t : Scheduler τ}

def pcOf (s : Scheduler τ) (k : TaskPtr) : BodyPc :=
  match (s.tasks k).future with
  | none => .done
  | some b => (s.bodies[b]?.map (·.pc)).getD .done

def grip (s : Scheduler τ) : Option (TaskPtr × Grip) :=
  match s.mutex with
  | none => none
  | some .watcher => s.watcher.grip
  | some (.caller c) => s.calls[c]?.bind (·.2.grip)

def gripOn (g : Option (TaskPtr × Grip)) (k : TaskPtr) : Option Grip :=
  g.bind fun g => if g.1 = k then some g.2 else none

@[simp] theorem gripOn_none (k : TaskPtr) : gripOn none k = none := rfl

@[simp] theorem gripOn_some_self (k : TaskPtr) (g : Grip) : gripOn (some (k, g)) k = some g :=
  if_pos rfl

theorem gripOn_of_ne {k k' : TaskPtr} (h : k' ≠ k) (g : Grip) : gripOn (some (k', g)) k = none :=
  if_neg h

def life (s : Scheduler τ) (k : TaskPtr) : Life :=
  ⟨(s.tasks k).status, (s.tasks k).promise, s.pcOf k, gripOn s.grip k⟩

def Owns (s : Scheduler τ) (c : CallPtr) : Prop :=
  ∃ op pc, s.calls[c]? = some (op, pc) ∧ pc.holds = true

/-- The mutex has at most one owner, who is where the mutex is owned; a future is that of
a body; a body that is not done is that of the future of its task; and each task leads a
sane life. -/
structure Ordered (s : Scheduler τ) : Prop where
  watcher : s.mutex = some .watcher ↔ s.watcher.holds = true
  caller : ∀ c, s.mutex = some (.caller c) ↔ s.Owns c
  launched : ∀ k b, (s.tasks k).future = some b → ∃ x, s.bodies[b]? = some x ∧ x.task = k
  current : ∀ b x, s.bodies[b]? = some x → x.pc ≠ .done → (s.tasks x.task).future = some b
  sane : ∀ k, (s.life k).Sane

theorem grip_of_watcher (h : s.mutex = some .watcher) : s.grip = s.watcher.grip := by
  rw [grip, h]

theorem grip_of_caller {c : CallPtr} {op : Op τ} {pc : CallPc τ}
    (h : s.mutex = some (.caller c)) (hc : s.calls[c]? = some (op, pc)) : s.grip = pc.grip := by
  rw [grip, h]
  simp [hc]

theorem grip_of_none (h : s.mutex = none) : s.grip = none := by
  rw [grip, h]

theorem pcOf_of_body (hs : s.Ordered) {b : BodyPtr} {x : Body} (hb : s.bodies[b]? = some x)
    (hx : x.pc ≠ .done) : s.pcOf x.task = x.pc := by
  simp [pcOf, hs.current b x hb hx, hb]

theorem pcOf_of_ready {k : TaskPtr} (h : s.ready k = true) : s.pcOf k = .done := by
  unfold ready at h
  unfold pcOf
  cases hk : (s.tasks k).future with
  | none => rfl
  | some b =>
      simp only [hk, beq_iff_eq] at h
      simp [h]

theorem ordered_of_constructed (h : s.Constructed) : s.Ordered where
  watcher := by simp [h.mutex, h.watcher, Watcher.holds]
  caller c := by simp [Owns, h.mutex, h.calls]
  launched k b hk := nomatch (h.future k).symm.trans hk
  current b x hb := by simp [h.bodies] at hb
  sane k := by
    have hlife : s.life k = Life.constructed := by
      simp [life, pcOf, h.status, h.promise, h.future, grip_of_none h.mutex, Life.constructed]
    rw [hlife]
    exact Life.sane_constructed

/-- Each task goes one step or none. -/
def Lives (s t : Scheduler τ) : Prop := ∀ k, t.life k = s.life k ∨ Life.Step (s.life k) (t.life k)

theorem Lives.sane (h : Lives s t) (hs : s.Ordered) (k : TaskPtr) : (t.life k).Sane := by
  rcases h k with heq | hstep
  · rw [heq]
    exact hs.sane k
  · exact hstep.sane (hs.sane k)

/-- One task goes a step. -/
structure LivesOnly (k : TaskPtr) (s t : Scheduler τ) : Prop where
  self : Life.Step (s.life k) (t.life k)
  other : ∀ k', k ≠ k' → t.life k' = s.life k'

theorem LivesOnly.lives {k : TaskPtr} (h : LivesOnly k s t) : Lives s t := fun k' => by
  by_cases hk : k = k'
  · exact .inr (hk ▸ h.self)
  · exact .inl (h.other k' hk)

theorem lives_of_eq (h : ∀ k, t.life k = s.life k) : Lives s t := fun k => .inl (h k)

theorem life_of_grip {g : Option (TaskPtr × Grip)} (htasks : t.tasks = s.tasks)
    (hbodies : t.bodies = s.bodies) (hgrip : t.grip = g) (k : TaskPtr) :
    t.life k = { s.life k with grip := gripOn g k } := by
  simp [life, pcOf, htasks, hbodies, hgrip]

/-- The threads own the mutex as they did, and the bodies are the same. -/
theorem Ordered.of_same (hs : s.Ordered) (hmutex : t.mutex = s.mutex)
    (hwatcher : t.watcher.holds = s.watcher.holds)
    (hcalls : ∀ c, t.Owns c ↔ s.Owns c)
    (hlaunched : ∀ k b, (t.tasks k).future = some b → ∃ x, t.bodies[b]? = some x ∧ x.task = k)
    (hcurrent : ∀ b x, t.bodies[b]? = some x → x.pc ≠ .done →
      (t.tasks x.task).future = some b) (hlives : Lives s t) : t.Ordered where
  watcher := by rw [hmutex, hwatcher, hs.watcher]
  caller c := by rw [hmutex, hcalls, hs.caller]
  launched := hlaunched
  current := hcurrent
  sane := hlives.sane hs

theorem Ordered.watcher_move (hs : s.Ordered) {w : Watcher}
    (hbefore : s.watcher.holds = true) (hafter : w.holds = true) {l : List (τ × TaskPtr)}
    (hlives : Lives s { s with taskList := l, watcher := w }) :
    Ordered { s with taskList := l, watcher := w } :=
  hs.of_same rfl (hafter.trans hbefore.symm) (fun _ => Iff.rfl) hs.launched hs.current hlives

theorem Ordered.watcher_free (hs : s.Ordered) {w : Watcher}
    (hbefore : s.watcher.holds = false) (hafter : w.holds = false) :
    Ordered { s with watcher := w } ∧ Lives s { s with watcher := w } := by
  have hne : s.mutex ≠ some .watcher := fun h =>
    nomatch (hs.watcher.1 h).symm.trans hbefore
  have hgrip : grip { s with watcher := w } = s.grip := by
    unfold grip
    cases hm : s.mutex with
    | none => rfl
    | some th =>
        cases th with
        | watcher => exact absurd hm hne
        | caller c => rfl
  have hlives : Lives s { s with watcher := w } := lives_of_eq fun k =>
    (life_of_grip rfl rfl hgrip k).trans rfl
  exact ⟨hs.of_same rfl (hafter.trans hbefore.symm) (fun _ => Iff.rfl) hs.launched hs.current
    hlives, hlives⟩

theorem Ordered.watcher_lock (hs : s.Ordered) {w : Watcher} (hm : s.mutex = none)
    (hafter : w.holds = true) (hgrip : w.grip = none) :
    Ordered { s with mutex := some .watcher, watcher := w } ∧
      Lives s { s with mutex := some .watcher, watcher := w } := by
  have hlives : Lives s { s with mutex := some .watcher, watcher := w } := lives_of_eq fun k => by
    rw [life_of_grip (s := s) (t := { s with mutex := some .watcher, watcher := w }) rfl rfl
      ((grip_of_watcher rfl).trans hgrip) k, life, grip_of_none hm]
  refine ⟨⟨by simp [hafter], fun c => ?_, hs.launched, hs.current, hlives.sane hs⟩, hlives⟩
  have hnot := hs.caller c
  simp only [hm] at hnot
  exact iff_of_false nofun fun h => nomatch hnot.2 h

theorem Ordered.watcher_unlock (hs : s.Ordered) {w : Watcher} (hbefore : s.watcher.holds = true)
    (hgrip : s.watcher.grip = none) (hafter : w.holds = false) :
    Ordered { s with mutex := none, watcher := w } ∧
      Lives s { s with mutex := none, watcher := w } := by
  have hm : s.mutex = some .watcher := hs.watcher.2 hbefore
  have hlives : Lives s { s with mutex := none, watcher := w } := lives_of_eq fun k => by
    rw [life_of_grip (s := s) (t := { s with mutex := none, watcher := w }) rfl rfl
      (grip_of_none rfl) k,
      life, grip_of_watcher hm, hgrip]
  refine ⟨⟨by simp [hafter], fun c => ?_, hs.launched, hs.current, hlives.sane hs⟩, hlives⟩
  have hnot := hs.caller c
  simp only [hm] at hnot
  exact iff_of_false nofun fun h => nomatch hnot.2 h

theorem Ordered.watcher_grip (hs : s.Ordered) {w : Watcher} (hbefore : s.watcher.holds = true)
    (hafter : w.holds = true) {l : List (τ × TaskPtr)} {k : TaskPtr}
    (hother : ∀ k', k ≠ k' → gripOn w.grip k' = gripOn s.watcher.grip k')
    (hself : s.life k = { s.life k with grip := gripOn w.grip k } ∨
      Life.Step (s.life k) { s.life k with grip := gripOn w.grip k }) :
    Ordered { s with taskList := l, watcher := w } ∧
      Lives s { s with taskList := l, watcher := w } := by
  have hm : s.mutex = some .watcher := hs.watcher.2 hbefore
  have hlife : ∀ k, life { s with taskList := l, watcher := w } k =
      { s.life k with grip := gripOn w.grip k } :=
    life_of_grip rfl rfl (grip_of_watcher hm)
  have hlives : Lives s { s with taskList := l, watcher := w } := fun k' => by
    rw [hlife]
    by_cases hk : k = k'
    · subst hk
      exact hself.imp_left Eq.symm
    · exact .inl (by rw [hother k' hk, life, grip_of_watcher hm])
  exact ⟨hs.watcher_move hbefore hafter hlives, hlives⟩

theorem Ordered.watcher_on (hs : s.Ordered) {w : Watcher} (hbefore : s.watcher.holds = true)
    (hgrip : s.watcher.grip = none) (hafter : w.holds = true) (hgrip' : w.grip = none)
    {l : List (τ × TaskPtr)} :
    Ordered { s with taskList := l, watcher := w } ∧
      Lives s { s with taskList := l, watcher := w } := by
  have hm : s.mutex = some .watcher := hs.watcher.2 hbefore
  refine hs.watcher_grip (k := 0) hbefore hafter (fun _ _ => by rw [hgrip, hgrip']) (.inl ?_)
  rw [life, grip_of_watcher hm, hgrip, hgrip']

@[simp] theorem tasks_modifyTask_self (k : TaskPtr) (f : Task τ → Task τ) :
    (s.modifyTask k f).tasks k = f (s.tasks k) := Function.update_self ..

theorem tasks_modifyTask_of_ne {k k' : TaskPtr} (h : k ≠ k') (f : Task τ → Task τ) :
    (s.modifyTask k f).tasks k' = s.tasks k' := Function.update_of_ne h.symm ..

theorem future_modifyTask (k k' : TaskPtr) {f : Task τ → Task τ}
    (hf : ∀ x, (f x).future = x.future) :
    ((s.modifyTask k f).tasks k').future = (s.tasks k').future := by
  by_cases hk : k = k'
  · subst hk
    rw [tasks_modifyTask_self, hf]
  · rw [tasks_modifyTask_of_ne hk]

/-- The tasks when one of them is changed by the owner of the mutex. -/
theorem life_of_modify {k : TaskPtr} {f : Task τ → Task τ} (hf : ∀ x, (f x).future = x.future)
    {g : Option (TaskPtr × Grip)} (htasks : t.tasks = (s.modifyTask k f).tasks)
    (hbodies : t.bodies = s.bodies) (hgrip : t.grip = g) :
    t.life k = { s.life k with
        status := (f (s.tasks k)).status
        promise := (f (s.tasks k)).promise
        grip := gripOn g k } ∧
      ∀ k', k ≠ k' → t.life k' = { s.life k' with grip := gripOn g k' } := by
  constructor
  · simp [life, pcOf, htasks, hbodies, hgrip, hf]
  · intro k' hk
    simp [life, pcOf, htasks, hbodies, hgrip, tasks_modifyTask_of_ne hk]

theorem Ordered.watcher_store (hs : s.Ordered) {i : Nat} {k : TaskPtr}
    (hw : s.watcher = .store i k) :
    Ordered { s.setStatus k .pending with watcher := .launch i k } ∧
      Lives s { s.setStatus k .pending with watcher := .launch i k } := by
  have hm : s.mutex = some .watcher := hs.watcher.2 (by rw [hw]; rfl)
  have hgrip : (s.life k).grip = some .store := by
    rw [life, grip_of_watcher hm, hw]
    exact gripOn_some_self k _
  obtain ⟨hself, hother⟩ := life_of_modify (s := s) (k := k)
    (f := fun x => { x with status := .pending })
    (t := { s.setStatus k .pending with watcher := .launch i k }) (fun _ => rfl) rfl rfl
    (grip_of_watcher hm)
  have hlives : Lives s { s.setStatus k .pending with watcher := .launch i k } := by
    refine LivesOnly.lives (k := k) ⟨?_, fun k' hk => ?_⟩
    · have hlaunch : gripOn (Watcher.launch i k).grip k = some .launch := gripOn_some_self k _
      rw [hself, hlaunch]
      exact .store hgrip
    · rw [hother k' hk, life, grip_of_watcher hm, hw]
      exact congrArg (Life.mk _ _ _) ((gripOn_of_ne hk _).trans (gripOn_of_ne hk _).symm)
  have hfuture : ∀ k', ((s.setStatus k .pending).tasks k').future = (s.tasks k').future :=
    fun k' => future_modifyTask k k' fun _ => rfl
  refine ⟨hs.of_same rfl (by rw [hw]; rfl) (fun _ => Iff.rfl) (fun k' b hb => ?_)
    (fun b x hb hx => ?_) hlives, hlives⟩
  · exact hs.launched k' b ((hfuture k').symm.trans hb)
  · exact (hfuture x.task).trans (hs.current b x hb hx)

theorem Ordered.watcher_launch (hs : s.Ordered) {i : Nat} {k : TaskPtr}
    (hw : s.watcher = .launch i k) (hmutex : t.mutex = s.mutex) (hcalls : t.calls = s.calls)
    (htasks : t.tasks =
      (s.modifyTask k fun x => { x with future := some s.bodies.length }).tasks)
    (hbodies : t.bodies = s.bodies ++ [{ task := k }]) (hwatcher : t.watcher = .scan (i + 1)) :
    t.Ordered ∧ Lives s t := by
  have hm : s.mutex = some .watcher := hs.watcher.2 (by rw [hw]; rfl)
  have hgrip : (s.life k).grip = some .launch := by
    rw [life, grip_of_watcher hm, hw]
    exact gripOn_some_self k _
  have hself : t.tasks k = { s.tasks k with future := some s.bodies.length } := by
    rw [htasks, tasks_modifyTask_self]
  have hother : ∀ k', k ≠ k' → t.tasks k' = s.tasks k' := fun k' hk => by
    rw [htasks, tasks_modifyTask_of_ne hk]
  have htgrip : t.grip = none := by
    rw [grip_of_watcher (hmutex.trans hm), hwatcher]
    rfl
  have hnew : t.bodies[s.bodies.length]? = some { task := k } := by simp [hbodies]
  have hold : ∀ {b x}, s.bodies[b]? = some x → t.bodies[b]? = some x := fun {b x} hb => by
    rw [hbodies, List.getElem?_append_left (List.getElem?_eq_some_iff.1 hb).1, hb]
  have hlives : Lives s t := by
    refine LivesOnly.lives (k := k) ⟨?_, fun k' hk => ?_⟩
    · have hpc : t.pcOf k = .getFuture := by simp [pcOf, hself, hnew]
      have hlife : t.life k = { s.life k with pc := .getFuture, grip := none } := by
        simp [life, hpc, hself, htgrip]
      rw [hlife]
      exact .launch hgrip
    · have hpc : t.pcOf k' = s.pcOf k' := by
        unfold pcOf
        rw [hother k' hk]
        cases hb : (s.tasks k').future with
        | none => rfl
        | some b =>
            obtain ⟨x, hx, -⟩ := hs.launched k' b hb
            simp only [hold hx, hx]
      have hnone : gripOn s.watcher.grip k' = none := by
        rw [hw]
        exact gripOn_of_ne hk _
      simp [life, hpc, hother k' hk, htgrip, grip_of_watcher hm, hnone]
  refine ⟨hs.of_same hmutex (by rw [hwatcher, hw]; rfl) (fun c => by rw [Owns, hcalls, Owns])
    (fun k' b hb => ?_) (fun b x hb hx => ?_) hlives, hlives⟩
  · by_cases hk : k = k'
    · subst hk
      rw [hself] at hb
      cases hb
      exact ⟨_, hnew, rfl⟩
    · rw [hother k' hk] at hb
      obtain ⟨x, hx, htask⟩ := hs.launched k' b hb
      exact ⟨x, hold hx, htask⟩
  · rw [hbodies, List.getElem?_append] at hb
    split at hb
    · -- the body of `k` would have kept the watcher waiting
      have hfuture := hs.current b x hb hx
      by_cases hk : k = x.task
      · have hidle : (s.life k).pc = .done := (hs.sane k).idle (.inr hgrip)
        have hpc : (s.life k).pc = x.pc := hk ▸ pcOf_of_body hs hb hx
        exact absurd (hpc.symm.trans hidle) hx
      · rw [hother _ hk, hfuture]
    · next hlt =>
        obtain ⟨hzero, rfl⟩ : b - s.bodies.length = 0 ∧ x = { task := k } := by
          simpa [List.getElem?_singleton, eq_comm] using hb
        rw [hself]
        exact congrArg some (Nat.le_antisymm (Nat.not_lt.1 hlt) (Nat.le_of_sub_eq_zero hzero))

theorem ordered_watcherStep (hs : s.Ordered) (h : s.watcherStep = some t) :
    t.Ordered ∧ Lives s t := by
  unfold watcherStep at h
  cases hw : s.watcher with
  | loop =>
      simp only [hw] at h
      cases h
      exact hs.watcher_free (by rw [hw]; rfl) (by split <;> rfl)
  | lock =>
      simp only [hw] at h
      obtain ⟨hm, ht⟩ := Option.ite_none_right_eq_some.1 h
      cases ht
      exact hs.watcher_lock hm rfl rfl
  | scan i =>
      have hm : s.mutex = some .watcher := hs.watcher.2 (by rw [hw]; rfl)
      simp only [hw] at h
      cases hi : s.taskList[i]? with
      | none =>
          simp only [hi] at h
          cases h
          exact hs.watcher_on (by rw [hw]; rfl) (by rw [hw]; rfl) rfl rfl
      | some e =>
          simp only [hi] at h
          cases h
          by_cases hstatus : (s.tasks e.2).status = .queuedUp
          · rw [if_pos hstatus]
            refine hs.watcher_grip (k := e.2) (by rw [hw]; rfl) rfl (fun k' hk => ?_) (.inr ?_)
            · rw [hw]
              exact gripOn_of_ne hk _
            · have hgrip : (s.life e.2).grip = none := by
                rw [life, grip_of_watcher hm, hw]
                rfl
              simpa [Watcher.grip] using Life.Step.readQueued hgrip hstatus
          · rw [if_neg hstatus]
            exact hs.watcher_on (by rw [hw]; rfl) (by rw [hw]; rfl) rfl rfl
  | futureWait i k =>
      have hm : s.mutex = some .watcher := hs.watcher.2 (by rw [hw]; rfl)
      simp only [hw] at h
      obtain ⟨hready, ht⟩ := Option.ite_none_right_eq_some.1 h
      cases ht
      refine hs.watcher_grip (k := k) (by rw [hw]; rfl) rfl (fun k' hk => ?_) (.inr ?_)
      · rw [hw]
        exact (gripOn_of_ne hk _).trans (gripOn_of_ne hk _).symm
      · have hgrip : (s.life k).grip = some .queued := by
          rw [life, grip_of_watcher hm, hw]
          exact gripOn_some_self k _
        simpa [Watcher.grip] using Life.Step.waited hgrip (pcOf_of_ready hready)
  | store i k =>
      simp only [hw] at h
      cases h
      exact hs.watcher_store hw
  | launch i k =>
      simp only [hw] at h
      cases h
      exact hs.watcher_launch hw rfl rfl rfl rfl rfl
  | scanStopped i k =>
      simp only [hw] at h
      split at h
      · cases h
        exact hs.watcher_on (by rw [hw]; rfl) (by rw [hw]; rfl) rfl rfl
      · cases h
        exact hs.watcher_on (by rw [hw]; rfl) (by rw [hw]; rfl) rfl rfl
  | test =>
      simp only [hw] at h
      cases h
      exact hs.watcher_on (by rw [hw]; rfl) (by rw [hw]; rfl) (by split <;> rfl) (by split <;> rfl)
  | count i n =>
      simp only [hw] at h
      cases hi : s.taskList[i]? with
      | none =>
          simp only [hi] at h
          cases h
          exact hs.watcher_on (by rw [hw]; rfl) (by rw [hw]; rfl) (by split <;> rfl)
            (by split <;> rfl)
      | some e =>
          simp only [hi] at h
          cases h
          exact hs.watcher_on (by rw [hw]; rfl) (by rw [hw]; rfl) rfl rfl
  | wait =>
      simp only [hw] at h
      cases h
      exact hs.watcher_unlock (by rw [hw]; rfl) (by rw [hw]; rfl) rfl
  | blocked =>
      simp only [hw] at h
      exact nomatch h
  | relock =>
      simp only [hw] at h
      obtain ⟨hm, ht⟩ := Option.ite_none_right_eq_some.1 h
      cases ht
      exact hs.watcher_lock hm rfl rfl
  | unlock =>
      simp only [hw] at h
      cases h
      exact hs.watcher_unlock (by rw [hw]; rfl) (by rw [hw]; rfl) rfl
  | done =>
      simp only [hw] at h
      exact nomatch h

theorem Ordered.body (hs : s.Ordered) {b : BodyPtr} {x : Body} (hb : s.bodies[b]? = some x)
    (hx : x.pc ≠ .done) (f : Task τ → Task τ) (hf : ∀ y, (f y).future = y.future) {pc : BodyPc}
    (hmutex : t.mutex = s.mutex) (hcalls : t.calls = s.calls)
    (hholds : t.watcher.holds = s.watcher.holds) (hgrip : t.watcher.grip = s.watcher.grip)
    (htasks : t.tasks = (s.modifyTask x.task f).tasks)
    (hbodies : t.bodies = s.bodies.modify b fun y => { y with pc := pc })
    (hstep : Life.Step (s.life x.task) { s.life x.task with
      status := (f (s.tasks x.task)).status
      promise := (f (s.tasks x.task)).promise
      pc := pc }) : t.Ordered ∧ LivesOnly x.task s t := by
  have htgrip : t.grip = s.grip := by
    unfold grip
    rw [hmutex, hcalls, hgrip]
  have hfuture : ∀ k, (t.tasks k).future = (s.tasks k).future := fun k => by
    rw [htasks, future_modifyTask _ _ hf]
  have hself : t.bodies[b]? = some { x with pc := pc } := by simp [hbodies, hb]
  have hother : ∀ b', b ≠ b' → t.bodies[b']? = s.bodies[b']? := fun b' hne => by
    simp [hbodies, hne]
  have hlives : LivesOnly x.task s t := by
    refine ⟨?_, fun k' hk => ?_⟩
    · have hpc : t.pcOf x.task = pc := by
        simp [pcOf, hfuture, hs.current b x hb hx, hself]
      have htask : t.tasks x.task = f (s.tasks x.task) := by rw [htasks, tasks_modifyTask_self]
      have hlife : t.life x.task = { s.life x.task with
          status := (f (s.tasks x.task)).status
          promise := (f (s.tasks x.task)).promise
          pc := pc } := by simp only [life, hpc, htask, htgrip]
      rw [hlife]
      exact hstep
    · have hpc : t.pcOf k' = s.pcOf k' := by
        unfold pcOf
        rw [hfuture]
        cases hk' : (s.tasks k').future with
        | none => rfl
        | some b' =>
            obtain ⟨y, hy, htask⟩ := hs.launched k' b' hk'
            have hne : b ≠ b' := by
              rintro rfl
              rw [hb] at hy
              cases hy
              exact hk htask
            simp only [hother b' hne]
      have htask : t.tasks k' = s.tasks k' := by rw [htasks, tasks_modifyTask_of_ne hk]
      simp only [life, hpc, htask, htgrip]
  refine ⟨hs.of_same hmutex hholds (fun c => by rw [Owns, hcalls, Owns]) (fun k b' hk => ?_)
    (fun b' y hy hpc => ?_) hlives.lives, hlives⟩
  · rw [hfuture] at hk
    obtain ⟨y, hy, htask⟩ := hs.launched k b' hk
    by_cases hne : b = b'
    · subst hne
      rw [hb] at hy
      cases hy
      exact ⟨_, hself, htask⟩
    · exact ⟨y, (hother b' hne).trans hy, htask⟩
  · rw [hfuture]
    by_cases hne : b = b'
    · subst hne
      rw [hself] at hy
      cases hy
      exact hs.current b x hb hx
    · rw [hother b' hne] at hy
      exact hs.current b' y hy hpc

theorem Ordered.body_only (hs : s.Ordered) {b : BodyPtr} {x : Body}
    (hb : s.bodies[b]? = some x) (hx : x.pc ≠ .done) {pc : BodyPc}
    (hstep : Life.Step (s.life x.task) { s.life x.task with pc := pc }) :
    (s.setBody b pc).Ordered ∧ LivesOnly x.task s (s.setBody b pc) :=
  hs.body hb hx id (fun _ => rfl) rfl rfl rfl rfl (Function.update_eq_self ..).symm rfl
    hstep

theorem notifyAll_fields (s : Scheduler τ) :
    s.notifyAll.mutex = s.mutex ∧ s.notifyAll.calls = s.calls ∧
      s.notifyAll.tasks = s.tasks ∧ s.notifyAll.bodies = s.bodies ∧
      s.notifyAll.taskList = s.taskList ∧ s.notifyAll.isRunning = s.isRunning ∧
      s.notifyAll.watcher.holds = s.watcher.holds ∧
      s.notifyAll.watcher.grip = s.watcher.grip ∧ s.notifyAll.watcher ≠ .blocked := by
  unfold notifyAll
  split
  · next h => simp [h, Watcher.holds, Watcher.grip]
  · next h => simp [h]

theorem ordered_bodyStep (hs : s.Ordered) {b : BodyPtr} {outcome : Outcome}
    (h : s.bodyStep b outcome = some t) :
    ∃ x, s.bodies[b]? = some x ∧ t.Ordered ∧ LivesOnly x.task s t := by
  unfold bodyStep at h
  cases hb : s.bodies[b]? with
  | none => simp [hb] at h
  | some x =>
      simp only [hb] at h
      refine ⟨x, rfl, ?_⟩
      have hlife : x.pc ≠ .done → (s.life x.task).pc = x.pc := pcOf_of_body hs hb
      cases hx : x.pc with
      | getFuture =>
          simp only [hx] at h
          have hpc := hlife (by simp [hx])
          split at h
          · next hretrieved =>
              cases h
              exact hs.body_only hb (by simp [hx]) (.getFutureFailed (hpc.trans hx) hretrieved)
          · next hretrieved =>
              cases h
              have hnot : (s.tasks x.task).promise.retrieved = false := by simpa using hretrieved
              exact hs.body hb (by simp [hx])
                (fun y => { y with promise := { y.promise with retrieved := true } })
                (fun _ => rfl) rfl rfl rfl rfl rfl rfl (.getFuture (hpc.trans hx) hnot)
      | waitFor =>
          simp only [hx] at h
          have hpc := hlife (by simp [hx])
          cases h
          cases hvalue : (s.tasks x.task).promise.value with
          | none => exact hs.body_only hb (by simp [hx]) (.timeout (hpc.trans hx) hvalue)
          | some v =>
              exact hs.body_only hb (by simp [hx])
                (.ready (hpc.trans hx) fun hnone => nomatch hnone.symm.trans hvalue)
      | callback =>
          simp only [hx] at h
          have hpc := hlife (by simp [hx])
          obtain ⟨-, ht⟩ := Option.ite_none_right_eq_some.1 h
          cases ht
          cases outcome with
          | returned => exact hs.body_only hb (by simp [hx]) (.returned (hpc.trans hx))
          | threw => exact hs.body_only hb (by simp [hx]) (.threw (hpc.trans hx))
          | escaped => exact hs.body_only hb (by simp [hx]) (.escaped (hpc.trans hx))
      | storeDone =>
          simp only [hx] at h
          have hpc := hlife (by simp [hx])
          cases h
          exact hs.body hb (by simp [hx])
            (fun y => { y with
              status := if (s.tasks x.task).repeat_ then .queuedUp else .stopped })
            (fun _ => rfl) rfl rfl rfl rfl rfl rfl
            (.storeDone (hpc.trans hx) (by split <;> simp))
      | storeReady =>
          simp only [hx] at h
          have hpc := hlife (by simp [hx])
          cases h
          exact hs.body hb (by simp [hx])
            (fun y => { y with status := (s.tasks x.task).promise.value.getD .stopped })
            (fun _ => rfl) rfl rfl rfl rfl rfl rfl (.storeReady (hpc.trans hx))
      | swap =>
          simp only [hx] at h
          have hpc := hlife (by simp [hx])
          cases h
          exact hs.body hb (by simp [hx]) (fun y => { y with promise := {} })
            (fun _ => rfl) rfl rfl rfl rfl rfl rfl (.swap (hpc.trans hx))
      | storeFailed =>
          simp only [hx] at h
          have hpc := hlife (by simp [hx])
          cases h
          exact hs.body hb (by simp [hx]) (fun y => { y with status := .stopped })
            (fun _ => rfl) rfl rfl rfl rfl rfl rfl (.storeFailed (hpc.trans hx))
      | notify =>
          simp only [hx] at h
          have hpc := hlife (by simp [hx])
          cases h
          obtain ⟨hmutex, hcalls, htasks, hbodies, -, -, hholds, hgrip, -⟩ := s.notifyAll_fields
          exact hs.body hb (by simp [hx]) id (fun _ => rfl) hmutex hcalls hholds hgrip
            (htasks.trans (Function.update_eq_self ..).symm)
            (congrArg (fun l => l.modify b fun y => { y with pc := .done }) hbodies)
            (.notify (hpc.trans hx))
      | done =>
          simp only [hx] at h
          exact nomatch h

theorem getElem?_setCall {c : CallPtr} {op : Op τ} {pc : CallPc τ}
    (hc : s.calls[c]? = some (op, pc)) (pc' : CallPc τ) (c' : CallPtr) :
    (s.setCall c pc').calls[c']? = if c = c' then some (op, pc') else s.calls[c']? := by
  by_cases hne : c = c'
  · subst hne
    simp [setCall, hc]
  · simp [setCall, hne]

theorem owns_setCall {c : CallPtr} {op : Op τ} {pc : CallPc τ}
    (hc : s.calls[c]? = some (op, pc)) (pc' : CallPc τ) (c' : CallPtr) :
    (s.setCall c pc').Owns c' ↔ if c = c' then pc'.holds = true else s.Owns c' := by
  unfold Owns
  rw [getElem?_setCall hc]
  by_cases hne : c = c'
  · simp [hne]
  · simp [hne]

theorem owns_self {c : CallPtr} {op : Op τ} {pc : CallPc τ} (hc : s.calls[c]? = some (op, pc)) :
    s.Owns c ↔ pc.holds = true := by
  simp [Owns, hc]

/-- A call goes on with the mutex: it changes a task, but not its future, and turns to a
task or from it. -/
theorem Ordered.call_on (hs : s.Ordered) {c : CallPtr} {op : Op τ} {pc : CallPc τ}
    (hc : s.calls[c]? = some (op, pc)) (hbefore : pc.holds = true) (pc' : CallPc τ)
    (hafter : pc'.holds = true)
    (k : TaskPtr) (f : Task τ → Task τ) (hf : ∀ y, (f y).future = y.future) {g : Option Grip}
    (hg : gripOn pc'.grip k = g)
    (hother : ∀ k', k ≠ k' → gripOn pc'.grip k' = gripOn pc.grip k')
    (hmutex : t.mutex = s.mutex) (hcalls : t.calls = (s.setCall c pc').calls)
    (hwatcher : t.watcher = s.watcher) (htasks : t.tasks = (s.modifyTask k f).tasks)
    (hbodies : t.bodies = s.bodies)
    (hstep : Life.Step (s.life k) { s.life k with
      status := (f (s.tasks k)).status
      promise := (f (s.tasks k)).promise
      grip := g } ∨ (s.life k) = { s.life k with
      status := (f (s.tasks k)).status
      promise := (f (s.tasks k)).promise
      grip := g }) : t.Ordered ∧ Lives s t := by
  subst hg
  have hm : s.mutex = some (.caller c) := (hs.caller c).2 ((owns_self hc).2 hbefore)
  have htc : t.calls[c]? = some (op, pc') := by
    rw [hcalls, getElem?_setCall hc, if_pos rfl]
  have htgrip : t.grip = pc'.grip := grip_of_caller (hmutex.trans hm) htc
  obtain ⟨hself, hothers⟩ := life_of_modify hf htasks hbodies htgrip
  have hlives : Lives s t := fun k' => by
    by_cases hk : k = k'
    · subst hk
      rw [hself]
      exact hstep.symm.imp_left Eq.symm
    · rw [hothers k' hk, hother k' hk]
      exact .inl (by rw [life, grip_of_caller hm hc])
  refine ⟨hs.of_same hmutex (by rw [hwatcher]) (fun c' => ?_) (fun k' b hb => ?_)
    (fun b x hb hx => ?_) hlives, hlives⟩
  · have howns : t.Owns c' ↔ (s.setCall c pc').Owns c' := by rw [Owns, hcalls, Owns]
    rw [howns, owns_setCall hc]
    by_cases hne : c = c'
    · subst hne
      simp [hafter, owns_self hc, hbefore]
    · simp [hne]
  · rw [htasks, future_modifyTask _ _ hf] at hb
    rw [hbodies]
    exact hs.launched k' b hb
  · rw [htasks, future_modifyTask _ _ hf]
    rw [hbodies] at hb
    exact hs.current b x hb hx

theorem Ordered.call_move (hs : s.Ordered) {c : CallPtr} {op : Op τ} {pc pc' : CallPc τ}
    (hc : s.calls[c]? = some (op, pc)) (hbefore : pc.holds = true) (hgrip : pc.grip = none)
    (hafter : pc'.holds = true) (hgrip' : pc'.grip = none) {l : List (τ × TaskPtr)} :
    Ordered { s.setCall c pc' with taskList := l } ∧
      Lives s { s.setCall c pc' with taskList := l } := by
  have hm : s.mutex = some (.caller c) := (hs.caller c).2 ((owns_self hc).2 hbefore)
  refine hs.call_on hc hbefore _ hafter 0 id (fun _ => rfl) rfl (fun _ _ => by rw [hgrip, hgrip'])
    rfl rfl rfl (Function.update_eq_self ..).symm rfl (.inr ?_)
  rw [hgrip', life, grip_of_caller hm hc, hgrip]
  rfl

theorem Ordered.call_free (hs : s.Ordered) {c : CallPtr} {op : Op τ} {pc : CallPc τ}
    (hc : s.calls[c]? = some (op, pc)) (hbefore : pc.holds = false) (pc' : CallPc τ)
    (hafter : pc'.holds = false)
    (hmutex : t.mutex = s.mutex) (hcalls : t.calls = (s.setCall c pc').calls)
    (hholds : t.watcher.holds = s.watcher.holds) (hgrip : t.watcher.grip = s.watcher.grip)
    (htasks : t.tasks = s.tasks) (hbodies : t.bodies = s.bodies) : t.Ordered ∧ Lives s t := by
  have howns : ∀ c', t.Owns c' ↔ s.Owns c' := fun c' => by
    have h : t.Owns c' ↔ (s.setCall c pc').Owns c' := by rw [Owns, hcalls, Owns]
    rw [h, owns_setCall hc]
    by_cases hne : c = c'
    · subst hne
      simp [hafter, owns_self hc, hbefore]
    · simp [hne]
  have htgrip : t.grip = s.grip := by
    unfold grip
    rw [hmutex, hgrip]
    cases hm : s.mutex with
    | none => rfl
    | some th =>
        cases th with
        | watcher => rfl
        | caller c' =>
            have hne : c ≠ c' := by
              rintro rfl
              exact nomatch ((owns_self hc).1 ((hs.caller c).1 hm)).symm.trans hbefore
            simp only [hcalls, getElem?_setCall hc, if_neg hne]
  have hlives : Lives s t := lives_of_eq fun k => (life_of_grip htasks hbodies htgrip k).trans rfl
  refine ⟨hs.of_same hmutex hholds howns (fun k b hb => ?_) (fun b x hb hx => ?_) hlives, hlives⟩
  · rw [htasks] at hb
    rw [hbodies]
    exact hs.launched k b hb
  · rw [hbodies] at hb
    rw [htasks]
    exact hs.current b x hb hx

theorem Ordered.call_lock (hs : s.Ordered) {c : CallPtr} {op : Op τ} {pc pc' : CallPc τ}
    (hc : s.calls[c]? = some (op, pc)) (hafter : pc'.holds = true) (hgrip : pc'.grip = none)
    (h : s.lock c pc' = some t) : t.Ordered ∧ Lives s t := by
  obtain ⟨hm, ht⟩ := Option.ite_none_right_eq_some.1 h
  have hmutex : t.mutex = some (.caller c) := by rw [← Option.some.inj ht]
  have hcalls : t.calls = (s.setCall c pc').calls := by rw [← Option.some.inj ht]
  have htasks : t.tasks = s.tasks := by
    rw [← Option.some.inj ht]
    rfl
  have hbodies : t.bodies = s.bodies := by
    rw [← Option.some.inj ht]
    rfl
  have hwatcher : t.watcher = s.watcher := by
    rw [← Option.some.inj ht]
    rfl
  have htc : t.calls[c]? = some (op, pc') := by rw [hcalls, getElem?_setCall hc, if_pos rfl]
  have hlives : Lives s t := lives_of_eq fun k => by
    rw [life_of_grip htasks hbodies ((grip_of_caller hmutex htc).trans hgrip) k, life,
      grip_of_none hm]
  refine ⟨⟨iff_of_false (by simp [hmutex]) fun hw => ?_, fun c' => ?_, ?_, ?_,
    hlives.sane hs⟩, hlives⟩
  · rw [hwatcher] at hw
    exact nomatch hm.symm.trans (hs.watcher.2 hw)
  · have howns : t.Owns c' ↔ (s.setCall c pc').Owns c' := by rw [Owns, hcalls, Owns]
    rw [howns, owns_setCall hc, hmutex]
    by_cases hne : c = c'
    · simp [hne, hafter]
    · have hnot : ¬ s.Owns c' := fun h => nomatch hm.symm.trans ((hs.caller c').2 h)
      simp [hne, hnot]
  · rw [htasks, hbodies]
    exact hs.launched
  · rw [htasks, hbodies]
    exact hs.current

theorem Ordered.call_unlock (hs : s.Ordered) {c : CallPtr} {op : Op τ} {pc pc' : CallPc τ}
    (hc : s.calls[c]? = some (op, pc)) (hbefore : pc.holds = true) (hgrip : pc.grip = none)
    (hafter : pc'.holds = false) : (s.unlock c pc').Ordered ∧ Lives s (s.unlock c pc') := by
  have hm : s.mutex = some (.caller c) := (hs.caller c).2 ((owns_self hc).2 hbefore)
  have hlives : Lives s (s.unlock c pc') := lives_of_eq fun k => by
    rw [life_of_grip (s := s) (t := s.unlock c pc') rfl rfl (grip_of_none rfl) k, life,
      grip_of_caller hm hc, hgrip]
  refine ⟨⟨iff_of_false nofun fun hw => ?_, fun c' => ?_, hs.launched, hs.current,
    hlives.sane hs⟩, hlives⟩
  · exact nomatch hm.symm.trans (hs.watcher.2 hw)
  · have howns : (s.unlock c pc').Owns c' ↔ (s.setCall c pc').Owns c' := Iff.rfl
    rw [howns, owns_setCall hc]
    by_cases hne : c = c'
    · subst hne
      simpa [hafter] using nofun
    · have hnot : ¬ s.Owns c' := fun h => hne (by simpa [hm] using (hs.caller c').2 h)
      simpa [hne, hnot] using nofun

theorem Ordered.call (hs : s.Ordered) (op : Op τ) (hmutex : t.mutex = s.mutex)
    (hwatcher : t.watcher = s.watcher) (htasks : t.tasks = s.tasks)
    (hcalls : t.calls = s.calls ++ [(op, op.pc)])
    (hbodies : ∀ b : BodyPtr, t.bodies[b]?.map (fun x : Body => (x.task, x.pc)) =
      s.bodies[b]?.map fun x : Body => (x.task, x.pc)) :
    t.Ordered ∧ ∀ k, t.life k = s.life k := by
  have hget : ∀ c, t.calls[c]? =
      if c = s.calls.length then some (op, op.pc) else s.calls[c]? := fun c => by
    rw [hcalls]
    rcases Nat.lt_trichotomy c s.calls.length with hlt | rfl | hgt
    · rw [List.getElem?_append_left hlt, if_neg hlt.ne]
    · simp
    · rw [if_neg hgt.ne', List.getElem?_eq_none, List.getElem?_eq_none hgt.le]
      simpa using Nat.succ_le_of_lt hgt
  have howns : ∀ c, t.Owns c ↔ s.Owns c := fun c => by
    simp only [Owns, hget]
    by_cases hc : c = s.calls.length
    · subst hc
      have hpc : op.pc.holds = false := by cases op <;> rfl
      simp [hpc]
    · simp [hc]
  have hpcOf : ∀ k, t.pcOf k = s.pcOf k := fun k => by
    unfold pcOf
    rw [htasks]
    cases hk : (s.tasks k).future with
    | none => rfl
    | some b =>
        have hb := congrArg (Option.map Prod.snd) (hbodies b)
        simp only [Option.map_map, Function.comp_def] at hb
        simp only [hb]
  have hgrip : t.grip = s.grip := by
    unfold grip
    rw [hmutex, hwatcher]
    cases hm : s.mutex with
    | none => rfl
    | some th =>
        cases th with
        | watcher => rfl
        | caller c =>
            obtain ⟨op', pc, hc, -⟩ := (hs.caller c).1 hm
            have hne : c ≠ s.calls.length := (List.getElem?_eq_some_iff.1 hc).1.ne
            simp only [hget, if_neg hne]
  have hlives : ∀ k, t.life k = s.life k := fun k => by simp only [life, hpcOf, hgrip, htasks]
  refine ⟨hs.of_same hmutex (by rw [hwatcher]) howns (fun k b hk => ?_) (fun b x hb hx => ?_)
    (lives_of_eq hlives), hlives⟩
  · rw [htasks] at hk
    obtain ⟨x, hx, htask⟩ := hs.launched k b hk
    have hb := hbodies b
    rw [hx] at hb
    obtain ⟨y, hy, hyx⟩ := Option.map_eq_some_iff.1 hb
    exact ⟨y, hy, (Prod.mk.inj hyx).1.trans htask⟩
  · have hb' := (hbodies b).symm
    rw [hb] at hb'
    obtain ⟨y, hy, hyx⟩ := Option.map_eq_some_iff.1 hb'
    obtain ⟨htask, hpc⟩ := Prod.mk.inj hyx
    rw [htasks, ← htask]
    exact hs.current b y hy (hpc ▸ hx)

theorem ordered_callFrom (hs : s.Ordered) {b : BodyPtr} {op : Op τ}
    (h : s.callFrom b op = some t) : t.Ordered ∧ ∀ k, t.life k = s.life k := by
  unfold callFrom at h
  cases hb : s.bodies[b]? with
  | none => simp [hb] at h
  | some x =>
      simp only [hb] at h
      obtain ⟨-, ht⟩ := Option.ite_none_right_eq_some.1 h
      cases ht
      refine hs.call op rfl rfl rfl rfl fun b' => ?_
      by_cases hne : b = b'
      · subst hne
        simp [hb]
      · simp [hne]

variable [LinearOrder τ]

theorem ordered_callStep (hs : s.Ordered) {c : CallPtr} (h : s.callStep c = some t) :
    t.Ordered ∧ Lives s t := by
  unfold callStep at h
  cases hc : s.calls[c]? with
  | none => simp [hc] at h
  | some e =>
      obtain ⟨op, pc⟩ := e
      simp only [hc] at h
      have hlife : pc.holds = true → ∀ k, (s.life k).grip = gripOn pc.grip k := fun hpc k => by
        rw [life, grip_of_caller ((hs.caller c).2 ((owns_self hc).2 hpc)) hc]
      have hafter : ∀ (after : After τ) (k : TaskPtr) (g : Grip) k', k ≠ k' →
          gripOn after.pc.grip k' = gripOn (some (k, g)) k' := fun after k g k' hk => by
        rw [After.grip_pc, gripOn_none, gripOn_of_ne hk]
      cases pc with
      | scheduleLock task => exact hs.call_lock hc rfl rfl h
      | scheduleEmplace task =>
          simp only at h
          split at h
          · cases h
            exact hs.call_move hc rfl rfl rfl rfl
          · cases h
            exact hs.call_move hc rfl rfl rfl rfl
      | stopTaskLock type => exact hs.call_lock hc rfl rfl h
      | stopTaskFind type =>
          simp only at h
          split at h
          · cases h
            exact hs.call_move hc rfl rfl rfl rfl
          · cases h
            exact hs.call_move hc rfl rfl rfl rfl
      | stopTaskErase type =>
          cases h
          exact hs.call_move hc rfl rfl rfl rfl
      | unlockNotify =>
          cases h
          exact hs.call_unlock hc rfl rfl rfl
      | notify =>
          cases h
          obtain ⟨hmutex, hcalls, htasks, hbodies, -, -, hholds, hgrip, -⟩ := s.notifyAll_fields
          exact hs.call_free hc rfl (.done true) rfl hmutex
            (congrArg (fun l => l.modify c fun x => (x.1, .done true)) hcalls) hholds hgrip htasks
            hbodies
      | stopRead =>
          cases h
          exact hs.call_free hc rfl _ (by split <;> rfl) rfl rfl rfl rfl rfl rfl
      | stopStore =>
          cases h
          exact hs.call_free hc rfl .stopLock rfl rfl rfl rfl rfl rfl rfl
      | stopLock => exact hs.call_lock hc rfl rfl h
      | stopLoop =>
          cases h
          exact hs.call_move hc rfl rfl (After.holds_pc _) (After.grip_pc _)
      | stopClear =>
          cases h
          exact hs.call_move hc rfl rfl rfl rfl
      | stopUnlock =>
          cases h
          exact hs.call_unlock hc rfl rfl rfl
      | stopNotify =>
          cases h
          obtain ⟨hmutex, hcalls, htasks, hbodies, -, -, hholds, hgrip, -⟩ := s.notifyAll_fields
          exact hs.call_free hc rfl .stopJoin rfl hmutex
            (congrArg (fun l => l.modify c fun x => (x.1, .stopJoin)) hcalls) hholds hgrip htasks
            hbodies
      | stopJoin =>
          obtain ⟨-, ht⟩ := Option.ite_none_right_eq_some.1 h
          cases ht
          exact hs.call_free hc rfl (.done true) rfl rfl rfl rfl rfl rfl rfl
      | statusRead k after =>
          have hgrip := hlife rfl k
          by_cases hstatus : (s.tasks k).status = .pending
          · simp only [hstatus, ne_eq, not_true_eq_false, if_false] at h
            cases h
            exact hs.call_on hc rfl (.setValue k after) rfl k id (fun _ => rfl)
              (gripOn_some_self k _) (fun k' hk => gripOn_of_ne hk _) rfl rfl rfl
              (Function.update_eq_self ..).symm rfl (.inl (.readPending hgrip hstatus))
          · simp only [hstatus, ne_eq, not_false_eq_true, if_true] at h
            cases h
            exact hs.call_on hc rfl (.statusStore k after) rfl k id (fun _ => rfl)
              (gripOn_some_self k _) (fun k' hk => gripOn_of_ne hk _) rfl rfl rfl
              (Function.update_eq_self ..).symm rfl (.inl (.readOther hgrip hstatus))
      | statusStore k after =>
          have hgrip : (s.life k).grip = some .mark := (hlife rfl k).trans (gripOn_some_self k _)
          cases h
          exact hs.call_on hc rfl _ (After.holds_pc _) k (fun y => { y with status := .stopped })
            (fun _ => rfl) (by rw [After.grip_pc, gripOn_none]) (hafter after k .mark) rfl rfl rfl
            rfl rfl (.inl (.mark hgrip))
      | setValue k after =>
          have hgrip : (s.life k).grip = some .set := (hlife rfl k).trans (gripOn_some_self k _)
          simp only at h
          split at h
          · next hvalue =>
              cases h
              exact hs.call_on hc rfl (.unlockReturn false) rfl k id (fun _ => rfl)
                (gripOn_none k) (fun k' hk => (gripOn_of_ne hk _).symm) rfl rfl rfl
                (Function.update_eq_self ..).symm rfl
                (.inl (.setFailed hgrip (Option.isSome_iff_ne_none.1 hvalue)))
          · next hvalue =>
              cases h
              have hnone : (s.tasks k).promise.value = none := by simpa using hvalue
              exact hs.call_on hc rfl (.futureWait k after) rfl k
                (fun y => { y with promise := { y.promise with value := some .stopped } })
                (fun _ => rfl) (gripOn_some_self k _)
                (fun k' hk => (gripOn_of_ne hk _).trans (gripOn_of_ne hk _).symm) rfl rfl rfl rfl
                rfl (.inl (.setValue hgrip hnone))
      | futureWait k after =>
          have hgrip : (s.life k).grip = some .await := (hlife rfl k).trans (gripOn_some_self k _)
          obtain ⟨hready, ht⟩ := Option.ite_none_right_eq_some.1 h
          cases ht
          exact hs.call_on hc rfl _ (After.holds_pc _) k id (fun _ => rfl)
            (by rw [After.grip_pc, gripOn_none]) (hafter after k .await) rfl rfl rfl
            (Function.update_eq_self ..).symm rfl (.inl (.awaited hgrip (pcOf_of_ready hready)))
      | unlockReturn normal =>
          cases h
          exact hs.call_unlock hc rfl rfl rfl
      | done normal => exact nomatch h

/-- The owner of the mutex is where it owns it, and each task goes one step of its life
or none. -/
theorem ordered_step (hs : s.Ordered) {e : SchedulerEvent τ} (h : s.step e = some t) :
    t.Ordered ∧ Lives s t := by
  cases e with
  | watcher => exact ordered_watcherStep hs h
  | wakeUp =>
      obtain ⟨hw, ht⟩ := Option.ite_none_right_eq_some.1 h
      cases ht
      exact hs.watcher_free (by rw [hw]; rfl) rfl
  | body b outcome =>
      obtain ⟨x, -, ht, hlives⟩ := ordered_bodyStep hs h
      exact ⟨ht, hlives.lives⟩
  | call op =>
      cases h
      obtain ⟨ht, hlives⟩ := hs.call (t := s.call op) op rfl rfl rfl rfl fun _ => rfl
      exact ⟨ht, lives_of_eq hlives⟩
  | callFrom b op =>
      obtain ⟨ht, hlives⟩ := ordered_callFrom hs h
      exact ⟨ht, lives_of_eq hlives⟩
  | caller c => exact ordered_callStep hs h

theorem ordered_of_reachable (h : system.Reachable s) : s.Ordered := by
  refine h.invariant (I := Ordered) (fun _ h => ordered_of_constructed h) ?_
  intro s e t hs _ hstep
  exact (ordered_step hs hstep).1

end Scheduler

end Scheduling
