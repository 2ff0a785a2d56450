import BoostSamples.Transition.System
import BoostSamples.Watchdog.Alarm

/-!
# The deadlines of connection attempts

`Connect`, `DoDirect` and `DoProxy` give each session they start a deadline, once for
the resolver and once more for the connection; the handler of a deadline that has passed
stops the session. `async_connect` opens a socket that is closed, so a session that was
stopped while its address was resolved is connected all the same. The end of an attempt
cancels the deadline, but does not set it back: a handler that ran late could stop a
session long after it was connected. `deadline_exact` says what holds as long as every
handler that can run does so before the clock moves on. The session of an attempt that
has failed is destroyed with the last handler that holds it, which is left out.
-/

namespace OpenNat

open Transition Watchdog

/-- The function that starts the attempt: `Connect`, `DoDirect` or `DoProxy`. -/
inductive Purpose
  | stun
  | direct
  | proxy
  deriving DecidableEq, Repr

/-- How far an attempt has got. `refused` is a session of `Connect` that the registry has
refused. -/
inductive DialStage
  | resolving
  | connecting
  | refused
  | added
  | failed
  deriving DecidableEq, Repr

/-- The deadline is still going to stop the session. -/
def DialStage.IsPending (stage : DialStage) : Prop :=
  stage = .resolving ∨ stage = .connecting ∨ stage = .refused

/-- An attempt: its session's socket and deadline, and the clock. `since` is when the
deadline was set, `settled` when it was cancelled because the attempt had ended. -/
structure Dial where
  purpose : Purpose
  stage : DialStage := .resolving
  isOpen : Bool := true
  deadline : Alarm
  now : ℕ
  since : ℕ
  settled : Option ℕ := none
  deriving DecidableEq, Repr

/-- What can happen: the resolver, the connection or a wait on the deadline ends, the
owner of a session that was added removes it, or time passes. -/
inductive DialEvent
  | resolved (ok : Bool)
  | connected (added : Bool)
  | notConnected
  | handle (j : ℕ)
  | waitFailed (j : ℕ)
  | remove
  | tick
  deriving DecidableEq, Repr

namespace Dial

/-- `Session::DEADLINE`, in seconds. -/
def seconds : ℕ := 5

def restart (x : Dial) : Dial :=
  { x with deadline := (x.deadline.set x.now seconds).wait, since := x.now }

def start (purpose : Purpose) (now : ℕ) : Dial :=
  restart { purpose := purpose, deadline := {}, now := now, since := now }

def stop (x : Dial) : Dial :=
  if x.isOpen then { x with isOpen := false, deadline := x.deadline.cancel } else x

def settle (x : Dial) (stage : DialStage) : Dial :=
  { x with stage := stage, deadline := x.deadline.cancel, settled := some x.now }

/-- The handler of the connection without an error. A session that is refused leaves the
handler of `Connect` at once, and is an exception in the other two. -/
def handleConnect (x : Dial) (added : Bool) : Dial :=
  if added then x.settle .added
  else
    match x.purpose with
    | .stun => { x with stage := .refused }
    | .direct | .proxy => x.settle .failed

def handleDeadlineTimeout (x : Dial) : Dial := if x.deadline.Expired x.now then x.stop else x

def step (x : Dial) : DialEvent → Option Dial
  | .resolved ok =>
      if x.stage = .resolving then
        if ok then some { x.restart with stage := .connecting, isOpen := true }
        else some (x.settle .failed)
      else none
  | .connected added => if x.stage = .connecting then some (x.handleConnect added) else none
  | .notConnected => if x.stage = .connecting then some (x.settle .failed) else none
  | .handle j =>
      if x.deadline.CanRun x.now j then
        some { x with deadline := x.deadline.take j }.handleDeadlineTimeout
      else none
  | .waitFailed j =>
      if j < x.deadline.waits.length then some { x with deadline := x.deadline.take j } else none
  | .remove => if x.stage = .added then some x.stop else none
  | .tick => some { x with now := x.now + 1 }

def system : System Dial DialEvent where
  init x := ∃ purpose now, x = start purpose now
  step := step

/-- Time passes only when no handler can run, neither of the deadline nor of a connection
whose socket was closed, and no wait ends with an error of its own. -/
def Prompt (x : Dial) : DialEvent → Prop
  | .tick => x.deadline.Idle x.now ∧ (x.stage = .connecting → x.isOpen)
  | .waitFailed _ => False
  | _ => True

instance (x : Dial) (e : DialEvent) : Decidable (x.Prompt e) := by
  unfold Prompt
  split <;> infer_instance

structure OnTime (x : Dial) : Prop where
  expiresAt : x.deadline.expiresAt = some (x.since + seconds)
  /-- Nobody waits for a deadline that has passed. -/
  le : x.deadline.waits ≠ [] → x.now ≤ x.since + seconds
  pending : x.settled = none ↔ x.stage.IsPending
  /-- The attempt has just ended if its deadline is still waited for. -/
  settled : ∀ time ∈ x.settled, (x.deadline.waits ≠ [] → x.now = time) ∧
    ∀ cancelled ∈ x.deadline.waits, cancelled = true
  watched : x.stage.IsPending → x.isOpen → false ∈ x.deadline.waits
  closed : x.stage.IsPending → x.isOpen = false → x.since + seconds ≤ x.now
  connecting : x.stage = .connecting → x.now ≤ x.since + seconds

variable {x y : Dial}

theorem OnTime.not_isPending_of_settled {time : ℕ} (h : x.OnTime)
    (hsettled : x.settled = some time) : ¬ x.stage.IsPending := fun hpending => by
  have hnone := h.pending.2 hpending
  rw [hsettled] at hnone
  cases hnone

theorem OnTime.start (purpose : Purpose) (now : ℕ) : (start purpose now).OnTime where
  expiresAt := rfl
  le _ := Nat.le_add_right now seconds
  pending := ⟨fun _ => .inl rfl, fun _ => rfl⟩
  settled time htime := by cases htime
  watched _ _ := Alarm.mem_wait _
  closed _ hclosed := by cases hclosed
  connecting hstage := by cases hstage

theorem OnTime.resolved (h : x.OnTime) (hstage : x.stage = .resolving) :
    OnTime { x.restart with stage := .connecting, isOpen := true } where
  expiresAt := rfl
  le _ := Nat.le_add_right x.now seconds
  pending := ⟨fun _ => .inr (.inl rfl), fun _ => h.pending.2 (.inl hstage)⟩
  settled time htime := absurd (.inl hstage) (h.not_isPending_of_settled htime)
  watched _ _ := Alarm.mem_wait _
  closed _ hclosed := by cases hclosed
  connecting _ := Nat.le_add_right x.now seconds

theorem OnTime.settle (h : x.OnTime) {stage : DialStage} (hstage : ¬ stage.IsPending)
    (hnot : stage ≠ .connecting) : (x.settle stage).OnTime where
  expiresAt := h.expiresAt
  le hwaits := h.le fun hnil => hwaits (Alarm.waits_cancel_eq_nil.2 hnil)
  pending := ⟨fun hnone => (by cases hnone), fun hpending => absurd hpending hstage⟩
  settled time htime := by
    cases htime
    exact ⟨fun _ => rfl, fun _ hmem => Alarm.mem_cancel hmem⟩
  watched hpending := absurd hpending hstage
  closed hpending := absurd hpending hstage
  connecting hconnecting := absurd hconnecting hnot

theorem OnTime.refused (h : x.OnTime) (hstage : x.stage = .connecting) :
    OnTime { x with stage := .refused } where
  expiresAt := h.expiresAt
  le := h.le
  pending := ⟨fun _ => .inr (.inr rfl), fun _ => h.pending.2 (.inr (.inl hstage))⟩
  settled := h.settled
  watched _ := h.watched (.inr (.inl hstage))
  closed _ := h.closed (.inr (.inl hstage))
  connecting hstage := by cases hstage

theorem OnTime.handleConnect (h : x.OnTime) (hstage : x.stage = .connecting) (added : Bool) :
    (x.handleConnect added).OnTime := by
  have hadded : ¬ DialStage.IsPending .added := by simp [DialStage.IsPending]
  have hfailed : ¬ DialStage.IsPending .failed := by simp [DialStage.IsPending]
  rw [Dial.handleConnect]
  split
  · exact h.settle hadded (by decide)
  · split
    · exact h.refused hstage
    · exact h.settle hfailed (by decide)
    · exact h.settle hfailed (by decide)

theorem OnTime.stop (h : x.OnTime)
    (hstop : x.stage.IsPending → x.since + seconds ≤ x.now) : x.stop.OnTime := by
  rw [Dial.stop]
  split
  · exact {
      expiresAt := h.expiresAt
      le := fun hwaits => h.le fun hnil => hwaits (Alarm.waits_cancel_eq_nil.2 hnil)
      pending := h.pending
      settled := fun time htime =>
        ⟨fun hwaits => (h.settled time htime).1 fun hnil =>
          hwaits (Alarm.waits_cancel_eq_nil.2 hnil), fun _ hmem => Alarm.mem_cancel hmem⟩
      watched := fun _ hopen => by cases hopen
      closed := fun hpending _ => hstop hpending
      connecting := h.connecting }
  · exact h

theorem waits_ne_nil_of_take {j : ℕ} (h : (x.deadline.take j).waits ≠ []) :
    x.deadline.waits ≠ [] := by
  intro hnil
  rw [Alarm.take, hnil] at h
  exact h rfl

theorem OnTime.take (h : x.OnTime) {j : ℕ}
    (hwatched : x.stage.IsPending → x.isOpen → false ∈ (x.deadline.take j).waits) :
    OnTime { x with deadline := x.deadline.take j } where
  expiresAt := h.expiresAt
  le hwaits := h.le (waits_ne_nil_of_take hwaits)
  pending := h.pending
  settled time htime :=
    ⟨fun hwaits => (h.settled time htime).1 (waits_ne_nil_of_take hwaits),
      fun cancelled hmem => (h.settled time htime).2 cancelled (Alarm.mem_of_mem_take hmem)⟩
  watched := hwatched
  closed := h.closed
  connecting := h.connecting

theorem OnTime.tick (h : x.OnTime) (hidle : x.deadline.Idle x.now)
    (hconnecting : x.stage = .connecting → x.isOpen) : OnTime { x with now := x.now + 1 } := by
  have hbefore : ∀ cancelled ∈ x.deadline.waits, x.now < x.since + seconds := by
    intro cancelled hmem
    have hnot := (hidle.eq_false hmem).2
    rw [Alarm.expired_iff h.expiresAt] at hnot
    exact Nat.lt_of_not_le hnot
  exact {
    expiresAt := h.expiresAt
    le := fun hwaits => by
      obtain ⟨cancelled, hmem⟩ := List.exists_mem_of_ne_nil _ hwaits
      exact hbefore cancelled hmem
    pending := h.pending
    settled := fun time htime => by
      have hall := (h.settled time htime).2
      refine ⟨fun hwaits => ?_, hall⟩
      obtain ⟨cancelled, hmem⟩ := List.exists_mem_of_ne_nil _ hwaits
      have hfalse := (hidle.eq_false hmem).1
      rw [hall cancelled hmem] at hfalse
      cases hfalse
    watched := h.watched
    closed := fun hpending hclosed => Nat.le_succ_of_le (h.closed hpending hclosed)
    connecting := fun hstage =>
      hbefore false (h.watched (.inr (.inl hstage)) (hconnecting hstage)) }

theorem stop_take (x : Dial) (j : ℕ) :
    stop { x with deadline := x.deadline.take j } =
      { x.stop with deadline := x.stop.deadline.take j } := by
  rw [Dial.stop, Dial.stop]
  split
  · rw [Alarm.cancel_take]
  · rfl

theorem OnTime.handle (h : x.OnTime) {j : ℕ} (hrun : x.deadline.CanRun x.now j) :
    (handleDeadlineTimeout { x with deadline := x.deadline.take j }).OnTime := by
  have hexpired : (x.deadline.take j).Expired x.now ↔ x.since + seconds ≤ x.now :=
    Alarm.expired_iff h.expiresAt
  rw [handleDeadlineTimeout]
  split
  · next hnow =>
      have hstop := h.stop fun _ => hexpired.1 hnow
      rw [stop_take]
      refine hstop.take fun _ hopen => ?_
      rw [Dial.stop] at hopen
      split at hopen
      · cases hopen
      · next hclosed => exact absurd hopen hclosed
  · next hnot =>
      exact h.take fun hpending hopen => Alarm.mem_take hrun hnot (h.watched hpending hopen)

theorem OnTime.step (h : x.OnTime) {e : DialEvent} (he : x.Prompt e) (hstep : x.step e = some y) :
    y.OnTime := by
  have hfailed : ¬ DialStage.IsPending .failed := by simp [DialStage.IsPending]
  cases e with
  | resolved ok =>
      obtain ⟨hstage, hstep⟩ := Option.ite_none_right_eq_some.1 hstep
      split at hstep
      · cases hstep
        exact h.resolved hstage
      · cases hstep
        exact h.settle hfailed (by decide)
  | connected added =>
      obtain ⟨hstage, hstep⟩ := Option.ite_none_right_eq_some.1 hstep
      cases hstep
      exact h.handleConnect hstage added
  | notConnected =>
      obtain ⟨-, hstep⟩ := Option.ite_none_right_eq_some.1 hstep
      cases hstep
      exact h.settle hfailed (by decide)
  | handle j =>
      obtain ⟨hrun, hstep⟩ := Option.ite_none_right_eq_some.1 hstep
      cases hstep
      exact h.handle hrun
  | waitFailed j => exact absurd he id
  | remove =>
      obtain ⟨hstage, hstep⟩ := Option.ite_none_right_eq_some.1 hstep
      cases hstep
      refine h.stop fun hpending => ?_
      rw [hstage] at hpending
      simp [DialStage.IsPending] at hpending
  | tick =>
      cases hstep
      exact h.tick he.1 he.2

/-- As long as handlers run promptly, an attempt connects for five seconds at most. A
session that is still being resolved or connected, or that was refused, is open for five
seconds and then stopped, where the connection starts the five seconds anew. And a
handler of the deadline stops a session only five seconds after the deadline was set, so
never one that was connected before. -/
theorem deadline_exact : ∀ x, system.ReachableWhile Prompt x →
    (x.stage = .connecting → x.now ≤ x.since + seconds) ∧
    (x.stage.IsPending → (x.now < x.since + seconds → x.isOpen) ∧
      (x.since + seconds < x.now → x.isOpen = false)) ∧
    ∀ j y, x.step (.handle j) = some y → x.isOpen → y.isOpen = false →
      x.now = x.since + seconds ∧ ∀ time ∈ x.settled, time = x.now := by
  intro x hreach
  have h : x.OnTime := by
    refine hreach.invariant ?_ fun x e y hx he hstep => hx.step he hstep
    rintro x ⟨purpose, now, rfl⟩
    exact .start purpose now
  refine ⟨h.connecting, fun hpending => ⟨fun hlt => ?_, fun hlt => ?_⟩, ?_⟩
  · by_contra hclosed
    exact Nat.not_le.2 hlt (h.closed hpending (Bool.eq_false_iff.2 hclosed))
  · by_contra hopen
    have hmem := h.watched hpending ((Bool.not_eq_false _).mp hopen)
    exact Nat.not_le.2 hlt (h.le (List.ne_nil_of_mem hmem))
  · intro j y hstep hopen hclosed
    obtain ⟨⟨cancelled, hj, -⟩, hy⟩ := Option.ite_none_right_eq_some.1 hstep
    have hwaits := List.ne_nil_of_mem (List.mem_of_getElem? hj)
    cases hy
    rw [handleDeadlineTimeout] at hclosed
    split at hclosed
    · next hexpired =>
        have hle : x.since + seconds ≤ x.now := (Alarm.expired_iff h.expiresAt).1 hexpired
        exact ⟨Nat.le_antisymm (h.le hwaits) hle,
          fun time htime => ((h.settled time htime).1 hwaits).symm⟩
    · rw [hopen] at hclosed
      cases hclosed

/-- A connection that takes too long: the resolver has just ended, and the wait that it
cancelled has been handled. -/
def slowRun : List DialEvent :=
  [.resolved true, .handle 0, .tick, .tick, .tick, .tick, .tick]

theorem slowRun_stopped :
    ∃ x y, system.execWhile Prompt (start .direct 0) slowRun = some x ∧
      x.step (.handle 0) = some y ∧ x.isOpen ∧ y.isOpen = false ∧ x.now = x.since + seconds := by
  have hrun : (system.execWhile Prompt (start .direct 0) slowRun).map (fun x =>
      (x.isOpen, (x.step (.handle 0)).map Dial.isOpen)) = some (true, some false) := by decide
  obtain ⟨x, hx, hfinal⟩ := Option.map_eq_some_iff.1 hrun
  obtain ⟨hopen, hstep⟩ := Prod.mk.inj hfinal
  obtain ⟨y, hy, hclosed⟩ := Option.map_eq_some_iff.1 hstep
  have hinit : system.init (start .direct 0) := ⟨.direct, 0, rfl⟩
  have hreach := System.ReachableWhile.execWhile (.init hinit) hx
  exact ⟨x, y, hx, hy, hopen, hclosed, ((deadline_exact x hreach).2.2 0 y hy hopen hclosed).1⟩

-- The handler of a cancelled wait that runs late stops a session that was connected in time.
example : (system.exec (start .direct 0) [.resolved true, .connected true, .tick, .tick, .tick,
    .tick, .tick, .handle 1]).map (fun x => (x.stage, x.isOpen)) = some (.added, false) := by
  decide

end Dial

end OpenNat
