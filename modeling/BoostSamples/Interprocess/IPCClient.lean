import BoostSamples.Transition.System
import BoostSamples.Watchdog.Alarm

/-!
# The message queue between two processes

One process creates a named message queue and sends to it, and another one opens it and
receives in a loop. Opening fails as long as there is no queue of the name, and is then
tried again after two seconds; a loop that breaks opens the queue anew. The creator removes
the name when it ends, but a queue that has been opened stays with the process that has
opened it. The timer, the loop and the handlers share one thread, so while the loop runs no
handler of the timer does.
-/

namespace Interprocess

open Transition Watchdog

abbrev Message := List UInt8

/-- `MSG_NUM`, the messages that a queue holds. -/
def msgNum : ℕ := 100

/-- `MSG_SIZE`, the bytes that a message has at most. -/
def msgSize : ℕ := 1024

/-- A message queue, with the messages that it has accepted and given back so far. -/
structure MessageQueue where
  messages : List Message := []
  accepted : List Message := []
  received : List Message := []
  deriving DecidableEq, Repr

namespace MessageQueue

/-- `try_send`. A message that is too long is an exception, and one that finds the queue
full is lost. -/
def trySend (q : MessageQueue) (data : Message) : MessageQueue :=
  if data.length ≤ msgSize ∧ q.messages.length < msgNum then
    { q with messages := q.messages ++ [data], accepted := q.accepted ++ [data] }
  else q

/-- `try_receive` that finds a message. -/
def tryReceive (q : MessageQueue) : Option MessageQueue :=
  match q.messages with
  | [] => none
  | data :: messages => some { q with messages := messages, received := q.received ++ [data] }

end MessageQueue

structure IPCClient where
  queues : List MessageQueue := []
  /-- The queue of the name. -/
  named : Option ℕ := none
  /-- When it was created. -/
  created : Option ℕ := none
  /-- The queue of the process that sends. -/
  sender : Option ℕ := none
  /-- `mq_`, the queue of the process that receives. -/
  mq : Option ℕ := none
  posted : ℕ := 0
  receiving : Bool := false
  timer : Alarm := ({} : Alarm).wait
  now : ℕ := 0
  /-- `main` has called `Open`. -/
  called : Bool := false
  deriving DecidableEq, Repr

/-- What can happen: the calls of the two processes, the end of the one that has created
the queue, the steps of the loop, which may break with an exception, the end of a wait on
the timer, and the passing of time. -/
inductive IPCEvent
  | create
  | send (data : Message)
  | remove
  | open
  | start
  | receive
  | break
  | handle (j : ℕ)
  | waitFailed (j : ℕ)
  | tick
  deriving DecidableEq, Repr

namespace IPCClient

/-- `IPCClient::Open` of a running client. -/
def openQueue (s : IPCClient) : IPCClient :=
  match s.named with
  | some q => { s with mq := some q, posted := s.posted + 1 }
  | none => { s with timer := (s.timer.set s.now 2).wait }

/-- `IPCClient::Create`, which opens a queue that is there. -/
def create (s : IPCClient) : IPCClient :=
  match s.named with
  | some q => { s with sender := some q }
  | none =>
      { s with
        queues := s.queues ++ [{}]
        named := some s.queues.length
        created := some s.now
        sender := some s.queues.length }

/-- `IPCClient::Send` of the process that has created the queue. -/
def send (s : IPCClient) (data : Message) : IPCClient :=
  match s.sender with
  | none => s
  | some q => { s with queues := s.queues.modify q fun x => x.trySend data }

/-- `IPCClient::~IPCClient` of the process that has created the queue. -/
def remove (s : IPCClient) : IPCClient :=
  { s with named := none, created := none, sender := none }

def handleTimeout (s : IPCClient) : IPCClient :=
  if s.timer.Expired s.now then s.openQueue else s

/-- A round of the loop of `IPCClient::DoReceive` in which there is a message. -/
def receive (s : IPCClient) : Option IPCClient :=
  s.mq.bind fun q => (s.queues[q]?).bind fun x => x.tryReceive.map fun x =>
    { s with queues := s.queues.set q x }

def step (s : IPCClient) : IPCEvent → Option IPCClient
  | .create => some s.create
  | .send data => some (s.send data)
  | .remove => some s.remove
  | .open => if s.called then none else some { s with called := true }.openQueue
  | .start =>
      if s.receiving = false ∧ 0 < s.posted then
        some { s with posted := s.posted - 1, receiving := true }
      else none
  | .receive => if s.receiving then s.receive else none
  | .break => if s.receiving then some { s with receiving := false }.openQueue else none
  | .handle j =>
      if s.receiving = false ∧ s.timer.CanRun s.now j then
        some { s with timer := s.timer.take j }.handleTimeout
      else none
  | .waitFailed j =>
      if s.receiving = false ∧ j < s.timer.waits.length then
        some { s with timer := s.timer.take j }
      else none
  | .tick => some { s with now := s.now + 1 }

def system : System IPCClient IPCEvent where
  init s := s = {}
  step := step

/-- Time passes only while the loop runs or when nothing else can, and no wait ends with
an error of its own. -/
def Prompt (s : IPCClient) : IPCEvent → Prop
  | .tick => s.receiving = true ∨ s.posted = 0 ∧ s.timer.Idle s.now
  | .waitFailed _ => False
  | _ => True

instance (s : IPCClient) (e : IPCEvent) : Decidable (s.Prompt e) := by
  unfold Prompt
  split <;> infer_instance

def retries (s : IPCClient) : ℕ :=
  if s.timer.expiresAt.isSome then s.timer.waits.count false else 0

def loops (s : IPCClient) : ℕ := s.posted + s.receiving.toNat

variable {s t : IPCClient}

theorem receive_eq_some (h : s.receive = some t) :
    ∃ q x y, s.queues[q]? = some x ∧ x.tryReceive = some y ∧
      t = { s with queues := s.queues.set q y } := by
  obtain ⟨q, -, h⟩ := Option.bind_eq_some_iff.1 h
  obtain ⟨x, hx, h⟩ := Option.bind_eq_some_iff.1 h
  obtain ⟨y, hy, rfl⟩ := Option.map_eq_some_iff.1 h
  exact ⟨q, x, y, hx, hy, rfl⟩

section Delivered

/-- The messages that a queue has accepted have been received, in order and once each, or
are in the queue. -/
structure Delivered (q : MessageQueue) : Prop where
  accepted : q.accepted = q.received ++ q.messages
  room : q.messages.length ≤ msgNum
  size : ∀ data ∈ q.accepted, data.length ≤ msgSize

variable {q r : MessageQueue}

theorem Delivered.trySend (h : Delivered q) (data : Message) : Delivered (q.trySend data) := by
  rw [MessageQueue.trySend]
  split
  · next hfits =>
      refine ⟨?_, ?_, ?_⟩
      · rw [h.accepted, List.append_assoc]
      · simpa using Nat.succ_le_of_lt hfits.2
      · intro data' hdata'
        rcases List.mem_append.1 hdata' with hold | hnew
        · exact h.size data' hold
        · rw [List.mem_singleton.1 hnew]
          exact hfits.1
  · exact h

theorem Delivered.tryReceive (h : Delivered q) (hr : q.tryReceive = some r) : Delivered r := by
  rw [MessageQueue.tryReceive] at hr
  split at hr
  · cases hr
  · next data messages hmessages =>
      cases hr
      have haccepted := h.accepted
      have hroom := h.room
      rw [hmessages] at haccepted hroom
      exact ⟨by simp [haccepted], Nat.le_of_succ_le hroom, h.size⟩

theorem queues_openQueue (s : IPCClient) : s.openQueue.queues = s.queues := by
  rw [openQueue]
  split <;> rfl

theorem queues_handleTimeout (s : IPCClient) : s.handleTimeout.queues = s.queues := by
  rw [handleTimeout]
  split
  · exact queues_openQueue s
  · rfl

theorem delivered_step (h : ∀ q ∈ s.queues, Delivered q) {e : IPCEvent}
    (hstep : s.step e = some t) : ∀ q ∈ t.queues, Delivered q := by
  cases e with
  | create =>
      cases hstep
      rw [create]
      split
      · exact h
      · intro q hq
        rcases List.mem_append.1 hq with hq | hq
        · exact h q hq
        · rw [List.mem_singleton.1 hq]
          exact ⟨rfl, Nat.zero_le _, List.forall_mem_nil _⟩
  | send data =>
      cases hstep
      rw [send]
      split
      · exact h
      · next q _ =>
          intro x hx
          obtain ⟨k, hk⟩ := List.mem_iff_getElem?.1 hx
          rw [List.getElem?_modify] at hk
          obtain ⟨y, hy, rfl⟩ := Option.map_eq_some_iff.1 hk
          have hdelivered := h y (List.mem_of_getElem? hy)
          split
          · exact hdelivered.trySend data
          · exact hdelivered
  | remove =>
      cases hstep
      exact h
  | «open» =>
      obtain ⟨-, hstep⟩ := Option.ite_none_left_eq_some.1 hstep
      cases hstep
      rw [queues_openQueue]
      exact h
  | start | waitFailed j =>
      obtain ⟨-, hstep⟩ := Option.ite_none_right_eq_some.1 hstep
      cases hstep
      exact h
  | receive =>
      obtain ⟨-, hstep⟩ := Option.ite_none_right_eq_some.1 hstep
      obtain ⟨k, x, y, hx, hy, rfl⟩ := receive_eq_some hstep
      intro q hq
      rcases List.mem_or_eq_of_mem_set hq with hq | rfl
      · exact h q hq
      · exact (h x (List.mem_of_getElem? hx)).tryReceive hy
  | «break» =>
      obtain ⟨-, hstep⟩ := Option.ite_none_right_eq_some.1 hstep
      cases hstep
      rw [queues_openQueue]
      exact h
  | handle j =>
      obtain ⟨-, hstep⟩ := Option.ite_none_right_eq_some.1 hstep
      cases hstep
      rw [queues_handleTimeout]
      exact h
  | tick =>
      cases hstep
      exact h

theorem delivered_of_reachable (h : system.Reachable s) : ∀ q ∈ s.queues, Delivered q := by
  refine h.invariant (I := fun s => ∀ q ∈ s.queues, Delivered q) ?_
    fun _ _ _ hs _ hstep => delivered_step hs hstep
  rintro s rfl
  exact List.forall_mem_nil _

end Delivered

section Reopened

/-- What the receiving process is doing: nothing yet, waiting for its next try, or
receiving. -/
inductive Phase (s : IPCClient) : Prop
  | fresh (called : s.called = false) (posted : s.posted = 0) (receiving : s.receiving = false)
      (never : s.timer.expiresAt = none)
  | waiting (time : ℕ) (called : s.called = true) (posted : s.posted = 0)
      (receiving : s.receiving = false) (expiresAt : s.timer.expiresAt = some time)
      (one : s.timer.waits.count false = 1) (le : s.now ≤ time) (soon : time ≤ s.now + 2)
      (cancelled : true ∈ s.timer.waits → s.now < time)
      (created : ∀ since ∈ s.created, time ≤ since + 2)
  | reading (called : s.called = true) (one : s.loops = 1)
      (timer : s.timer.expiresAt = none ∨ s.timer.waits = [])

def Dated (s : IPCClient) : Prop := s.named.isSome ↔ s.created.isSome

theorem phase_openQueue (hdated : s.Dated) (hcalled : s.called = true) (hposted : s.posted = 0)
    (hreceiving : s.receiving = false)
    (htimer : s.timer.expiresAt = none ∨ s.timer.waits = []) : s.openQueue.Phase := by
  rw [openQueue]
  split
  · refine .reading hcalled ?_ htimer
    rw [loops, hposted, hreceiving]
    rfl
  · next hnone =>
      refine .waiting (s.now + 2) hcalled hposted hreceiving rfl ?_ (Nat.le_add_right _ _)
        (Nat.le_refl _) (fun _ => Nat.lt_add_of_pos_right (by decide)) ?_
      · rw [Alarm.count_wait, Alarm.count_set]
      · intro since hsince
        have hnamed := hdated.2 (Option.isSome_of_mem hsince)
        rw [hnone] at hnamed
        cases hnamed

theorem dated_openQueue : s.openQueue.Dated ↔ s.Dated := by
  rw [openQueue]
  split <;> rfl

theorem Dated.step (h : s.Dated) {e : IPCEvent} (hstep : s.step e = some t) : t.Dated := by
  cases e with
  | create =>
      cases hstep
      rw [create]
      split
      · exact h
      · exact ⟨fun _ => rfl, fun _ => rfl⟩
  | send data =>
      cases hstep
      rw [send]
      split
      · exact h
      · exact h
  | remove =>
      cases hstep
      exact Iff.rfl
  | «open» =>
      obtain ⟨-, hstep⟩ := Option.ite_none_left_eq_some.1 hstep
      cases hstep
      exact dated_openQueue.2 h
  | receive =>
      obtain ⟨-, hstep⟩ := Option.ite_none_right_eq_some.1 hstep
      obtain ⟨q, x, y, -, -, rfl⟩ := receive_eq_some hstep
      exact h
  | «break» =>
      obtain ⟨-, hstep⟩ := Option.ite_none_right_eq_some.1 hstep
      cases hstep
      exact dated_openQueue.2 h
  | handle j =>
      obtain ⟨-, hstep⟩ := Option.ite_none_right_eq_some.1 hstep
      cases hstep
      rw [handleTimeout]
      split
      · exact dated_openQueue.2 h
      · exact h
  | start | waitFailed j =>
      obtain ⟨-, hstep⟩ := Option.ite_none_right_eq_some.1 hstep
      cases hstep
      exact h
  | tick =>
      cases hstep
      exact h

/-- A phase depends on the queues only through the creation of the one that is there. -/
theorem Phase.congr (h : s.Phase) {queues : List MessageQueue} {named sender created : Option ℕ}
    (hcreated : ∀ since ∈ created, s.created = some since ∨ s.now = since) :
    Phase { s with queues := queues, named := named, sender := sender, created := created } := by
  cases h with
  | fresh called posted receiving never => exact .fresh called posted receiving never
  | waiting time called posted receiving expiresAt one le soon cancelled hsoon =>
      refine .waiting time called posted receiving expiresAt one le soon cancelled ?_
      intro since hsince
      rcases hcreated since hsince with hold | rfl
      · exact hsoon since hold
      · exact soon
  | reading called one timer => exact .reading called one timer

theorem Phase.create (h : s.Phase) : s.create.Phase := by
  rw [IPCClient.create]
  split
  · exact h.congr fun since hsince => .inl hsince
  · exact h.congr fun since hsince => .inr (Option.some.inj hsince)

theorem Phase.handle (h : s.Phase) (hdated : s.Dated) {j : ℕ} (hrun : s.timer.CanRun s.now j) :
    (handleTimeout { s with timer := s.timer.take j }).Phase := by
  have hexpired : (s.timer.take j).Expired s.now ↔ s.timer.Expired s.now := Iff.rfl
  rw [handleTimeout]
  cases h with
  | fresh called posted receiving never =>
      rw [if_neg]
      · exact .fresh called posted receiving never
      · rintro ⟨time, htime, -⟩
        cases never.symm.trans htime
  | waiting time called posted receiving expiresAt one le soon cancelled created =>
      split
      · next hnow =>
          have hle : time ≤ s.now := (Alarm.expired_iff expiresAt).1 hnow
          have hnot : true ∉ s.timer.waits := fun htrue =>
            Nat.not_le.2 (cancelled htrue) hle
          exact phase_openQueue hdated called posted receiving
            (.inr (Alarm.take_eq_nil one hnot hrun))
      · next hnot =>
          refine .waiting time called posted receiving expiresAt ?_ le soon ?_ created
          · exact (Alarm.count_take hrun hnot).trans one
          · exact fun htrue => cancelled (Alarm.mem_of_mem_take htrue)
  | reading called one timer =>
      have hnever : s.timer.expiresAt = none := by
        refine timer.resolve_right fun hnil => ?_
        obtain ⟨cancelled, hj, -⟩ := hrun
        rw [hnil] at hj
        cases hj
      rw [if_neg]
      · exact .reading called one (.inl hnever)
      · rintro ⟨time, htime, -⟩
        cases hnever.symm.trans htime

theorem Phase.tick (h : s.Phase) (hidle : s.receiving = true ∨ s.posted = 0 ∧ s.timer.Idle s.now) :
    Phase { s with now := s.now + 1 } := by
  cases h with
  | fresh called posted receiving never => exact .fresh called posted receiving never
  | waiting time called posted receiving expiresAt one le soon cancelled created =>
      have hidle : s.timer.Idle s.now :=
        (hidle.resolve_left (by rw [receiving]; exact Bool.false_ne_true)).2
      have hmem : false ∈ s.timer.waits := List.count_pos_iff.1 (by omega)
      have hlt : s.now < time := by
        have hnot := (hidle.eq_false hmem).2
        rw [Alarm.expired_iff expiresAt] at hnot
        exact Nat.lt_of_not_le hnot
      have hsoon : time ≤ s.now + 1 + 2 := by omega
      refine .waiting time called posted receiving expiresAt one hlt hsoon ?_ created
      intro htrue
      cases (hidle.eq_false htrue).1
  | reading called one timer => exact .reading called one timer

theorem Phase.step (h : s.Phase) (hdated : s.Dated) {e : IPCEvent} (he : s.Prompt e)
    (hstep : s.step e = some t) : t.Phase := by
  cases e with
  | create =>
      cases hstep
      exact h.create
  | send data =>
      cases hstep
      rw [send]
      split
      · exact h
      · exact h.congr fun since hsince => .inl hsince
  | remove =>
      cases hstep
      exact h.congr fun since hsince => absurd hsince (Option.not_mem_none since)
  | «open» =>
      obtain ⟨hcalled, hstep⟩ := Option.ite_none_left_eq_some.1 hstep
      cases hstep
      cases h with
      | fresh _ posted receiving never =>
          exact phase_openQueue hdated rfl posted receiving (.inl never)
      | waiting _ called => exact absurd called hcalled
      | reading called => exact absurd called hcalled
  | start =>
      obtain ⟨⟨hreceiving, hposted⟩, hstep⟩ := Option.ite_none_right_eq_some.1 hstep
      cases hstep
      cases h with
      | fresh _ posted => omega
      | waiting _ _ posted => omega
      | reading called one timer =>
          refine .reading called ?_ timer
          rw [loops, hreceiving, Bool.toNat_false] at one
          rw [loops, Bool.toNat_true]
          dsimp only
          omega
  | receive =>
      obtain ⟨-, hstep⟩ := Option.ite_none_right_eq_some.1 hstep
      obtain ⟨q, x, y, -, -, rfl⟩ := receive_eq_some hstep
      exact h.congr fun since hsince => .inl hsince
  | «break» =>
      obtain ⟨hreceiving, hstep⟩ := Option.ite_none_right_eq_some.1 hstep
      cases hstep
      cases h with
      | fresh _ _ receiving =>
          rw [hreceiving] at receiving
          cases receiving
      | waiting _ _ _ receiving =>
          rw [hreceiving] at receiving
          cases receiving
      | reading called one timer =>
          rw [loops, hreceiving, Bool.toNat_true] at one
          exact phase_openQueue hdated called (Nat.succ.inj one) rfl timer
  | handle j =>
      obtain ⟨⟨-, hrun⟩, hstep⟩ := Option.ite_none_right_eq_some.1 hstep
      cases hstep
      exact h.handle hdated hrun
  | waitFailed j => exact absurd he id
  | tick =>
      cases hstep
      exact h.tick he

theorem phase_of_reachable (h : system.ReachableWhile Prompt s) : s.Phase ∧ s.Dated := by
  refine h.invariant (I := fun s => s.Phase ∧ s.Dated) ?_ ?_
  · rintro s rfl
    exact ⟨.fresh rfl rfl rfl rfl, Iff.rfl⟩
  · intro s e t hs he hstep
    exact ⟨hs.1.step hs.2 he hstep, hs.2.step hstep⟩

/-- Once `main` has opened the queue, there is either one loop that receives or is about
to, or one wait that will open the queue again, however often the loop breaks. And more
than two seconds after the creation of the queue that is there it is the loop. -/
theorem one_loop_or_retry : ∀ s, system.ReachableWhile Prompt s → s.called = true →
    s.loops + s.retries = 1 ∧ ∀ since ∈ s.created, since + 2 < s.now → s.loops = 1 := by
  intro s hreach hcalled
  cases (phase_of_reachable hreach).1 with
  | fresh called =>
      rw [hcalled] at called
      cases called
  | waiting time _ posted receiving expiresAt one le _ _ created =>
      have hloops : s.loops = 0 := by rw [loops, posted, receiving, Bool.toNat_false]
      refine ⟨?_, fun since hsince hlt => ?_⟩
      · rw [hloops, retries, expiresAt, if_pos Option.isSome_some, one]
      · have hle := created since hsince
        omega
  | reading _ one timer =>
      refine ⟨?_, fun _ _ _ => one⟩
      rw [one, retries]
      rcases timer with hnever | hnil
      · rw [hnever]
        rfl
      · rw [hnil]
        simp

/-- The queue is opened before it has been created, and again two seconds later. -/
def retriedRun : List IPCEvent :=
  [.open, .handle 0, .tick, .create, .send [72, 105], .tick, .handle 0, .start, .receive, .tick,
    .tick]

/-- Then its creator ends, and the loop breaks. -/
def removedRun : List IPCEvent := retriedRun ++ [.remove, .break]

theorem retriedRun_one :
    (∃ s, system.execWhile Prompt {} retriedRun = some s ∧
      s.queues.map (fun q => q.received) = [[[72, 105]]] ∧ s.loops = 1) ∧
    ∃ s, system.execWhile Prompt {} removedRun = some s ∧ s.loops = 0 ∧
      s.loops + s.retries = 1 := by
  have hrun : (system.execWhile Prompt {} retriedRun).map
      (fun s => (s.called, s.queues.map fun q => q.received, s.created, s.now)) =
      some (true, [[[72, 105]]], some 1, 4) := by decide
  have hremoved : (system.execWhile Prompt {} removedRun).map (fun s => (s.called, s.loops)) =
      some (true, 0) := by decide
  constructor
  · obtain ⟨s, hs, hfinal⟩ := Option.map_eq_some_iff.1 hrun
    simp only [Prod.mk.injEq] at hfinal
    obtain ⟨hcalled, hreceived, hcreated, hnow⟩ := hfinal
    have hreach := System.ReachableWhile.execWhile (.init rfl) hs
    exact ⟨s, hs, hreceived, (one_loop_or_retry s hreach hcalled).2 1 hcreated (by omega)⟩
  · obtain ⟨s, hs, hfinal⟩ := Option.map_eq_some_iff.1 hremoved
    simp only [Prod.mk.injEq] at hfinal
    have hreach := System.ReachableWhile.execWhile (.init rfl) hs
    exact ⟨s, hs, hfinal.2, (one_loop_or_retry s hreach hfinal.1).1⟩

end Reopened

end IPCClient

end Interprocess
