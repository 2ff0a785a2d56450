import BoostSamples.OpenProxy.Peers

/-!
# The client

The client end of one session. `Login` and `SendReady` write the two control
frames through `BuffWrite`, `ReceiveReady` reads the greeting of the opposite
client into the same buffer, and `Receive` reads its data into `BuffRead`.
`Send` appends the delimiter to a payload and queues it, and `DoSend` writes the
front of the queue. `accepted` and `received` record the payloads that `Send` has
taken and those handed to `onReceive`.
-/

namespace OpenProxy

open Framing Registry

/-- A write: none, posted to the strand, or started with some bytes left. -/
inductive Writer (τ : Type*)
  | idle
  | posted (task : τ)
  | writing (task : τ) (rest : Buff)
  deriving DecidableEq, Repr

/-- `Client::Login` and `Client::SendReady`. -/
inductive Control
  | login
  | ready
  deriving DecidableEq, Repr

def Control.event (x : Session) : Control → Event
  | .login => .ofLogin x.clientId x.id x.type
  | .ready => .ofReady

/-- The client: its session object with the read and the bytes that have arrived
on its socket (`outbound` are the bytes written to it that are still on their
way), and its queue. -/
structure Client where
  conn : Conn
  registered : Bool := false
  control : Writer Control := .idle
  sender : Writer Buff := .idle
  sendQueue : List Buff := []
  accepted : List Buff := []
  received : List Buff := []
  deriving DecidableEq, Repr

inductive ClientEvent
  | connect
  | control
  | controlWrite (bytes : Nat)
  | controlDone
  | start
  | read (bytes : Nat)
  | handle
  | send (payload : Buff)
  | doSend
  | write (bytes : Nat)
  | writeDone
  deriving DecidableEq, Repr

namespace Client

def modifySession (k : Client) (f : Session → Session) : Client :=
  { k with conn := { k.conn with session := f k.conn.session } }

def setReader (k : Client) (reader : Reader) : Client :=
  { k with conn := { k.conn with reader := reader } }

def put (k : Client) (bytes : Buff) : Client :=
  { k with conn := { k.conn with outbound := k.conn.outbound ++ bytes } }

/-- `ClientMgr::RemoveSession`, if the session is there. -/
def removeSession (k : Client) : Client :=
  if k.registered then { k.modifySession Session.stop with registered := false } else k

/-- The body of the read handler of `ReceiveReady` inside its `try`. -/
def receiveReady (A : TextArchive) (k : Client) (bytes : Nat) : Except Client Client :=
  match A.deserialize k.conn.session.buffWrite bytes with
  | none => .error k
  | some event =>
      let k := k.modifySession fun x => { x with buffWrite := [] }
      if event.hasGreeting && event.greeting.hasReady && event.greeting.ready then
        .ok ((k.modifySession fun x => { x with isReady := true }).setReader
          (.starting .receiving))
      else .error k

/-- The read handler of `Receive`; it does not throw. -/
def receive (k : Client) (bytes : Nat) : Client :=
  { (k.modifySession fun x => { x with buffRead := x.buffRead.drop bytes }).setReader
      (.starting .receiving) with
    received := k.received ++ [k.conn.session.buffRead.take (bytes - delimiter.length)] }

def handleRead (A : TextArchive) (k : Client) (loop : Loop) (bytes : Nat) : Client :=
  match loop with
  | .initializing =>
      match k.receiveReady A bytes with
      | .ok k' => k'
      | .error k' => k'.removeSession
  | .receiving => k.receive bytes

/-- `Client::Send`; `none` if it throws. -/
def send (k : Client) (payload : Buff) : Option Client :=
  if k.registered && k.conn.session.isReady then
    some { k with
      accepted := k.accepted ++ [payload]
      sendQueue := k.sendQueue ++ [frame delimiter payload]
      sender := if k.sendQueue = [] then .posted (frame delimiter payload) else k.sender }
  else none

/-- The completion handler of `DoSend`. -/
def sendHandler (k : Client) : Client :=
  match k.sendQueue.tail with
  | [] => { k with sendQueue := [], sender := .idle }
  | next :: queue =>
      if k.registered then { k with sendQueue := next :: queue, sender := .posted next }
      else { k with sendQueue := [], sender := .idle }

def perform (A : TextArchive) (k : Client) : ClientEvent → Option Client
  | .connect =>
      if k.conn.accepted then none
      else some { k with
        conn := { k.conn with accepted := true }
        registered := true
        control := .posted .login }
  | .control =>
      match k.control with
      | .posted c =>
          let buff := k.conn.session.buffWrite ++ A.serialize (c.event k.conn.session)
          some { k.modifySession fun x => { x with buffWrite := buff } with
            control := .writing c buff }
      | _ => none
  | .controlWrite bytes =>
      match k.control with
      | .writing c rest =>
          if k.conn.session.isOpen ∧ 0 < bytes ∧ bytes ≤ rest.length then
            some { k.put (rest.take bytes) with control := .writing c (rest.drop bytes) }
          else none
      | _ => none
  | .controlDone =>
      match k.control with
      | .writing .login [] =>
          some { k.modifySession fun x => { x with buffWrite := [] } with
            control := .posted .ready }
      | .writing .ready [] =>
          some { (k.modifySession fun x => { x with buffWrite := [] }).setReader
              (.starting .initializing) with
            control := .idle }
      | _ => none
  | .start =>
      match k.conn.reader with
      | .starting loop => some (k.setReader (.until loop (k.conn.session.buff loop)))
      | _ => none
  | .read bytes =>
      match k.conn.reader with
      | .reading loop =>
          if k.conn.session.isOpen ∧ 0 < bytes ∧ bytes ≤ k.conn.inbound.length then
            let session := k.conn.session.append (k.conn.inbound.take bytes) loop
            some { k with conn := { k.conn with
              session := session
              inbound := k.conn.inbound.drop bytes
              reader := .until loop (session.buff loop) } }
          else none
      | _ => none
  | .handle =>
      match k.conn.reader with
      | .completed loop bytes => some ((k.setReader .idle).handleRead A loop bytes)
      | _ => none
  | .send payload => k.send payload
  | .doSend =>
      match k.sender with
      | .posted data => some { k with sender := .writing data data }
      | _ => none
  | .write bytes =>
      match k.sender with
      | .writing data rest =>
          if k.conn.session.isOpen ∧ 0 < bytes ∧ bytes ≤ rest.length then
            some { k.put (rest.take bytes) with sender := .writing data (rest.drop bytes) }
          else none
      | _ => none
  | .writeDone =>
      match k.sender with
      | .writing _ [] => some k.sendHandler
      | _ => none

def text (A : TextArchive) (k : Client) (c : Control) : Buff :=
  A.serialize (c.event k.conn.session)

def ahead (A : TextArchive) (k : Client) : Buff :=
  match k.control with
  | .idle => if k.conn.accepted then [] else k.text A .login ++ k.text A .ready
  | .posted .login => k.text A .login ++ k.text A .ready
  | .writing .login rest => rest ++ k.text A .ready
  | .posted .ready => k.text A .ready
  | .writing .ready rest => rest

def backlog (k : Client) : Buff :=
  match k.sender with
  | .writing _ rest => rest ++ k.sendQueue.tail.flatten
  | _ => k.sendQueue.flatten

def pending (A : TextArchive) (k : Client) : Buff := k.conn.outbound ++ k.ahead A ++ k.backlog

/-- The client writes its control frames, then it waits for the greeting of the
opposite client, then it is ready. -/
inductive Phase
  | early
  | waiting
  | ready
  deriving DecidableEq

structure Unsent (k : Client) : Prop where
  isReady : k.conn.session.isReady = false
  sender : k.sender = .idle
  sendQueue : k.sendQueue = []
  accepted : k.accepted = []
  buffRead : k.conn.session.buffRead = []

/-- The write of `DoSend` is the one for the front of the queue. -/
inductive Sending (k : Client) : Prop
  | idle : k.sender = .idle → k.sendQueue = [] → Sending k
  | posted {data : Buff} {queue : List Buff} : k.sender = .posted data →
      k.sendQueue = data :: queue → Sending k
  | writing {data rest : Buff} : k.sender = .writing data rest → k.sendQueue ≠ [] → Sending k

def AtPhase (k : Client) : Phase → Prop
  | .early => k.conn.reader = .idle ∧ k.registered = k.conn.accepted ∧
      (k.conn.accepted = true ↔ k.control ≠ .idle) ∧
      ((∀ c rest, k.control ≠ .writing c rest) → k.conn.session.buffWrite = []) ∧ k.Unsent
  | .waiting => k.control = .idle ∧ k.conn.accepted = true ∧ k.registered = true ∧ k.Unsent
  | .ready => k.control = .idle ∧ k.conn.accepted = true ∧ k.registered = true ∧
      k.conn.session.isReady = true ∧ k.Sending

/-- What the reads of a client will have gone through once the `more` bytes that
are to be written to it have arrived. -/
def Awaits (x : Conn) (more total : Buff) : Phase → Prop
  | .early => x.inbound ++ more = total
  | .waiting => x.Collects .initializing more total
  | .ready => x.Collects .receiving more total

/-- A step of the client keeps the bytes that are to arrive from it and those that
it awaits, and hands on nothing. -/
structure Quiet (A : TextArchive) (k k' : Client) (phase phase' : Phase) : Prop where
  atPhase : k'.AtPhase phase'
  ready : phase' = .ready ↔ phase = .ready
  pending : k'.pending A = k.pending A
  accepted : k'.accepted = k.accepted
  received : k'.received = k.received
  isOpen : k'.conn.session.isOpen = k.conn.session.isOpen
  awaits : ∀ more total, Awaits k.conn more total phase → Awaits k'.conn more total phase'

section Quiet

variable {A : TextArchive} {k k' : Client} {phase : Phase}

theorem quiet_connect (h : k.perform A .connect = some k') (hphase : k.AtPhase phase) :
    Quiet A k k' phase phase := by
  obtain ⟨hnew, h⟩ := Option.ite_none_left_eq_some.1 h
  obtain rfl := Option.some.inj h
  cases phase with
  | early =>
      obtain ⟨hreader, -, hcontrol, hbuff, hunsent⟩ := hphase
      have hidle : k.control = .idle := by
        by_contra hne
        exact hnew (hcontrol.2 hne)
      refine ⟨⟨hreader, rfl, by simp, fun _ => hbuff (by simp [hidle]), ?_⟩, Iff.rfl, ?_, rfl,
        rfl, rfl, fun _ _ h => h⟩
      · exact ⟨hunsent.isReady, hunsent.sender, hunsent.sendQueue, hunsent.accepted,
          hunsent.buffRead⟩
      · simp [pending, ahead, backlog, hidle, hnew, text]
  | waiting => exact absurd hphase.2.1 hnew
  | ready => exact absurd hphase.2.1 hnew

theorem AtPhase.eq_early (hphase : k.AtPhase phase) (hcontrol : k.control ≠ .idle) :
    phase = .early := by
  cases phase with
  | early => rfl
  | waiting => exact absurd hphase.1 hcontrol
  | ready => exact absurd hphase.1 hcontrol

theorem Unsent.congr (h : k.Unsent)
    (hready : k'.conn.session.isReady = k.conn.session.isReady) (hsender : k'.sender = k.sender)
    (hqueue : k'.sendQueue = k.sendQueue) (haccepted : k'.accepted = k.accepted)
    (hbuff : k'.conn.session.buffRead = k.conn.session.buffRead) : k'.Unsent :=
  ⟨hready.trans h.isReady, hsender.trans h.sender, hqueue.trans h.sendQueue,
    haccepted.trans h.accepted, hbuff.trans h.buffRead⟩

/-- The phase of a client does not depend on the bytes on its socket. -/
theorem AtPhase.conn (h : k.AtPhase phase) {x : Conn} (hreader : x.reader = k.conn.reader)
    (hsession : x.session = k.conn.session) (haccepted : x.accepted = k.conn.accepted) :
    AtPhase { k with conn := x } phase := by
  cases phase with
  | early =>
      obtain ⟨hidle, hregistered, hcontrol, hbuff, hunsent⟩ := h
      refine ⟨hreader.trans hidle, hregistered.trans haccepted.symm, ?_, fun hnot => ?_, ?_⟩
      · simpa only [haccepted] using hcontrol
      · simpa only [hsession] using hbuff hnot
      · exact hunsent.congr (by rw [hsession]) rfl rfl rfl (by rw [hsession])
  | waiting =>
      obtain ⟨hcontrol, hconnected, hregistered, hunsent⟩ := h
      exact ⟨hcontrol, haccepted.trans hconnected, hregistered,
        hunsent.congr (by rw [hsession]) rfl rfl rfl (by rw [hsession])⟩
  | ready =>
      obtain ⟨hcontrol, hconnected, hregistered, hready, hsending⟩ := h
      refine ⟨hcontrol, haccepted.trans hconnected, hregistered, by rw [hsession]; exact hready, ?_⟩
      cases hsending with
      | idle h h' => exact .idle h h'
      | posted h h' => exact .posted h h'
      | writing h h' => exact .writing h h'

theorem quiet_control (h : k.perform A .control = some k') (hphase : k.AtPhase phase) :
    Quiet A k k' phase phase := by
  simp only [perform] at h
  split at h
  · next c hc =>
      obtain rfl := Option.some.inj h
      obtain rfl := hphase.eq_early (by simp [hc])
      obtain ⟨hreader, hregistered, hcontrol, hbuff, hunsent⟩ := hphase
      have hempty := hbuff (by simp [hc])
      have haccepted := hcontrol.2 (by simp [hc])
      refine ⟨⟨hreader, hregistered, ⟨fun _ => by simp, fun _ => haccepted⟩,
        fun hwriting => absurd rfl (hwriting _ _), hunsent.congr rfl rfl rfl rfl rfl⟩,
        Iff.rfl, ?_, rfl, rfl, rfl, fun _ _ h => h⟩
      rw [pending, pending, ahead, ahead, hc]
      cases c <;> simp [modifySession, text, Control.event, backlog, hempty]
  · cases h

theorem quiet_controlWrite {bytes : Nat} (h : k.perform A (.controlWrite bytes) = some k')
    (hphase : k.AtPhase phase) : Quiet A k k' phase phase := by
  simp only [perform] at h
  split at h
  · next c rest hc =>
      obtain ⟨-, h⟩ := Option.ite_none_right_eq_some.1 h
      obtain rfl := Option.some.inj h
      obtain rfl := hphase.eq_early (by simp [hc])
      obtain ⟨hreader, hregistered, hcontrol, -, hunsent⟩ := hphase
      have haccepted := hcontrol.2 (by simp [hc])
      refine ⟨⟨hreader, hregistered, ⟨fun _ => by simp, fun _ => haccepted⟩,
        fun hwriting => absurd rfl (hwriting _ _), hunsent.congr rfl rfl rfl rfl rfl⟩,
        Iff.rfl, ?_, rfl, rfl, rfl, fun _ _ h => h⟩
      rw [pending, pending, ahead, ahead, hc]
      have hrest := List.take_append_drop bytes rest
      cases c <;> simp [put, text, backlog, ← List.append_assoc] <;>
        simp [List.append_assoc, hrest]
  · cases h

theorem quiet_controlDone (h : k.perform A .controlDone = some k') (hphase : k.AtPhase phase)
    (hopen : k.conn.session.isOpen = true) :
    ∃ phase', Quiet A k k' phase phase' := by
  simp only [perform] at h
  split at h
  · next hc =>
      obtain rfl := Option.some.inj h
      obtain rfl := hphase.eq_early (by simp [hc])
      obtain ⟨hreader, hregistered, hcontrol, -, hunsent⟩ := hphase
      have haccepted := hcontrol.2 (by simp [hc])
      refine ⟨.early, ⟨hreader, hregistered, ⟨fun _ => by simp, fun _ => haccepted⟩, fun _ => rfl,
        hunsent.congr rfl rfl rfl rfl rfl⟩, Iff.rfl, ?_, rfl, rfl, rfl,
        fun _ _ h => h⟩
      simp [pending, ahead, hc, modifySession, text, Control.event, backlog]
  · next hc =>
      obtain rfl := Option.some.inj h
      obtain rfl := hphase.eq_early (by simp [hc])
      obtain ⟨hreader, hregistered, hcontrol, -, hunsent⟩ := hphase
      have haccepted := hcontrol.2 (by simp [hc])
      refine ⟨.waiting, ⟨rfl, haccepted, hregistered.trans haccepted,
        hunsent.congr rfl rfl rfl rfl rfl⟩, by simp, ?_, rfl, rfl, rfl,
        fun more total h => ?_⟩
      · simp [pending, ahead, hc, modifySession, setReader, backlog, haccepted]
      · exact ⟨haccepted, hopen, .inl rfl, h, fun _ => hunsent.buffRead⟩
  · cases h

theorem quiet_progress {x : Conn} {more total : Buff} (hphase : k.AtPhase phase)
    (hawaits : Awaits k.conn more total phase) (hprogress : ∀ rest, k.conn.Progress rest x rest)
    (hreader : k.conn.reader ≠ .idle) (houtbound : x.outbound = k.conn.outbound)
    (hevent : Control.event x.session = Control.event k.conn.session) :
    Quiet A k { k with conn := x } phase phase := by
  obtain ⟨-, hready, -, -, -, hopen, haccepted⟩ := (hprogress []).frame
  have hpending : Client.pending A { k with conn := x } = k.pending A := by
    simp [pending, ahead, backlog, text, houtbound, haccepted, hevent]
  refine ⟨?_, Iff.rfl, hpending, rfl, rfl, hopen, fun more' total' h => ?_⟩
  · cases phase with
    | early => exact absurd hphase.1 hreader
    | waiting =>
        obtain ⟨hcontrol, hconnected, hregistered, hunsent⟩ := hphase
        exact ⟨hcontrol, haccepted.trans hconnected, hregistered,
          hunsent.congr hready rfl rfl rfl
            ((((hprogress _).collects hawaits).unused rfl).trans (hawaits.unused rfl).symm)⟩
    | ready =>
        obtain ⟨hcontrol, hconnected, hregistered, hisReady, hsending⟩ := hphase
        refine ⟨hcontrol, haccepted.trans hconnected, hregistered, hready.trans hisReady, ?_⟩
        cases hsending with
        | idle h h' => exact .idle h h'
        | posted h h' => exact .posted h h'
        | writing h h' => exact .writing h h'
  · cases phase with
    | early => exact absurd hphase.1 hreader
    | waiting => exact (hprogress _).collects h
    | ready => exact (hprogress _).collects h

theorem quiet_start {more total : Buff} (h : k.perform A .start = some k')
    (hphase : k.AtPhase phase) (hawaits : Awaits k.conn more total phase) :
    Quiet A k k' phase phase := by
  simp only [perform] at h
  split at h
  · next hreader =>
      obtain rfl := Option.some.inj h
      exact quiet_progress hphase hawaits (fun _ => .start hreader) (by simp [hreader]) rfl rfl
  · cases h

theorem quiet_read {bytes : Nat} {more total : Buff} (h : k.perform A (.read bytes) = some k')
    (hphase : k.AtPhase phase) (hawaits : Awaits k.conn more total phase) :
    Quiet A k k' phase phase := by
  simp only [perform] at h
  split at h
  · next loop hreader =>
      obtain ⟨-, h⟩ := Option.ite_none_right_eq_some.1 h
      obtain rfl := Option.some.inj h
      exact quiet_progress hphase hawaits (fun _ => .read hreader) (by simp [hreader]) rfl
        (by cases loop <;> rfl)
  · cases h

theorem Awaits.outbound {x : Conn} {more total bytes : Buff} (h : Awaits x more total phase) :
    Awaits { x with outbound := bytes } more total phase := by
  cases phase with
  | early => exact h
  | waiting => exact ⟨h.accepted, h.isOpen, h.reads, h.bytes, h.unused⟩
  | ready => exact ⟨h.accepted, h.isOpen, h.reads, h.bytes, h.unused⟩

theorem AtPhase.eq_ready (hphase : k.AtPhase phase) (hsender : k.sender ≠ .idle) :
    phase = .ready := by
  cases phase with
  | early => exact absurd hphase.2.2.2.2.sender hsender
  | waiting => exact absurd hphase.2.2.2.sender hsender
  | ready => rfl

theorem quiet_doSend (h : k.perform A .doSend = some k') (hphase : k.AtPhase phase) :
    Quiet A k k' phase phase := by
  simp only [perform] at h
  split at h
  · next data hsender =>
      obtain rfl := Option.some.inj h
      obtain rfl := hphase.eq_ready (by simp [hsender])
      obtain ⟨hcontrol, haccepted, hregistered, hready, hsending⟩ := hphase
      obtain ⟨queue, hqueue⟩ : ∃ queue, k.sendQueue = data :: queue := by
        cases hsending with
        | idle hidle _ => cases hsender.symm.trans hidle
        | posted hposted hqueue =>
            cases hsender.symm.trans hposted
            exact ⟨_, hqueue⟩
        | writing hwriting _ => cases hsender.symm.trans hwriting
      refine ⟨⟨hcontrol, haccepted, hregistered, hready, .writing rfl (by simp [hqueue])⟩, Iff.rfl,
        ?_, rfl, rfl, rfl, fun _ _ h => h⟩
      simp [pending, ahead, backlog, text, hsender, hqueue]
  · cases h

theorem quiet_write {bytes : Nat} (h : k.perform A (.write bytes) = some k')
    (hphase : k.AtPhase phase) : Quiet A k k' phase phase := by
  simp only [perform] at h
  split at h
  · next data rest hsender =>
      obtain ⟨-, h⟩ := Option.ite_none_right_eq_some.1 h
      obtain rfl := Option.some.inj h
      obtain rfl := hphase.eq_ready (by simp [hsender])
      obtain ⟨hcontrol, haccepted, hregistered, hready, hsending⟩ := hphase
      have hqueue : k.sendQueue ≠ [] := by
        cases hsending with
        | idle hidle _ => cases hsender.symm.trans hidle
        | posted hposted _ => cases hsender.symm.trans hposted
        | writing _ hqueue => exact hqueue
      refine ⟨⟨hcontrol, haccepted, hregistered, hready, .writing rfl hqueue⟩, Iff.rfl, ?_, rfl,
        rfl, rfl, fun _ _ h => h.outbound⟩
      have hahead : k.ahead A = [] := by simp [ahead, hcontrol, haccepted]
      have hahead' : ahead A { k.put (rest.take bytes) with
          sender := .writing data (rest.drop bytes) } = [] := by
        simp [ahead, put, hcontrol, haccepted]
      rw [pending, pending, hahead, hahead', backlog, backlog, hsender]
      simp [put, ← List.append_assoc]
      simp [List.append_assoc]
  · cases h

theorem quiet_writeDone (h : k.perform A .writeDone = some k') (hphase : k.AtPhase phase) :
    Quiet A k k' phase phase := by
  simp only [perform] at h
  split at h
  · next data hsender =>
      obtain rfl := Option.some.inj h
      obtain rfl := hphase.eq_ready (by simp [hsender])
      obtain ⟨hcontrol, haccepted, hregistered, hready, -⟩ := hphase
      unfold sendHandler
      split
      · next htail =>
          refine ⟨⟨hcontrol, haccepted, hregistered, hready, .idle rfl rfl⟩, Iff.rfl, ?_, rfl, rfl,
            rfl, fun _ _ h => h⟩
          simp [pending, ahead, backlog, text, hsender, htail]
      · next next queue htail =>
          rw [if_pos hregistered]
          refine ⟨⟨hcontrol, haccepted, hregistered, hready, .posted rfl rfl⟩, Iff.rfl, ?_, rfl,
            rfl, rfl, fun _ _ h => h⟩
          simp [pending, ahead, backlog, text, hsender, htail]
  · cases h

end Quiet

section Handlers

variable {A : TextArchive} {k k' : Client} {phase : Phase} {more : Buff}

theorem send_spec {payload : Buff} (h : k.perform A (.send payload) = some k')
    (hphase : k.AtPhase phase) :
    phase = .ready ∧ k'.AtPhase .ready ∧
      k'.pending A = k.pending A ++ frame delimiter payload ∧ k'.conn = k.conn ∧
      k'.accepted = k.accepted ++ [payload] ∧ k'.received = k.received := by
  obtain ⟨hcan, h⟩ := Option.ite_none_right_eq_some.1 h
  obtain rfl := Option.some.inj h
  obtain ⟨-, hisReady⟩ := Bool.and_eq_true_iff.1 hcan
  cases phase with
  | early => exact absurd (hphase.2.2.2.2.isReady.symm.trans hisReady) (by decide)
  | waiting => exact absurd (hphase.2.2.2.isReady.symm.trans hisReady) (by decide)
  | ready =>
      obtain ⟨hcontrol, haccepted, hregistered, -, hsending⟩ := hphase
      cases hsending with
      | idle hsender hqueue =>
          have hfront : k.sendQueue ++ [frame delimiter payload] =
              frame delimiter payload :: [] := by rw [hqueue, List.nil_append]
          refine ⟨rfl, ⟨hcontrol, haccepted, hregistered, hisReady,
            .posted (if_pos hqueue) hfront⟩, ?_, rfl, rfl, rfl⟩
          simp [pending, ahead, backlog, text, hsender, hqueue]
      | @posted data queue hsender hqueue =>
          have hfront : k.sendQueue ++ [frame delimiter payload] =
              data :: (queue ++ [frame delimiter payload]) := by rw [hqueue, List.cons_append]
          refine ⟨rfl, ⟨hcontrol, haccepted, hregistered, hisReady,
            .posted ((if_neg (by simp [hqueue])).trans hsender) hfront⟩, ?_, rfl, rfl, rfl⟩
          simp [pending, ahead, backlog, text, hsender, hqueue]
      | writing hsender hqueue =>
          refine ⟨rfl, ⟨hcontrol, haccepted, hregistered, hisReady,
            .writing ((if_neg hqueue).trans hsender) (by simp)⟩, ?_, rfl, rfl, rfl⟩
          simp [pending, ahead, backlog, text, hsender, hqueue, List.tail_append_of_ne_nil]

theorem Awaits.completed {loop : Loop} {n : Nat} {total : Buff} (hphase : k.AtPhase phase)
    (hawaits : Awaits k.conn more total phase) (hreader : k.conn.reader = .completed loop n) :
    phase = .waiting ∧ loop = .initializing ∨ phase = .ready ∧ loop = .receiving := by
  cases phase with
  | early => exact nomatch hphase.1.symm.trans hreader
  | waiting => exact .inl ⟨rfl, (hawaits.reads.completed hreader).1⟩
  | ready => exact .inr ⟨rfl, (hawaits.reads.completed hreader).1⟩

structure Handled (A : TextArchive) (k k' : Client) : Prop where
  atPhase : k'.AtPhase .ready
  pending : k'.pending A = k.pending A
  accepted : k'.accepted = k.accepted
  isOpen : k'.conn.session.isOpen = k.conn.session.isOpen

theorem handle_ready {total : Buff} {n : Nat} (hphase : k.AtPhase .waiting)
    (hawaits : Awaits k.conn more (A.serialize .ofReady ++ total) .waiting)
    (hreader : k.conn.reader = .completed .initializing n)
    (halone : k.conn.session.buffWrite.length = n) :
    ∃ k', (k.setReader .idle).handleRead A .initializing n = k' ∧ Handled A k k' ∧
      k'.received = k.received ∧ Awaits k'.conn more total .ready := by
  obtain ⟨-, hfound⟩ := hawaits.reads.completed hreader
  have hbytes := hawaits.bytes
  rw [List.append_assoc] at hbytes
  obtain ⟨rfl, left, hbuff, hleft⟩ := A.serialize_of_firstEnd hbytes hfound
  have hbuff' : k.conn.session.buffWrite = A.serialize .ofReady ++ left := hbuff
  obtain rfl : left = [] := by simpa [hbuff'] using halone
  have hevent : A.deserialize k.conn.session.buffWrite (A.serialize Event.ofReady).length =
      some .ofReady := by
    rw [hbuff']
    exact A.deserialize_serialize .ofReady []
  have hk : (k.setReader .idle).handleRead A .initializing (A.serialize Event.ofReady).length =
      { k with conn := { k.conn with
          reader := .starting .receiving
          session := { k.conn.session with buffWrite := [], isReady := true } } } := by
    simp only [handleRead, receiveReady, setReader, hevent]
    rfl
  obtain ⟨hcontrol, haccepted, hregistered, hunsent⟩ := hphase
  refine ⟨_, hk, ⟨⟨hcontrol, haccepted, hregistered, rfl, ?_⟩, ?_, rfl, rfl⟩, rfl,
    haccepted, hawaits.isOpen, .inl rfl, ?_, nofun⟩
  · exact .idle hunsent.sender hunsent.sendQueue
  · simp [pending, ahead, backlog, hcontrol, haccepted]
  · simpa [Session.buff, hunsent.buffRead] using hleft

theorem handle_receive {bs : List Buff} {n : Nat} (hphase : k.AtPhase .ready)
    (hawaits : Awaits k.conn more (stream delimiter bs) .ready)
    (hfree : ∀ b ∈ bs, ¬ delimiter <:+: b)
    (hreader : k.conn.reader = .completed .receiving n) :
    ∃ k' b bs', (k.setReader .idle).handleRead A .receiving n = k' ∧ Handled A k k' ∧
      bs = b :: bs' ∧ k'.received = k.received ++ [b] ∧
      Awaits k'.conn more (stream delimiter bs') .ready := by
  obtain ⟨-, hfound⟩ := hawaits.reads.completed hreader
  have hbytes := hawaits.bytes
  rw [List.append_assoc] at hbytes
  obtain ⟨b, bs', rfl, hb, -, hrest⟩ :=
    take_frame delimiter_unbordered delimiter_ne_nil hfree hbytes hfound
  obtain ⟨hcontrol, haccepted, hregistered, hready, hsending⟩ := hphase
  refine ⟨_, b, bs', rfl, ⟨⟨hcontrol, haccepted, hregistered, hready, ?_⟩, ?_, rfl, rfl⟩, rfl,
    ?_, haccepted, hawaits.isOpen, .inl rfl, ?_, nofun⟩
  · cases hsending with
    | idle h h' => exact .idle h h'
    | posted h h' => exact .posted h h'
    | writing h h' => exact .writing h h'
  · simp [pending, ahead, backlog, hcontrol, haccepted, handleRead, receive, setReader,
      modifySession]
  · rw [← hb]
    rfl
  · rw [List.append_assoc]
    exact hrest

end Handlers

section Stuck

variable {A : TextArchive} {k : Client}

/-- A client that cannot go on has written its control frames and its queue. -/
theorem written_of_stuck {phase : Phase} (hphase : k.AtPhase phase)
    (hopen : k.conn.session.isOpen = true)
    (hstuck : ∀ e, (∀ payload, e ≠ .send payload) → k.perform A e = none) :
    phase ≠ .early ∧ k.pending A = k.conn.outbound := by
  have hcontrol : k.control = .idle ∧ k.conn.accepted = true := by
    have hconnect := hstuck .connect nofun
    have hrun := hstuck .control nofun
    have hdone := hstuck .controlDone nofun
    have haccepted : k.conn.accepted = true := by simpa [perform] using hconnect
    refine ⟨?_, haccepted⟩
    cases hcontrol : k.control with
    | idle => rfl
    | posted c => simp [perform, hcontrol] at hrun
    | writing c rest =>
        have hwrite := hstuck (.controlWrite rest.length) nofun
        have hrest : rest = [] := by simpa [perform, hcontrol, hopen] using hwrite
        cases c <;> simp [perform, hcontrol, hrest] at hdone
  have hahead : k.ahead A = [] := by simp [ahead, hcontrol.1, hcontrol.2]
  have hbacklog : k.backlog = [] := by
    cases phase with
    | early => simp [backlog, hphase.2.2.2.2.sender, hphase.2.2.2.2.sendQueue]
    | waiting => simp [backlog, hphase.2.2.2.sender, hphase.2.2.2.sendQueue]
    | ready =>
        obtain ⟨-, -, -, -, hsending⟩ := hphase
        cases hsending with
        | idle hsender hqueue => simp [backlog, hsender, hqueue]
        | posted hsender _ =>
            have hrun := hstuck .doSend nofun
            simp [perform, hsender] at hrun
        | @writing data rest hsender _ =>
            have hwrite := hstuck (.write rest.length) nofun
            have hdone := hstuck .writeDone nofun
            have hrest : rest = [] := by simpa [perform, hsender, hopen] using hwrite
            simp [perform, hsender, hrest] at hdone
  refine ⟨?_, by rw [pending, hahead, hbacklog, List.append_nil, List.append_nil]⟩
  rintro rfl
  exact hphase.2.2.1.1 hcontrol.2 hcontrol.1

/-- It has taken in all bytes on its socket, and they have no delimiter. -/
theorem read_of_stuck {loop : Loop} {more total : Buff} (h : k.conn.Collects loop more total)
    (hstuck : ∀ e, (∀ payload, e ≠ .send payload) → k.perform A e = none) :
    k.conn.inbound = [] ∧ firstEnd delimiter (k.conn.session.buff loop) = none := by
  rcases h.reads with hreader | hreader
  · have hstart := hstuck .start fun _ h => by cases h
    simp [perform, hreader] at hstart
  · unfold Reader.until at hreader
    split at hreader
    · have hhandle := hstuck .handle fun _ h => by cases h
      simp [perform, hreader] at hhandle
    · next hnone =>
        refine ⟨?_, hnone⟩
        by_contra hinbound
        have hread := hstuck (.read 1) fun _ h => by cases h
        simp [perform, hreader, h.isOpen] at hread
        exact hinbound hread

end Stuck

end Client

end OpenProxy
