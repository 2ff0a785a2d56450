import BoostSamples.OpenNat.Seat
import BoostSamples.OpenNat.Server

/-!
# The timers of the client

The handlers of `Client` with their timers, each one step of a system: `Connect`
with its connection timer, and the heartbeat timer and the counter of each session.
The state below is that of `Client`; a session that one of its handlers has stopped
has its timer cancelled. When a deadline has expired is left open.
-/

namespace OpenNat

open Registry Transition

structure SessionTimer where
  timeout : Nat := 0
  /-- `none` is `pos_infin`. -/
  expiresAt : Option Nat := none
  waits : List Wait := []
  deriving DecidableEq, Repr

namespace SessionTimer

/-- `cancel`: every outstanding wait completes. -/
def cancel (x : SessionTimer) : SessionTimer :=
  { x with waits := x.waits.map fun w => { w with completed := true } }

/-- `expires_at(pos_infin)`. -/
def expiresNever (x : SessionTimer) : SessionTimer := { x.cancel with expiresAt := none }

def expiresFromNow (x : SessionTimer) (now seconds : Nat) : SessionTimer :=
  { x.cancel with expiresAt := some (now + seconds) }

def asyncWait (x : SessionTimer) (sessionId : Uuid) : SessionTimer :=
  { x with waits := x.waits ++ [⟨sessionId, false⟩] }

/-- `expires_at` is not after `now`. -/
def expired (x : SessionTimer) (now : Nat) : Bool := x.expiresAt.any (· ≤ now)

end SessionTimer

/-- An outstanding wait on the connection timer, with what its handler connects to. -/
structure ConnectionWait where
  ep : Address × BitVec 16
  id : Uuid
  completed : Bool := false
  deriving DecidableEq, Repr

def Client.ping : Command := { protocol := .heartbeat, heartbeat := some { ping := true } }

/-- The connect request that a client receives in a frame: the id and the type that
its session takes. -/
def Client.asked (frame : Frame) : Option (Uuid × SessionType) :=
  match frame.command with
  | some { protocol := .connect, connect := some ⟨.request, .stun, some id, _, _, _⟩, .. } =>
      some (id, .stun)
  | some { protocol := .connect, connect := some ⟨.request, .direct, some id, _, _, _⟩, .. } =>
      some (id, .direct)
  | _ => none

/-- The session of an attempt of `Connect` is registered and its connect request
sent. -/
def Client.stunDone (k : Client) (p : SessionPtr) : Client :=
  let x := k.session p
  match k.sessionMgr.addSession x.id p with
  | (_, false) => k.call (.onError x.id x.type)
  | (mgr, true) =>
      ({ k with sessionMgr := mgr }.postReceive p).sendCommand x.id
        (Client.connectRequest .stun x.id)

structure ClientTimers where
  client : Client
  now : Nat := 0
  isRunning : Bool := true
  timer : SessionPtr → SessionTimer := fun _ => {}
  /-- Attempts of `Connect` in progress. -/
  connecting : List (SessionPtr × (Address × BitVec 16)) := []
  connectionExpiresAt : Nat := 0
  connectionWaits : List ConnectionWait := []
  /-- The accepted connections that have not made a connect request. -/
  unasked : List SessionPtr := []

namespace ClientTimers

/-- The client has changed: a session that has been stopped has its timer
cancelled. -/
def follow (s : ClientTimers) (k : Client) : ClientTimers :=
  { s with
    client := k
    timer := fun p =>
      if (s.client.session p).isOpen ∧ ¬ (k.session p).isOpen then (s.timer p).cancel
      else s.timer p }

def modifyTimer (s : ClientTimers) (p : SessionPtr) (f : SessionTimer → SessionTimer) :
    ClientTimers :=
  { s with timer := Function.update s.timer p (f (s.timer p)) }

/-- `Client::Connect` up to its connection. -/
def connect (s : ClientTimers) (ep : Address × BitVec 16) (id : Uuid) : ClientTimers :=
  if s.isRunning then
    let p := s.client.sessions.length
    { s.follow (s.client.construct { id := id, type := .stun }) with
      connecting := s.connecting ++ [(p, ep)] }.modifyTimer p fun x => x.expiresNever.asyncWait id
  else s

/-- The connection handler of `Connect`. A failure moves the expiry of the
connection timer, which cancels its waits, and starts one that tries again. -/
def connectDone (s : ClientTimers) (i : Nat) (ok : Bool) : ClientTimers :=
  match s.connecting[i]? with
  | none => s
  | some (p, ep) =>
      let s := { s with connecting := s.connecting.eraseIdx i }
      if ok then s.follow (s.client.stunDone p)
      else
        { s with
          connectionExpiresAt := s.now + 5
          connectionWaits := (s.connectionWaits.map fun w => { w with completed := true }) ++
            [⟨ep, (s.client.session p).id, false⟩] }

/-- The resolver handler of `Connect` on an error. -/
def resolveFail (s : ClientTimers) (i : Nat) : ClientTimers :=
  match s.connecting[i]? with
  | none => s
  | some (p, _) =>
      let x := s.client.session p
      { s with connecting := s.connecting.eraseIdx i }.follow (s.client.call (.onError x.id x.type))

def accept (s : ClientTimers) : ClientTimers :=
  let p := s.client.sessions.length
  { s.follow ((s.client.construct {}).postReceive p) with unasked := s.unasked ++ [p] }

def beat (now : Nat) (cmd : Command) (x : SessionTimer) : SessionTimer :=
  match cmd.protocol with
  | .heartbeat =>
      let h := cmd.heartbeat.getD {}
      if h.pong then { x with timeout := 0 }
      else if h.ping then { x.expiresFromNow now 10 with timeout := 0 }
      else x
  | .connect =>
      match cmd.connect with
      | some ⟨.reply, .stun, _, _, true, external⟩ =>
          if (Client.externalOf external).isSome then x.expiresFromNow now 5 else x
      | _ => x
  | _ => x

/-- The read handler of `Receive` on a frame. -/
def receive (s : ClientTimers) (p : SessionPtr) (frame : Frame) : ClientTimers :=
  let s := { s with
    unasked := if (Client.asked frame).isSome then s.unasked.erase p else s.unasked }
  let s := match frame.command with
    | some cmd => s.modifyTimer p (beat s.now cmd)
    | none => s
  s.follow (s.client.receive p frame)

def completeWait (s : ClientTimers) (p : SessionPtr) (i : Nat) : ClientTimers :=
  s.modifyTimer p fun x =>
    { x with waits := x.waits.modify i fun w => { w with completed := true } }

def takeWait (s : ClientTimers) (p : SessionPtr) (i : Nat) : ClientTimers :=
  s.modifyTimer p fun x => { x with waits := x.waits.eraseIdx i }

def handleStunTimeout (s : ClientTimers) (sessionId : Uuid) : ClientTimers :=
  match s.client.sessionMgr.find sessionId with
  | none => s
  | some p =>
      let id := (s.client.session p).id
      if (s.timer p).expired s.now then
        if (s.timer p).timeout = Session.maxTimeout then s.follow (s.client.removeSession id)
        else
          let s := s.modifyTimer p fun x => { x with timeout := x.timeout + 1 }
          let s := s.follow (s.client.sendCommand id Client.ping)
          s.modifyTimer p fun x => (x.expiresFromNow s.now 5).asyncWait id
      else s.modifyTimer p fun x => x.asyncWait id

def completeConnection (s : ClientTimers) (i : Nat) : ClientTimers :=
  { s with
    connectionWaits := s.connectionWaits.modify i fun w => { w with completed := true } }

/-- `Client::HandleConnectionTimeout` for a completed wait. -/
def handleConnectionTimeout (s : ClientTimers) (i : Nat) (w : ConnectionWait) : ClientTimers :=
  let s := { s with connectionWaits := s.connectionWaits.eraseIdx i }
  if s.connectionExpiresAt ≤ s.now then s.connect w.ep w.id else s

/-- What can happen at the client. An index picks one of the attempts, posts or
waits outstanding. -/
inductive Event
  | connect (ep : Address × BitVec 16) (id : Uuid)
  | connectDone (i : Nat) (ok : Bool)
  | resolveFail (i : Nat)
  | accept
  | receive (p : SessionPtr) (frame : Frame)
  | receiveFail (p : SessionPtr)
  | receiveRaw (p : SessionPtr) (frame : Frame)
  | receiveRawFail (p : SessionPtr)
  | direct (clientId sessionId : Uuid) (offer : Offer)
  | runDirect (i : Nat) (offer : Offer)
  | runDoDirect (i : Nat)
  | directDone (i : Nat) (ok : Bool)
  | proxy (config : SessionConfig)
  | proxyDone (i : Nat) (ok : Bool)
  | send (id : Uuid) (frame : Frame)
  /-- `Disconnect` removes an entry. -/
  | disconnect (id : Uuid)
  /-- The deadline of a session has expired, or its last pointer is gone. -/
  | close (p : SessionPtr)
  | tick (seconds : Nat)
  | expire (p : SessionPtr) (i : Nat)
  | stunTimeout (p : SessionPtr) (i : Nat)
  | connectionExpire (i : Nat)
  | connectionTimeout (i : Nat)
  | stop

def handle (s : ClientTimers) : Event → Option ClientTimers
  | .connect ep id => some (s.connect ep id)
  | .connectDone i ok => if i < s.connecting.length then some (s.connectDone i ok) else none
  | .resolveFail i => if i < s.connecting.length then some (s.resolveFail i) else none
  | .accept => some s.accept
  | .receive p frame =>
      if (s.client.session p).receives = 0 then none else some (s.receive p frame)
  | .receiveFail p =>
      if (s.client.session p).receives = 0 then none
      else some (s.follow ((s.client.takeReceive p).receiveCatch p))
  | .receiveRaw p frame =>
      if (s.client.session p).rawReceives = 0 then none
      else some (s.follow (s.client.receiveRaw p frame))
  | .receiveRawFail p =>
      if (s.client.session p).rawReceives = 0 then none
      else some (s.follow ((s.client.takeReceiveRaw p).receiveCatch p))
  | .direct clientId sessionId offer =>
      some (s.follow (s.client.direct clientId sessionId offer))
  | .runDirect i offer =>
      if i < s.client.directs.length then some (s.follow (s.client.runDirect i offer)) else none
  | .runDoDirect i =>
      if i < s.client.doDirects.length then some (s.follow (s.client.runDoDirect i)) else none
  | .directDone i ok =>
      if i < s.client.connects.length then some (s.follow (s.client.directDone i ok)) else none
  | .proxy config => some (s.follow (s.client.doProxy config))
  | .proxyDone i ok =>
      if i < s.client.proxyConnects.length then some (s.follow (s.client.proxyDone i ok))
      else none
  | .send id frame => some (s.follow (s.client.send id frame))
  | .disconnect id => some (s.follow (s.client.removeSession id))
  | .close p =>
      if p < s.client.sessions.length then
        some (s.follow (s.client.modify p fun x => { x with isOpen := false }))
      else none
  | .tick seconds => some { s with now := s.now + seconds }
  | .expire p i =>
      match (s.timer p).waits[i]? with
      | some w =>
          if w.completed = false ∧ (s.timer p).expired s.now then some (s.completeWait p i)
          else none
      | none => none
  | .stunTimeout p i =>
      match (s.timer p).waits[i]? with
      | some w =>
          if w.completed then some ((s.takeWait p i).handleStunTimeout w.sessionId) else none
      | none => none
  | .connectionExpire i =>
      match s.connectionWaits[i]? with
      | some w =>
          if w.completed = false ∧ s.connectionExpiresAt ≤ s.now then
            some (s.completeConnection i)
          else none
      | none => none
  | .connectionTimeout i =>
      match s.connectionWaits[i]? with
      | some w => if w.completed then some (s.handleConnectionTimeout i w) else none
      | none => none
  | .stop =>
      some { s with
        isRunning := false
        connectionWaits := s.connectionWaits.map fun w => { w with completed := true } }

/-- One step: nothing happens at a client that has been stopped, since its io
service is. -/
def step (s : ClientTimers) (e : Event) : Option ClientTimers :=
  if s.isRunning then s.handle e else none

def system : System ClientTimers Event where
  init s := ∃ clientId network,
    s = { client := { clientId := clientId, network := network } }
  step := step

def Event.runs (k : Client) : Event → Option Client
  | .receiveFail p => some ((k.takeReceive p).receiveCatch p)
  | .receiveRaw p frame => some (k.receiveRaw p frame)
  | .receiveRawFail p => some ((k.takeReceiveRaw p).receiveCatch p)
  | .direct clientId sessionId offer => some (k.direct clientId sessionId offer)
  | .runDirect i offer => some (k.runDirect i offer)
  | .runDoDirect i => some (k.runDoDirect i)
  | .directDone i ok => some (k.directDone i ok)
  | .proxy config => some (k.doProxy config)
  | .proxyDone i ok => some (k.proxyDone i ok)
  | .send id frame => some (k.send id frame)
  | .disconnect id => some (k.removeSession id)
  | .close p => some (k.modify p fun x => { x with isOpen := false })
  | _ => none

inductive Move (s : ClientTimers) : Event → ClientTimers → Prop
  | connect (ep : Address × BitVec 16) (id : Uuid) : Move s (.connect ep id) (s.connect ep id)
  | connectDone {i : Nat} {ok : Bool} {x : SessionPtr × (Address × BitVec 16)} :
      s.connecting[i]? = some x → Move s (.connectDone i ok) (s.connectDone i ok)
  | resolveFail {i : Nat} {x : SessionPtr × (Address × BitVec 16)} :
      s.connecting[i]? = some x → Move s (.resolveFail i) (s.resolveFail i)
  | accept : Move s .accept s.accept
  | receive (p : SessionPtr) (frame : Frame) : Move s (.receive p frame) (s.receive p frame)
  | follow {e : Event} {k : Client} : e.runs s.client = some k → Move s e (s.follow k)
  | tick (seconds : Nat) : Move s (.tick seconds) { s with now := s.now + seconds }
  | expire (p : SessionPtr) (i : Nat) : Move s (.expire p i) (s.completeWait p i)
  | stunTimeout {p : SessionPtr} {i : Nat} {w : Wait} : (s.timer p).waits[i]? = some w →
      Move s (.stunTimeout p i) ((s.takeWait p i).handleStunTimeout w.sessionId)
  | connectionExpire (i : Nat) : s.connectionExpiresAt ≤ s.now →
      Move s (.connectionExpire i) (s.completeConnection i)
  | connectionTimeout {i : Nat} {w : ConnectionWait} : s.connectionWaits[i]? = some w →
      w.completed = true → Move s (.connectionTimeout i) (s.handleConnectionTimeout i w)
  | stop {t : ClientTimers} : t.isRunning = false → t.client = s.client →
      t.connecting = s.connecting → t.unasked = s.unasked → t.timer = s.timer → Move s .stop t

variable {s t : ClientTimers} {e : Event}

theorem move_of_step (h : s.step e = some t) : s.Move e t := by
  obtain ⟨-, h⟩ := Option.ite_none_right_eq_some.1 h
  cases e with
  | connect ep id =>
      cases h
      exact .connect ep id
  | connectDone i ok =>
      obtain ⟨hi, h⟩ := Option.ite_none_right_eq_some.1 h
      cases h
      exact .connectDone (List.getElem?_eq_getElem hi)
  | resolveFail i =>
      obtain ⟨hi, h⟩ := Option.ite_none_right_eq_some.1 h
      cases h
      exact .resolveFail (List.getElem?_eq_getElem hi)
  | accept =>
      cases h
      exact .accept
  | receive p frame =>
      obtain ⟨-, h⟩ := Option.ite_none_left_eq_some.1 h
      cases h
      exact .receive p frame
  | tick seconds =>
      cases h
      exact .tick seconds
  | expire p i =>
      simp only [handle] at h
      split at h
      · obtain ⟨-, h⟩ := Option.ite_none_right_eq_some.1 h
        cases h
        exact .expire p i
      · cases h
  | stunTimeout p i =>
      simp only [handle] at h
      split at h
      · next hw =>
          obtain ⟨-, h⟩ := Option.ite_none_right_eq_some.1 h
          cases h
          exact .stunTimeout hw
      · cases h
  | connectionExpire i =>
      simp only [handle] at h
      split at h
      · obtain ⟨⟨-, hexpired⟩, h⟩ := Option.ite_none_right_eq_some.1 h
        cases h
        exact .connectionExpire i hexpired
      · cases h
  | connectionTimeout i =>
      simp only [handle] at h
      split at h
      · next hw =>
          obtain ⟨hcompleted, h⟩ := Option.ite_none_right_eq_some.1 h
          cases h
          exact .connectionTimeout hw hcompleted
      · cases h
  | stop =>
      cases h
      exact .stop rfl rfl rfl rfl rfl
  | direct | proxy | send | disconnect =>
      cases h
      exact .follow rfl
  | receiveFail | receiveRaw | receiveRawFail =>
      obtain ⟨-, h⟩ := Option.ite_none_left_eq_some.1 h
      cases h
      exact .follow rfl
  | runDirect | runDoDirect | directDone | proxyDone | close =>
      obtain ⟨-, h⟩ := Option.ite_none_right_eq_some.1 h
      cases h
      exact .follow rfl

end ClientTimers

end OpenNat
