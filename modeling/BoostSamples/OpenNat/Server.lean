import BoostSamples.Transition.System
import BoostSamples.OpenNat.ProxyMgr
import BoostSamples.OpenNat.SessionMgr

/-!
# The opennat server

The handlers of `Server`, each one step of a system. A connection is its
session object together with the operations outstanding on it: reads of
`Receive` and `ReceiveProxy`, relays of `SendProxy` and waits on its timer. The
frames that have arrived on it and are still to be handled are its `inbox`, the
frames written to it its `outbox`.

The handlers run on one strand, except that a timeout handler may run between
any two of them. A null session pointer that is dereferenced ends the process
(`fault`), and a completion handler that never leaves its loop blocks the
strand (`hung`).
-/

namespace OpenNat

open Registry Transition

abbrev ConnId := Nat

/-- An outstanding wait on a session timer, bound to a session id. A completed
wait has expired or has been cancelled, and its handler has not run yet. -/
structure Wait where
  sessionId : Uuid
  completed : Bool := false
  deriving DecidableEq, Repr

structure Session where
  id : Uuid := nilUuid
  type : SessionType := .unknown
  isOpen : Bool := true
  timeout : Nat := 0
  expiresAt : Nat := 0
  waits : List Wait := []
  deriving DecidableEq, Repr

namespace Session

/-- The number of unanswered pings after which a session is removed. -/
def maxTimeout : Nat := 3

/-- `cancel` on the timer: every outstanding wait completes. -/
def cancelTimer (x : Session) : Session :=
  { x with waits := x.waits.map fun w => { w with completed := true } }

/-- `expires_from_now`: the waits are cancelled and the expiry moves. -/
def expiresFromNow (x : Session) (now seconds : Nat) : Session :=
  { x.cancelTimer with expiresAt := now + seconds }

def asyncWait (x : Session) (sessionId : Uuid) : Session :=
  { x with waits := x.waits ++ [⟨sessionId, false⟩] }

/-- `Session::Stop`: closes the socket and cancels the timer. -/
def stop (x : Session) : Session :=
  if x.isOpen then { x.cancelTimer with isOpen := false } else x

end Session

def proxyType : Side → SessionType
  | .down => .proxyDown
  | .up => .proxyUp

@[simp] theorem side_proxyType (d : Side) : (proxyType d).side = some d := by
  cases d <;> rfl

/-- A connection of the server. `remote` is the remote end of its socket, which is the
unspecified one if that cannot be read. -/
structure Conn where
  session : Session := {}
  remote : Address × BitVec 16 := (.v4 0, 0)
  accepted : Bool := false
  /-- Outstanding reads of `Receive`. -/
  receives : Nat := 0
  /-- Outstanding reads of `ReceiveProxy`. -/
  proxyReceives : Nat := 0
  /-- `SendProxy` writes from the stream of this session in progress. -/
  relays : Nat := 0
  inbox : List Frame := []
  outbox : List Frame := []
  /-- The failure handler of `Receive` has run. -/
  failed : Bool := false
  deriving DecidableEq, Repr

structure QueueEntry where
  sessionId : Uuid
  type : SessionType
  msg : Frame
  deriving DecidableEq, Repr

structure Server where
  now : Nat := 0
  conns : ConnId → Conn := fun _ => {}
  stunMgr : SessionMgr ConnId := .empty
  proxyMgr : ProxyMgr ConnId := .empty
  subscribeList : Uuid → List Uuid := fun _ => []
  serverQueue : List QueueEntry := []
  /-- `DoSend` posted to the strand. -/
  posted : List (ConnId × Frame) := []
  /-- Writes of `DoSend` in progress. -/
  inFlight : List (ConnId × Frame) := []
  /-- Writes of `SendP2P` in progress, each with its destination and sender. -/
  p2pWrites : List (ConnId × ConnId) := []
  /-- The calls of `onNotify_`: subscriber, subscription and online flag. -/
  notified : List (Uuid × Uuid × Bool) := []
  fault : Bool := false
  hung : Bool := false

namespace Server

def modify (s : Server) (c : ConnId) (f : Conn → Conn) : Server :=
  { s with conns := Function.update s.conns c (f (s.conns c)) }

def modifySession (s : Server) (c : ConnId) (f : Session → Session) : Server :=
  s.modify c fun x => { x with session := f x.session }

def stop (s : Server) (c : ConnId) : Server := s.modifySession c Session.stop

/-- `SessionMgr::RemoveSession` on the STUN registry. -/
def removeStun (s : Server) (id : Uuid) : Server :=
  match s.stunMgr.find id with
  | none => s
  | some c => { s.stop c with stunMgr := s.stunMgr.removeSession id }

/-- Stops the session a pointer names, if it is not null. -/
def stopHalf (s : Server) (half : Option ConnId) : Server :=
  match half with
  | none => s
  | some c => s.stop c

/-- `ProxyMgr::RemoveSession`: stops both sessions of the pair. -/
def removeProxy (s : Server) (id : Uuid) : Server :=
  match s.proxyMgr.findPair id with
  | none => s
  | some pair =>
      { (s.stopHalf pair.down).stopHalf pair.up with
        proxyMgr := s.proxyMgr.removeSession id }

/-- The session pointer that a queued message is sent to. `none` is an
exception, `some none` a null pointer. -/
def lookup (s : Server) (type : SessionType) (id : Uuid) : Option (Option ConnId) :=
  match type with
  | .stun => (s.stunMgr.find id).map some
  | .proxyUp => (s.proxyMgr.findPair id).map Pair.up
  | .proxyDown => (s.proxyMgr.findPair id).map Pair.down
  | _ => none

/-- `Server::Send`: the message is queued for the session, and `DoSend` is
posted if the queue was empty. The exceptions inside are only logged. -/
def send (s : Server) (id : Uuid) (type : SessionType) (cmd : Command) : Server :=
  match s.lookup type id with
  | some (some c) =>
      let entry : QueueEntry := ⟨id, type, .ofCommand cmd⟩
      let queue := s.serverQueue ++ [entry]
      if queue.length > 1 then { s with serverQueue := queue }
      else { s with serverQueue := queue, posted := s.posted ++ [(c, entry.msg)] }
  | _ => s

/-- Writes a frame to a connection whose socket is open. -/
def write (s : Server) (c : ConnId) (frame : Frame) : Server :=
  s.modify c fun x =>
    if x.session.isOpen then { x with outbox := x.outbox ++ [frame] } else x

def subscribeReply (subscription : Uuid) (online : Bool) : Command :=
  { protocol := .subscribe
    subscribe := some ⟨.reply, some (some subscription), online⟩ }

/-- `onNotify_`, connected to `Server::Send`. -/
def onNotify (s : Server) (subscriber subscription : Uuid) (online : Bool) : Server :=
  let s := { s with notified := s.notified ++ [(subscriber, subscription, online)] }
  s.send subscriber .stun (subscribeReply subscription online)

def notify (s : Server) (subscription : Uuid) (online : Bool) : Server :=
  (s.subscribeList subscription).foldl
    (fun t subscriber => t.onNotify subscriber subscription online) s

def subscribe (s : Server) (subscription subscriber : Uuid) (online : Bool) : Server :=
  let list := s.subscribeList subscription
  let s := { s with
    subscribeList := Function.update s.subscribeList subscription
      (if subscriber ∈ list then list else list ++ [subscriber]) }
  s.onNotify subscriber subscription online

def connectReply (kind : Connect.Kind) (initialized ready : Bool)
    (external : Option Endpoint := none) : Command :=
  { protocol := .connect
    connect := some ⟨.reply, kind, none, initialized, ready, external⟩ }

/-- The remote end of a connection, as the reply to a STUN request tells it. -/
def external (s : Server) (c : ConnId) : Endpoint :=
  { address := some (s.conns c).remote.1, port := some (s.conns c).remote.2 }

/-- `Process` on a STUN request. The session takes the id and its timer is
started before the registry is asked. -/
def connectStun (s : Server) (c : ConnId) (id : Uuid) : Server :=
  let s := s.modifySession c fun x =>
    (Session.expiresFromNow { x with id := id, type := .stun } s.now 5).asyncWait id
  match s.stunMgr.addSession id c with
  | (_, false) => (s.modifySession c fun x => { x with id := nilUuid }).stop c
  | (m, true) =>
      let s := { s with stunMgr := m }
      (s.notify id true).send id .stun (connectReply .stun false true (some (s.external c)))

def proxyKind : Side → Connect.Kind
  | .down => .proxyDown
  | .up => .proxyUp

/-- `Process` on a PROXYUP or PROXYDOWN request; the flag is its result. -/
def connectProxy (s : Server) (c : ConnId) (d : Side) (id : Uuid) : Server × Bool :=
  let s := s.modifySession c fun x => { x with id := id, type := proxyType d }
  match s.proxyMgr.addSession id (proxyType d) c with
  | (_, false) => ((s.modifySession c fun x => { x with id := nilUuid }).stop c, true)
  | (m, true) =>
      let s := { s with proxyMgr := m }
      (s.send id (proxyType d) (connectReply (proxyKind d) true false), false)

def ping : Command := { protocol := .heartbeat, heartbeat := some { ping := true } }

def pong : Command := { protocol := .heartbeat, heartbeat := some { pong := true } }

/-- `Process` on a heartbeat. -/
def processHeartbeat (s : Server) (c : ConnId) (h : Heartbeat) : Server :=
  if h.pong then s.modifySession c fun x => { x with timeout := 0 }
  else if h.ping then
    let s := s.modifySession c fun x => { x.expiresFromNow s.now 10 with timeout := 0 }
    s.send (s.conns c).session.id (s.conns c).session.type pong
  else s

/-- `Server::Process`. An exception is an error that carries the state in which
it was thrown; the flag of the result says whether the connection stays with
`Receive`. -/
def process (s : Server) (c : ConnId) (cmd : Command) : Except Server (Server × Bool) :=
  match cmd.protocol with
  | .connect =>
      match cmd.connect with
      | none => .ok (s, true)
      | some connectIn =>
          match connectIn.protocol, connectIn.kind, connectIn.clientId with
          | .reply, _, _ => .ok (s, true)
          | .request, .direct, _ => .ok (s, true)
          | .request, _, none => .error s
          | .request, .stun, some id => .ok (s.connectStun c id, true)
          | .request, .proxyUp, some id => .ok (s.connectProxy c .up id)
          | .request, .proxyDown, some id => .ok (s.connectProxy c .down id)
  | .heartbeat => .ok (s.processHeartbeat c (cmd.heartbeat.getD {}), true)
  | .subscribe =>
      match cmd.subscribe with
      | some ⟨.request, some (some subscription), _⟩ =>
          .ok (s.subscribe subscription (s.conns c).session.id
            (0 < s.stunMgr.count subscription), true)
      | some ⟨.request, _, _⟩ => .error s
      | _ => .ok (s, true)
  | .data => .ok (s, true)
  | .p2p => .ok (s, true)

def unreachable (fromId toId : Uuid) : Command :=
  { protocol := .p2p
    p2p := some { protocol := .error, fromId := some fromId, toId := some toId } }

def postReceive (s : Server) (c : ConnId) : Server :=
  s.modify c fun x => { x with receives := x.receives + 1 }

def postReceiveProxy (s : Server) (c : ConnId) : Server :=
  s.modify c fun x => { x with proxyReceives := x.proxyReceives + 1 }

def takeReceive (s : Server) (c : ConnId) : Server :=
  s.modify c fun x => { x with receives := x.receives - 1 }

def takeReceiveProxy (s : Server) (c : ConnId) : Server :=
  s.modify c fun x => { x with proxyReceives := x.proxyReceives - 1 }

def takeRelay (s : Server) (c : ConnId) : Server :=
  s.modify c fun x => { x with relays := x.relays - 1 }

def takeFrame (s : Server) (c : ConnId) : Server :=
  s.modify c fun x => { x with inbox := x.inbox.tail }

/-- `Server::SendP2P`: the frame of the sender is written to the destination,
or an error is sent back; either way the sender goes on receiving. -/
def sendP2P (s : Server) (sender : ConnId) (clientId : Uuid) (frame : Frame) : Server :=
  let s := match s.stunMgr.find clientId with
    | some dest =>
        { s.write dest frame with p2pWrites := s.p2pWrites ++ [(dest, sender)] }
    | none =>
        s.send (s.conns sender).session.id .stun
          (unreachable clientId (s.conns sender).session.id)
  s.postReceive sender

/-- The body of the read handler of `Server::Receive` inside its `try`. -/
def handleReceive (s : Server) (c : ConnId) (frame : Frame) : Except Server Server :=
  match frame.command with
  | none => .error s
  | some cmd =>
      match cmd.protocol, cmd.p2p with
      | .p2p, some p2p =>
          match p2p.toId with
          | none => .error s
          | some clientId => .ok (s.sendP2P c clientId frame)
      | _, _ =>
          match s.process c cmd with
          | .error s' => .error s'
          | .ok (s', true) => .ok (s'.postReceive c)
          | .ok (s', false) => .ok (s'.postReceiveProxy c)

def receiveCatch (s : Server) (c : ConnId) : Server :=
  let id := (s.conns c).session.id
  ((s.removeStun id).notify id false).modify c fun x => { x with failed := true }

/-- `Server::SendProxy`. The bytes written are the frame that the read handler
of `handler` has just delimited in the stream of its own session. -/
def sendProxy (s : Server) (handler : ConnId) (frame : Frame)
    (sender dest : Option ConnId) : Server :=
  match sender, dest with
  | some f, some t =>
      (s.modify f fun x => { x with relays := x.relays + 1 }).write t
        (if f = handler then frame else ⟨none, .stray⟩)
  | _, _ => { s with fault := true }

/-- The body of the read handler of `Server::ReceiveProxy` inside its `try`. -/
def handleReceiveProxy (s : Server) (c : ConnId) (frame : Frame) : Except Server Server :=
  match s.proxyMgr.findPair (s.conns c).session.id with
  | none => .error s
  | some pair =>
      match (s.conns c).session.type with
      | .proxyDown => .ok (s.sendProxy c frame pair.down pair.up)
      | .proxyUp => .ok (s.sendProxy c frame pair.up pair.down)
      | _ => .error s

def receiveProxyCatch (s : Server) (c : ConnId) : Server :=
  s.removeProxy (s.conns c).session.id

/-- The loop of the completion handler of `DoSend`, run for at most `fuel`
rounds from a non-empty queue. The result is the queue that is left and the
session found for its head; `none` means that the loop has not ended. -/
def drainLoop (s : Server) : Nat → List QueueEntry → Option (List QueueEntry × Option ConnId)
  | 0, _ => none
  | _ + 1, [] => none
  | fuel + 1, entry :: rest =>
      match s.lookup entry.type entry.sessionId with
      | some (some next) => some (entry :: rest, some next)
      -- the pair is there but the wanted half is empty: `next` stays null
      | some none => s.drainLoop fuel (entry :: rest)
      | none => if rest = [] then some ([], none) else s.drainLoop fuel rest

/-- The completion handler of `DoSend` up to its `pop`. -/
def pop (s : Server) (i : Nat) : Server :=
  { s with inFlight := s.inFlight.eraseIdx i, serverQueue := s.serverQueue.tail }

/-- The completion handler of `DoSend` after its `pop`. A loop that has not ended
after one round for each entry never ends. -/
def drain (s : Server) : Server :=
  if s.serverQueue = [] then s
  else
    match s.drainLoop (s.serverQueue.length + 1) s.serverQueue with
    | none => { s with hung := true }
    | some (queue, next) =>
        { s with
          serverQueue := queue
          posted := s.posted ++ match next, queue with
            | some c, entry :: _ => [(c, entry.msg)]
            | _, _ => [] }

def completeWait (s : Server) (c : ConnId) (i : Nat) : Server :=
  s.modifySession c fun x =>
    { x with waits := x.waits.modify i fun w => { w with completed := true } }

def takeWait (s : Server) (c : ConnId) (i : Nat) : Server :=
  s.modifySession c fun x => { x with waits := x.waits.eraseIdx i }

def handleStunTimeout (s : Server) (sessionId : Uuid) : Server :=
  match s.stunMgr.find sessionId with
  | none => s
  | some c =>
      let x := (s.conns c).session
      if x.expiresAt ≤ s.now then
        if x.timeout = Session.maxTimeout then s.removeStun x.id
        else
          let s := s.modifySession c fun x => { x with timeout := x.timeout + 1 }
          -- a blocked completion handler holds the mutex of the queue
          if s.hung then s
          else
            let s := s.send x.id .stun ping
            s.modifySession c fun x => (x.expiresFromNow s.now 5).asyncWait x.id
      else s.modifySession c fun x => x.asyncWait x.id

/-- What can happen at the server. An index picks one of the posts, writes or
waits outstanding. -/
inductive Event
  | accept (c : ConnId)
  | arrive (c : ConnId) (frame : Frame)
  | receive (c : ConnId)
  | receiveFail (c : ConnId)
  | receiveProxy (c : ConnId)
  | receiveProxyFail (c : ConnId)
  | doSend (i : Nat)
  | sendDone (i : Nat) (ok : Bool)
  | relayDone (c : ConnId) (ok : Bool)
  | p2pDone (i : Nat) (ok : Bool)
  | tick (seconds : Nat)
  | expire (c : ConnId) (i : Nat)
  | stunTimeout (c : ConnId) (i : Nat)
  deriving DecidableEq, Repr

def Event.onStrand : Event → Bool
  | .receive _ | .receiveFail _ | .receiveProxy _ | .receiveProxyFail _ => true
  | .doSend _ | .sendDone _ _ | .relayDone _ _ | .p2pDone _ _ => true
  | _ => false

def handle (s : Server) : Event → Option Server
  | .accept c =>
      if (s.conns c).accepted then none
      else some (s.modify c fun x => { x with accepted := true, receives := 1 })
  | .arrive c frame =>
      if (s.conns c).accepted ∧ (s.conns c).session.isOpen then
        some (s.modify c fun x => { x with inbox := x.inbox ++ [frame] })
      else none
  | .receive c =>
      if (s.conns c).receives = 0 then none
      else
        (s.conns c).inbox.head?.map fun frame =>
          match ((s.takeReceive c).takeFrame c).handleReceive c frame with
          | .ok s' => s'
          | .error s' => s'.receiveCatch c
  | .receiveFail c =>
      if (s.conns c).receives = 0 then none
      else some ((s.takeReceive c).receiveCatch c)
  | .receiveProxy c =>
      if (s.conns c).proxyReceives = 0 then none
      else
        (s.conns c).inbox.head?.map fun frame =>
          match ((s.takeReceiveProxy c).takeFrame c).handleReceiveProxy c frame with
          | .ok s' => s'
          | .error s' => s'.receiveProxyCatch c
  | .receiveProxyFail c =>
      if (s.conns c).proxyReceives = 0 then none
      else some ((s.takeReceiveProxy c).receiveProxyCatch c)
  | .doSend i =>
      (s.posted[i]?).map fun write =>
        { s.write write.1 write.2 with
          posted := s.posted.eraseIdx i
          inFlight := s.inFlight ++ [write] }
  | .sendDone i _ =>
      (s.inFlight[i]?).map fun _ => (s.pop i).drain
  | .relayDone c ok =>
      if (s.conns c).relays = 0 then none
      else some (if ok then (s.takeRelay c).postReceiveProxy c else s.takeRelay c)
  | .p2pDone i ok =>
      (s.p2pWrites[i]?).map fun (dest, sender) =>
        let s := { s with p2pWrites := s.p2pWrites.eraseIdx i }
        if ok then s
        else
          s.send (s.conns sender).session.id .stun
            (unreachable (s.conns dest).session.id (s.conns sender).session.id)
  | .tick seconds => some { s with now := s.now + seconds }
  | .expire c i =>
      match (s.conns c).session.waits[i]? with
      | some w =>
          if w.completed = false ∧ (s.conns c).session.expiresAt ≤ s.now then
            some (s.completeWait c i)
          else none
      | none => none
  | .stunTimeout c i =>
      match (s.conns c).session.waits[i]? with
      | some w =>
          if w.completed then
            some ((s.takeWait c i).handleStunTimeout w.sessionId)
          else none
      | none => none

/-- One step: a crashed server does nothing, and a blocked strand runs none of
its handlers. -/
def step (s : Server) (e : Event) : Option Server :=
  if s.fault ∨ (s.hung ∧ e.onStrand) then none else s.handle e

def connectRequest (kind : Connect.Kind) (id : Uuid) : Frame :=
  .ofCommand
    { protocol := .connect
      connect := some { protocol := .request, kind := kind, clientId := some id } }

/-- A connection is accepted and its first frame, a connect request, handled. -/
def connectRun (c : ConnId) (kind : Connect.Kind) (id : Uuid) : List Event :=
  [.accept c, .arrive c (connectRequest kind id), .receive c]

def system : System Server Event where
  init s := s = {}
  step := step

end Server

end OpenNat
