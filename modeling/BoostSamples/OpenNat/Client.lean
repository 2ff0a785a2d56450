import BoostSamples.OpenNat.SessionMgr

/-!
# The opennat client

The handlers of `Client`, each a function on the state of one client. The session
objects are kept in the order of their construction, and a session pointer is a
place in that list. `sent` lists the messages that `Send` has accepted, each with
the session id it was given; the queue behind it is that of `ClientSend`. The
timers are left out: what they do to a session, its socket does to it too.

A handler that throws returns the state it has reached, since the read handlers
catch what is thrown and go on from there.
-/

namespace OpenNat

/-- A session object is named by the number of its construction. -/
abbrev SessionPtr := Nat

structure ClientSession where
  id : Uuid := nilUuid
  remoteId : Uuid := nilUuid
  type : SessionType := .unknown
  isReady : Bool := false
  isOpen : Bool := true
  /-- Outstanding reads of `Receive`. -/
  receives : Nat := 0
  /-- Outstanding reads of `ReceiveRaw`. -/
  rawReceives : Nat := 0
  deriving DecidableEq, Repr

/-- What a direct or a proxy session is to be made with. -/
structure SessionConfig where
  sessionId : Uuid
  sessionType : SessionType
  clientId : Uuid
  epList : List (Address × BitVec 16) := []
  deriving DecidableEq, Repr

inductive Callback
  | onConnected (id : Uuid) (type : SessionType)
  | onError (id : Uuid) (type : SessionType)
  | onReceive (id : Uuid) (frame : Frame)
  | onReceiveP2P (id : Uuid) (data : Buff)
  | onSubscription (id : Uuid) (online : Bool)
  deriving DecidableEq, Repr

structure Client where
  clientId : Uuid
  isConnected : Bool := false
  network : BitVec 32 := 0
  sessions : List ClientSession := []
  sessionMgr : SessionMgr SessionPtr := .empty
  bannedList : Uuid → Bool := fun _ => false
  sent : List (Uuid × Frame) := []
  /-- `Direct` posted to the strand: the client and the session id. -/
  directs : List (Uuid × Uuid) := []
  /-- `DoDirect` posted to the strand. -/
  doDirects : List SessionConfig := []
  /-- Attempts of `DoDirect` in progress. -/
  connects : List (SessionPtr × SessionConfig) := []
  /-- Connections of `DoProxy` in progress. -/
  proxyConnects : List SessionPtr := []
  calls : List Callback := []

structure Offer where
  internal : Option Endpoint := none
  external : Option Endpoint := none
  deriving DecidableEq, Repr

namespace Client

def session (k : Client) (p : SessionPtr) : ClientSession := k.sessions.getD p {}

def modify (k : Client) (p : SessionPtr) (f : ClientSession → ClientSession) : Client :=
  { k with sessions := k.sessions.modify p f }

def construct (k : Client) (x : ClientSession) : Client :=
  { k with sessions := k.sessions ++ [x] }

def addBan (k : Client) (id : Uuid) : Client :=
  { k with bannedList := Function.update k.bannedList id true }

def removeBan (k : Client) (id : Uuid) : Client :=
  { k with bannedList := Function.update k.bannedList id false }

/-- `SessionMgr::RemoveSession`: the session is stopped and its entry erased. -/
def removeSession (k : Client) (id : Uuid) : Client :=
  match k.sessionMgr.find id with
  | none => k
  | some p =>
      { k.modify p fun x => { x with isOpen := false } with
        sessionMgr := k.sessionMgr.removeSession id }

def call (k : Client) (callback : Callback) : Client :=
  { k with calls := k.calls ++ [callback] }

/-- `Client::Send`: without a session under the id it throws, which is only
logged. -/
def send (k : Client) (id : Uuid) (frame : Frame) : Client :=
  match k.sessionMgr.find id with
  | none => k
  | some _ => { k with sent := k.sent ++ [(id, frame)] }

/-- `Client::Send` on a command. -/
def sendCommand (k : Client) (id : Uuid) (cmd : Command) : Client :=
  k.send id (.ofCommand cmd)

def postReceive (k : Client) (p : SessionPtr) : Client :=
  k.modify p fun x => { x with receives := x.receives + 1 }

def postReceiveRaw (k : Client) (p : SessionPtr) : Client :=
  k.modify p fun x => { x with rawReceives := x.rawReceives + 1 }

def takeReceive (k : Client) (p : SessionPtr) : Client :=
  k.modify p fun x => { x with receives := x.receives - 1 }

def takeReceiveRaw (k : Client) (p : SessionPtr) : Client :=
  k.modify p fun x => { x with rawReceives := x.rawReceives - 1 }

def p2pCommand (p2p : P2P) : Command := { protocol := .p2p, p2p := some p2p }

/-- `Client::Direct`; the endpoints are those `OpenNAT` has put in. -/
def direct (k : Client) (clientId sessionId : Uuid) (offer : Offer) : Client :=
  k.sendCommand k.clientId <| p2pCommand
    { protocol := .makeDirect
      fromId := some k.clientId
      toId := some clientId
      makeDirect := some
        { sessionId := some sessionId, external := offer.external, internal := offer.internal } }

/-- `Client::DoDirect`: without an endpoint left the request is sent back and the
session banned, otherwise a connection to the first endpoint is begun. -/
def doDirect (k : Client) (config : SessionConfig) : Client :=
  match config.epList with
  | [] =>
      { k with directs := k.directs ++ [(config.clientId, config.sessionId)] }.addBan
        config.sessionId
  | _ :: _ =>
      { k.construct { id := config.sessionId, type := config.sessionType } with
        connects := k.connects ++ [(k.sessions.length, config)] }

/-- A connect request of a session made by `DoDirect` or `DoProxy`. -/
def connectRequest (kind : Connect.Kind) (id : Uuid) : Command :=
  { protocol := .connect
    connect := some { protocol := .request, kind := kind, clientId := some id } }

def readyReply (kind : Connect.Kind) : Command :=
  { protocol := .connect, connect := some { protocol := .reply, kind := kind, ready := true } }

/-- The connection handler of `DoDirect` for the attempt at index `i`: the session
is registered and its connect request sent, or the next endpoint is tried. -/
def directDone (k : Client) (i : Nat) (ok : Bool) : Client :=
  match k.connects[i]? with
  | none => k
  | some (p, config) =>
      let k := { k with connects := k.connects.eraseIdx i }
      let next :=
        { k with doDirects := k.doDirects ++ [{ config with epList := config.epList.tail }] }
      if ok then
        match k.sessionMgr.addSession config.sessionId p with
        | (_, false) => next
        | (mgr, true) =>
            ({ k with sessionMgr := mgr }.postReceive p).sendCommand config.sessionId
              (connectRequest .direct config.sessionId)
      else next

/-- `Client::DoProxy` up to its connection. -/
def doProxy (k : Client) (config : SessionConfig) : Client :=
  { k.construct
      { id := config.sessionId, remoteId := config.clientId, type := config.sessionType } with
    proxyConnects := k.proxyConnects ++ [k.sessions.length] }

def proxyRequest : SessionType → Option Connect.Kind
  | .proxyUp => some .proxyUp
  | .proxyDown => some .proxyDown
  | _ => none

/-- The connection handler of `DoProxy` for the session at index `i`. -/
def proxyDone (k : Client) (i : Nat) (ok : Bool) : Client :=
  match k.proxyConnects[i]? with
  | none => k
  | some p =>
      let x := k.session p
      let k := { k with proxyConnects := k.proxyConnects.eraseIdx i }
      if ok then
        match k.sessionMgr.addSession x.id p, proxyRequest x.type with
        | (_, false), _ => k.call (.onError x.id x.type)
        | (mgr, true), none => { k with sessionMgr := mgr }.call (.onError x.id x.type)
        | (mgr, true), some kind =>
            ({ k with sessionMgr := mgr }.sendCommand x.id (connectRequest kind x.id)).postReceive p
      else k.call (.onError x.id x.type)

/-- The endpoint that an endpoint message gives; `none` means that a parser
throws. -/
def endpointOf (e : Endpoint) : Option (Address × BitVec 16) :=
  e.address.bind fun address => e.port.map fun port => (address, port)

/-- The internal endpoint of a request, if its network is that of the client. -/
def internalOf (network : BitVec 32) : Option Endpoint → Option (List (Address × BitVec 16))
  | none => some []
  | some e => e.network.bind fun n =>
      if n = network then (endpointOf e).map fun ep => [ep] else some []

def externalOf : Option Endpoint → Option (List (Address × BitVec 16))
  | none => some []
  | some e => (endpointOf e).map fun ep => [ep]

def endpointsOf (network : BitVec 32) (m : MakeDirect) : Option (List (Address × BitVec 16)) :=
  (internalOf network m.internal).bind fun internal =>
    (externalOf m.external).map fun external => internal ++ external

/-- The answer to a request that is refused. The sender's id is sent back as it
was received. -/
def refusal (k : Client) (toId : UuidText) (sessionId : Uuid) : Command :=
  p2pCommand
    { protocol := .makeDirect
      fromId := some k.clientId
      toId := toId
      makeDirect := some { error := true, sessionId := some sessionId } }

/-- `ProcessP2P` on a request for a direct session, or on the answer that it has
failed. -/
def processMakeDirect (k : Client) (fromId : UuidText) (m : MakeDirect) : Except Client Client :=
  match m.sessionId with
  | none => .error k
  | some sessionId =>
      if m.error then
        let k := k.removeBan sessionId
        match fromId with
        | none => .error k
        | some clientId => .ok (k.doProxy ⟨sessionId, .proxyUp, clientId, []⟩)
      else if k.bannedList sessionId then
        let k := k.removeBan sessionId
        .ok (k.sendCommand k.clientId (k.refusal fromId sessionId))
      else
        match fromId, endpointsOf k.network m with
        | some clientId, some epList => .ok (k.doDirect ⟨sessionId, .direct, clientId, epList⟩)
        | _, _ => .error k

/-- `Client::ProcessP2P` on a message of a session. -/
def processP2P (k : Client) (p : SessionPtr) (p2p : P2P) : Except Client Client :=
  match p2p.protocol with
  | .error =>
      match p2p.fromId with
      | none => .error k
      | some id => .ok (k.call (.onError id (k.session p).type))
  | .makeDirect =>
      match p2p.makeDirect with
      | none => .ok k
      | some m => k.processMakeDirect p2p.fromId m
  | .makeProxy =>
      match p2p.makeProxy, p2p.fromId with
      | none, _ => .ok k
      | some (some sessionId), some clientId =>
          .ok (k.doProxy ⟨sessionId, .proxyDown, clientId, []⟩)
      | some _, _ => .error k
  | .data =>
      match p2p.data, p2p.fromId with
      | none, _ => .ok k
      | some data, some id => .ok (k.call (.onReceiveP2P id data))
      | some _, none => .error k

def receiveCatch (k : Client) (p : SessionPtr) : Client :=
  let x := k.session p
  let k := if x.id = k.clientId then { k with isConnected := false } else k
  (k.removeSession x.id).call (.onError x.id x.type)

/-- A connect request that a client receives, on a connection it has accepted:
the session takes the id and the type before the registry is asked. The flag says
whether it stays with `Receive`. -/
def acceptRequest (k : Client) (p : SessionPtr) (id : Uuid) (type : SessionType) :
    Client × Bool :=
  let k := k.modify p fun x => { x with id := id, type := type }
  match k.sessionMgr.addSession id p with
  | (_, false) => (k.modify p fun x => { x with id := nilUuid, isOpen := false }, true)
  | (mgr, true) =>
      let k := { k with sessionMgr := mgr }.modify p fun x => { x with isReady := true }
      if type = .stun then
        (({ k with isConnected := true }.call (.onConnected id type)).sendCommand id
          (readyReply .stun), true)
      else ((k.sendCommand id (readyReply .direct)).call (.onConnected id type), false)

def connected (k : Client) (p : SessionPtr) : Client :=
  (k.modify p fun x => { x with isReady := true }).call
    (.onConnected (k.session p).id (k.session p).type)

def makeProxy (k : Client) (x : ClientSession) : Command :=
  p2pCommand
    { protocol := .makeProxy
      fromId := some k.clientId
      toId := some x.remoteId
      makeProxy := some (some x.id) }

/-- `Client::Process` on a connect reply. The external endpoint of a STUN reply is
parsed first. -/
def processReply (k : Client) (p : SessionPtr) (c : Connect) : Except Client (Client × Bool) :=
  let x := k.session p
  match c.kind with
  | .stun =>
      match externalOf c.external with
      | none => .error k
      | some _ =>
          .ok (if c.ready then { k with isConnected := true }.connected p else k, true)
  | .direct => .ok (if c.ready then (k.connected p, false) else (k, true))
  | .proxyUp =>
      .ok (if c.initialized then (k.sendCommand k.clientId (k.makeProxy x), true)
        else if c.ready then ((k.sendCommand x.id (readyReply .proxyDown)).connected p, false)
        else (k, true))
  | .proxyDown =>
      .ok (if c.initialized then (k.sendCommand x.id (readyReply .proxyUp), true)
        else if c.ready then (k.connected p, false)
        else (k, true))

def pong : Command := { protocol := .heartbeat, heartbeat := some { pong := true } }

/-- `Client::Process`; the flag of the result says whether the session stays with
`Receive`. -/
def process (k : Client) (p : SessionPtr) (cmd : Command) : Except Client (Client × Bool) :=
  match cmd.protocol with
  | .connect =>
      match cmd.connect with
      | none => .ok (k, true)
      | some c =>
          match c.protocol, c.kind, c.clientId with
          | .reply, _, _ => k.processReply p c
          | .request, .stun, some id => .ok (k.acceptRequest p id .stun)
          | .request, .direct, some id => .ok (k.acceptRequest p id .direct)
          | .request, .stun, none => .error k
          | .request, .direct, none => .error k
          | .request, _, _ => .ok (k, true)
  | .heartbeat =>
      let h := cmd.heartbeat.getD {}
      if h.pong then .ok (k, true)
      else if h.ping then .ok (k.sendCommand (k.session p).id pong, true)
      else .ok (k, true)
  | .subscribe =>
      match cmd.subscribe with
      | some ⟨.reply, some (some id), online⟩ => .ok (k.call (.onSubscription id online), true)
      | some ⟨.reply, _, _⟩ => .error k
      | _ => .ok (k, true)
  | .data => .ok (k, true)
  | .p2p => .ok (k, true)

/-- The body of the read handler of `Client::Receive` inside its `try`. -/
def handleReceive (k : Client) (p : SessionPtr) (frame : Frame) : Except Client Client :=
  match frame.command with
  | none => .error k
  | some cmd =>
      match cmd.protocol, cmd.p2p with
      | .p2p, some p2p =>
          match k.processP2P p p2p with
          | .error k' => .error k'
          | .ok k' => .ok (k'.postReceive p)
      | _, _ =>
          match k.process p cmd with
          | .error k' => .error k'
          | .ok (k', true) => .ok (k'.postReceive p)
          | .ok (k', false) => .ok (k'.postReceiveRaw p)

/-- The read handler of `Client::Receive` on a frame. -/
def receive (k : Client) (p : SessionPtr) (frame : Frame) : Client :=
  match (k.takeReceive p).handleReceive p frame with
  | .ok k' => k'
  | .error k' => k'.receiveCatch p

/-- The read handler of `Client::ReceiveRaw` on a frame. -/
def receiveRaw (k : Client) (p : SessionPtr) (frame : Frame) : Client :=
  ((k.takeReceiveRaw p).call (.onReceive (k.session p).id frame)).postReceiveRaw p

end Client

end OpenNat
