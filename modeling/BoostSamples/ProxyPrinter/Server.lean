import BoostSamples.ProxyPrinter.Session
import BoostSamples.Transition.System

/-!
# The printer proxy in front of the server

`ProxyServer` accepts one client. What the client sends before the connection
to the server stands is kept in a queue, and `Connect` makes the session of
that connection; later it is written to the server from the buffer of the
accepted session. One thread runs all handlers.

A session that `Connect` replaces lives until its `HandleConnect` returns, since
only the completion handler of the connection holds it: the other handlers are
bound to the proxy alone.
-/

namespace ProxyPrinter

open Buffer Transition

/-- The sessions: the accepted one and the ones that `Connect` has made. -/
inductive Endpoint
  | client
  | server (k : Nat)
  deriving DecidableEq, Repr

/-- `ProxySession` of the proxy in front of the server: the session with its
input queue and its two flags. -/
structure ServerSession extends ProxySession Endpoint where
  inputQueue : List (List UInt8) := []
  isConnected : Bool := false
  isConnecting : Bool := false
  /-- The session has not been destroyed, which closes its socket. -/
  isOpen : Bool := true

namespace ServerSession

def change (s : ServerSession) (f : ProxySession Endpoint → ProxySession Endpoint) :
    ServerSession :=
  { s with toProxySession := f s.toProxySession }

/-- Starts the write of a queued message, whose memory is given back when the
handler that starts it returns. What the socket takes at once is taken before. -/
def writeMessage (s : ServerSession) (message : List UInt8) (taken : Nat) : ServerSession :=
  let bytes := if s.linked then message.take taken else []
  s.change fun p =>
    { p.asyncWrite ⟨none, ⟨0, message.length, bytes⟩, .acceptorQueue, message⟩ with
      sent := p.sent ++ bytes }

/-- The session after its `HandleConnect`; it is destroyed unless it is `kept`. -/
def connect (c : ServerSession) (kept : Bool) : ServerSession :=
  { c.change (fun p => { p with linked := true }) with
    isConnecting := false
    isConnected := true
    isOpen := kept }

end ServerSession

/-- The proxy. The last connector is `sessions_.second`. -/
structure ProxyServer where
  accepting : Bool := true
  first : ServerSession := {}
  connectors : List ServerSession := []

namespace ProxyServer

def second (s : ProxyServer) : Option ServerSession := s.connectors.getLast?

def current (s : ProxyServer) : Nat := s.connectors.length - 1

def modifyFirst (s : ProxyServer) (f : ServerSession → ServerSession) : ProxyServer :=
  { s with first := f s.first }

def modifySecond (s : ProxyServer) (f : ServerSession → ServerSession) : ProxyServer :=
  { s with connectors := s.connectors.modify s.current f }

/-- The session is there, and its socket is open. -/
def isOpen (s : ProxyServer) : Endpoint → Bool
  | .client => true
  | .server k => (s.connectors[k]?).any fun c => c.isOpen

def memory (s : ProxyServer) : Endpoint → Option (Nat → UInt8)
  | .client => some s.first.buffer
  | .server k => (s.connectors[k]?).bind fun c => if c.isOpen then some c.buffer else none

def connect (s : ProxyServer) : ProxyServer :=
  { s with connectors := s.connectors ++ [{ isConnecting := true }] }

/-- `HandleServerWrite`: reads from the client. -/
def handleServerWrite (s : ProxyServer) : ProxyServer :=
  s.modifyFirst fun p => p.change ProxySession.asyncRead

/-- `HandleClientWrite`: reads from the server. -/
def handleClientWrite (s : ProxyServer) : ProxyServer :=
  s.modifySecond fun c => c.change ProxySession.asyncRead

def handleAccept (s : ProxyServer) : ProxyServer :=
  handleServerWrite
    { s with accepting := false, first := s.first.change fun p => { p with linked := true } }

/-- `HandleAcceptorQueue`: writes the message at the front of the queue. -/
def handleAcceptorQueue (s : ProxyServer) (taken : Nat) : ProxyServer :=
  match s.first.inputQueue with
  | [] => s
  | message :: rest =>
      (s.modifySecond fun c => c.writeMessage message taken).modifyFirst fun p =>
        { p with inputQueue := rest }

def handleConnect (s : ProxyServer) (k taken : Nat) : ProxyServer :=
  let s := { s with connectors := s.connectors.modify k fun c => c.connect (k = s.current) }
  s.handleClientWrite.handleAcceptorQueue taken

def push (s : ProxyServer) : ProxyServer :=
  s.modifyFirst fun p =>
    { p with inputQueue := p.inputQueue ++ [region p.buffer 0 p.transferred] }

def handleClientRead (s : ProxyServer) (transferred : Nat) : ProxyServer :=
  let s := s.modifyFirst fun p => p.change fun p => { p with transferred := transferred }
  if s.second.any fun c => c.isConnected then
    if s.first.inputQueue = [] then
      s.modifySecond fun c => c.change fun c =>
        c.asyncWrite (s.first.bufferWrite .client .serverWrite)
    else s.push.handleServerWrite
  else if s.first.isConnecting then s.push.handleServerWrite
  else s.push.connect.handleServerWrite

def handleServerRead (s : ProxyServer) (transferred : Nat) : ProxyServer :=
  let s := s.modifySecond fun c => c.change fun c => { c with transferred := transferred }
  match s.second with
  | none => s
  | some c =>
      s.modifyFirst fun p => p.change fun p =>
        p.asyncWrite (c.bufferWrite (.server s.current) .clientWrite)

def handleWrite (s : ProxyServer) (taken : Nat) : Handler → ProxyServer
  | .serverWrite => s.handleServerWrite
  | .clientWrite => s.handleClientWrite
  | .acceptorQueue => s.handleAcceptorQueue taken

/-- What can happen: the network accepts, connects, delivers and takes bytes,
and the handlers of completed operations run. The number `taken` says how much
the call that starts a write of the queue hands over at once. -/
inductive Event
  | accept
  | connect (k taken : Nat)
  | receive (e : Endpoint) (bytes : List UInt8)
  | read (e : Endpoint)
  | transfer (e : Endpoint) (i : Nat) (bytes : List UInt8)
  | written (e : Endpoint) (i taken : Nat)

def setSession (s : ProxyServer) (p : ProxySession Endpoint) : Endpoint → ProxyServer
  | .client => s.modifyFirst fun q => q.change fun _ => p
  | .server k => { s with connectors := s.connectors.modify k fun q => q.change fun _ => p }

def session (s : ProxyServer) : Endpoint → Option (ProxySession Endpoint)
  | .client => some s.first.toProxySession
  | .server k => (s.connectors[k]?).map ServerSession.toProxySession

def step (s : ProxyServer) : Event → Option ProxyServer
  | .accept => if s.accepting then some s.handleAccept else none
  | .connect k taken =>
      if (s.connectors[k]?).any fun c => !c.linked then some (s.handleConnect k taken) else none
  | .receive e bytes =>
      if s.isOpen e then
        (s.session e).bind fun p => (p.receive bytes).map fun p => s.setSession p e
      else none
  | .read e =>
      (s.session e).bind fun p => p.takeRead.map fun (n, p) =>
        match e with
        | .client => (s.setSession p e).handleClientRead n
        | .server _ => (s.setSession p e).handleServerRead n
  | .transfer e i bytes =>
      if s.isOpen e then
        (s.session e).bind fun p => (p.transfer s.memory i bytes).map fun p => s.setSession p e
      else none
  | .written e i taken =>
      (s.session e).bind fun p => (p.takeWrite i).map fun (w, p) =>
        (s.setSession p e).handleWrite taken w.handler

section Spec

variable {s t : ProxyServer}

theorem step_accept (h : s.step .accept = some t) : s.accepting = true ∧ t = s.handleAccept := by
  obtain ⟨haccepting, h⟩ := Option.ite_none_right_eq_some.1 h
  exact ⟨haccepting, (Option.some.inj h).symm⟩

theorem step_connect {k taken : Nat} (h : s.step (.connect k taken) = some t) :
    ∃ c, s.connectors[k]? = some c ∧ c.linked = false ∧ t = s.handleConnect k taken := by
  obtain ⟨hany, h⟩ := Option.ite_none_right_eq_some.1 h
  obtain ⟨c, hc, hlinked⟩ := (Option.any_eq_true _ _).1 hany
  exact ⟨c, hc, by simpa using hlinked, (Option.some.inj h).symm⟩

theorem step_receive {e : Endpoint} {bytes : List UInt8}
    (h : s.step (.receive e bytes) = some t) :
    ∃ p, s.session e = some p ∧ 0 < p.reads ∧ t = s.setSession { p with
      buffer := store p.buffer 0 bytes
      reads := p.reads - 1
      arrived := p.arrived ++ [bytes.length]
      received := p.received ++ [bytes] } e := by
  obtain ⟨-, h⟩ := Option.ite_none_right_eq_some.1 h
  obtain ⟨p, hp, h⟩ := Option.bind_eq_some_iff.1 h
  obtain ⟨q, hq, rfl⟩ := Option.map_eq_some_iff.1 h
  obtain ⟨hreads, rfl⟩ := ProxySession.receive_eq_some hq
  exact ⟨p, hp, hreads, rfl⟩

theorem step_read_client (h : s.step (.read .client) = some t) :
    ∃ n rest, s.first.arrived = n :: rest ∧
      t = (s.setSession { s.first.toProxySession with arrived := rest } .client).handleClientRead
        n := by
  obtain ⟨⟨n, p⟩, hp, rfl⟩ := Option.map_eq_some_iff.1 h
  obtain ⟨rest, harrived, rfl⟩ := ProxySession.takeRead_eq_some hp
  exact ⟨n, rest, harrived, rfl⟩

theorem step_read_server {k : Nat} (h : s.step (.read (.server k)) = some t) :
    ∃ c n rest, s.connectors[k]? = some c ∧ c.arrived = n :: rest ∧
      t = (s.setSession { c.toProxySession with arrived := rest } (.server k)).handleServerRead
        n := by
  obtain ⟨p, hp, h⟩ := Option.bind_eq_some_iff.1 h
  obtain ⟨⟨n, q⟩, hq, rfl⟩ := Option.map_eq_some_iff.1 h
  obtain ⟨rest, harrived, rfl⟩ := ProxySession.takeRead_eq_some hq
  obtain ⟨c, hc, rfl⟩ := Option.map_eq_some_iff.1 hp
  exact ⟨c, n, rest, hc, harrived, rfl⟩

theorem step_transfer {e : Endpoint} {i : Nat} {bytes : List UInt8}
    (h : s.step (.transfer e i bytes) = some t) :
    ∃ p w, s.session e = some p ∧ p.writes[i]? = some w ∧ w.Gives s.memory bytes ∧
      t = s.setSession { p with
        writes := p.writes.set i (w.take bytes), sent := p.sent ++ bytes } e := by
  obtain ⟨-, h⟩ := Option.ite_none_right_eq_some.1 h
  obtain ⟨p, hp, h⟩ := Option.bind_eq_some_iff.1 h
  obtain ⟨q, hq, rfl⟩ := Option.map_eq_some_iff.1 h
  obtain ⟨w, hw, hgives, rfl⟩ := ProxySession.transfer_eq_some hq
  exact ⟨p, w, hp, hw, hgives, rfl⟩

theorem step_written {e : Endpoint} {i taken : Nat} (h : s.step (.written e i taken) = some t) :
    ∃ p w, s.session e = some p ∧ p.writes[i]? = some w ∧ w.Done ∧
      t = (s.setSession { p with writes := p.writes.eraseIdx i } e).handleWrite taken
        w.handler := by
  obtain ⟨p, hp, h⟩ := Option.bind_eq_some_iff.1 h
  obtain ⟨⟨w, q⟩, hq, rfl⟩ := Option.map_eq_some_iff.1 h
  obtain ⟨hw, hdone, rfl⟩ := ProxySession.takeWrite_eq_some hq
  exact ⟨p, w, hp, hw, hdone, rfl⟩

end Spec

def system : System ProxyServer Event where
  init s := s = {}
  step := step

end ProxyServer

end ProxyPrinter
