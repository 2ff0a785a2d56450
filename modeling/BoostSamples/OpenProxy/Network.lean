import BoostSamples.OpenProxy.Client

/-!
# The proxy and its two clients

The proxy and the two clients of one session, connected by their sockets: what a
client writes arrives at the proxy in order and in pieces of any length, and
what the proxy writes is at once among the bytes that the client can read.
`Admits` says which handlers may run in which states for payloads to get through.
-/

namespace OpenProxy

open Framing Registry Transition

structure Net where
  proxy : Proxy Side
  clients : Side → Client

inductive NetEvent
  | proxy (e : ProxyEvent Side)
  | arrive (d : Side) (bytes : Nat)
  | client (d : Side) (e : ClientEvent)
  deriving DecidableEq, Repr

def Client.deliver (k : Client) (bytes : Buff) : Client :=
  { k with conn := { k.conn with inbound := k.conn.inbound ++ bytes } }

def clientPeers (sessionId : Uuid) (clientId : Side → Uuid) : Peers where
  sessionId := sessionId
  clientId := clientId
  greeting _ := Event.ofReady.greeting

namespace Net

section Model

variable (A : TextArchive)

def start (sessionId : Uuid) (clientId : Side → Uuid) : Net where
  proxy := .start
  clients d := { conn := { session := {
    id := sessionId
    clientId := clientId d
    type := streamType d
    bytesRead := 0
    bytesWrite := 0 } } }

def deliver (s : Net) (proxy : Proxy Side) : Net where
  proxy := proxy
  clients d := (s.clients d).deliver
    ((proxy.conns d).outbound.drop (s.proxy.conns d).outbound.length)

def step (s : Net) : NetEvent → Option Net
  | .proxy e => if e.isRegular then (s.proxy.step A e).map s.deliver else none
  | .arrive d bytes =>
      let x := (s.clients d).conn
      if 0 < bytes ∧ bytes ≤ x.outbound.length then
        (s.proxy.step A (.arrive d (x.outbound.take bytes))).map fun proxy =>
          { proxy := proxy
            clients := Function.update s.clients d
              { s.clients d with conn := { x with outbound := x.outbound.drop bytes } } }
      else none
  | .client d e =>
      ((s.clients d).perform A e).map fun k =>
        { s with clients := Function.update s.clients d k }

def system (sessionId : Uuid) (clientId : Side → Uuid) : System Net NetEvent where
  init s := s = start sessionId clientId
  step := step A

/-- The steps with which payloads get through. A greeting is handled with nothing
behind it in its buffer, and what is then taken from the buffer of the opposite
session is nothing, or a greeting that has been handled and that is not being
written already. A completed `SendReady` does not empty a buffer whose greeting
is still to be handled. Data is written to a socket only behind the greetings. The
client finds nothing behind a greeting, and payloads are free of the delimiter. -/
def Admits (P : Peers) (s : Net) : NetEvent → Prop
  | .proxy (.handle c) => s.proxy.AtGreeting A c →
      (s.proxy.conns c).reader =
        .completed .initializing (s.proxy.conns c).session.buffWrite.length ∧
      ((s.proxy.half P c.other).isSome → s.proxy.readyBytes c.other = [] ∨
        ((s.proxy.conns c.other).reader.isInitializing = false ∧
          ∀ w ∈ s.proxy.writes, w.kind = .ready → w.dest ≠ c))
  | .proxy (.write i _) => ∀ w ∈ s.proxy.writes[i]?, w.kind = .data →
      ∀ v ∈ s.proxy.writes, v.kind = .ready → v.dest = w.dest → v.rest = []
  | .proxy (.writeDone i) => ∀ w ∈ s.proxy.writes[i]?, w.kind = .ready →
      (s.proxy.conns w.source).session.buffWrite = [] ∨
        (s.proxy.conns w.source).reader.isInitializing = false
  | .client d .handle => (s.clients d).conn.reader.isInitializing = true →
      (s.clients d).conn.reader =
        .completed .initializing (s.clients d).conn.session.buffWrite.length
  | .client _ (.send payload) => ¬ delimiter <:+: payload
  | _ => True

instance (P : Peers) (s : Net) (e : NetEvent) : Decidable (s.Admits A P e) := by
  unfold Admits
  split <;> infer_instance

end Model

end Net

end OpenProxy
