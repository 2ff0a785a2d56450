import Mathlib.Data.BitVec

/-!
# The command messages of opennat

The messages of `Command.proto` as the handlers read them. A `bytes` field is
its byte string. A field that carries a uuid in text form is only ever given
to `string_generator`, which returns the uuid or throws, so such a field is the
result of that call: `some u` for a text that parses to `u`, `none` for a text
on which it throws, the empty text of an absent field included.
-/

namespace OpenNat

abbrev Uuid := BitVec 128

/-- The nil uuid, the id of a session that has not been given one. -/
def nilUuid : Uuid := 0

/-- A uuid in text form, read by `string_generator`. -/
abbrev UuidText := Option Uuid

abbrev Buff := List UInt8

/-- The session types; `unknown` is the type of a session before its connect
request. -/
inductive SessionType
  | proxyUp
  | proxyDown
  | direct
  | stun
  | unknown
  deriving DecidableEq, Repr

/-- An address as `from_string` returns it. -/
inductive Address
  | v4 (bits : BitVec 32)
  | v6 (bits : BitVec 128)
  deriving DecidableEq, Repr

/-- The endpoint message. As for the uuids, a text field is what its parser makes
of it: `address::from_string`, `lexical_cast<unsigned short>` for the port, and
`address_v4::from_string` for the network; `none` means that it throws. -/
structure Endpoint where
  address : Option Address := none
  port : Option (BitVec 16) := none
  network : Option (BitVec 32) := none
  deriving DecidableEq, Repr

namespace Connect

inductive Protocol
  | request
  | reply
  deriving DecidableEq, Repr

inductive Kind
  | direct
  | proxyUp
  | proxyDown
  | stun
  deriving DecidableEq, Repr

end Connect

/-- The connect message: a request for a session of the given type, or a reply
that it is initialized or ready, which may tell a client its external endpoint. -/
structure Connect where
  protocol : Connect.Protocol
  kind : Connect.Kind
  clientId : UuidText := none
  initialized : Bool := false
  ready : Bool := false
  external : Option Endpoint := none
  deriving DecidableEq, Repr

structure Heartbeat where
  ping : Bool := false
  pong : Bool := false
  deriving DecidableEq, Repr

namespace Subscribe

inductive Protocol
  | request
  | reply
  deriving DecidableEq, Repr

end Subscribe

/-- The subscription message. An absent client id is kept apart from a
malformed one, since the handlers ask for its presence first. -/
structure Subscribe where
  protocol : Subscribe.Protocol
  clientId : Option UuidText := none
  online : Bool := false
  deriving DecidableEq, Repr

namespace P2P

inductive Protocol
  | error
  | makeDirect
  | makeProxy
  | data
  deriving DecidableEq, Repr

end P2P

/-- The request for a direct session, or the answer that it has failed. The only
protocol of an error is that the peer is unreachable, and its text is only
logged, so `error` says whether there is one. -/
structure MakeDirect where
  error : Bool := false
  sessionId : UuidText := none
  external : Option Endpoint := none
  internal : Option Endpoint := none
  deriving DecidableEq, Repr

/-- The message relayed from client to client; `makeProxy` is the session id of
its `make_proxy` part, if it has one. The `error` part has one protocol, which is
also that of an absent one, and a text that is only logged; it is left out. -/
structure P2P where
  protocol : P2P.Protocol
  fromId : UuidText := none
  toId : UuidText := none
  makeDirect : Option MakeDirect := none
  makeProxy : Option UuidText := none
  data : Option Buff := none
  deriving DecidableEq, Repr

namespace Command

inductive Protocol
  | connect
  | p2p
  | heartbeat
  | subscribe
  | data
  deriving DecidableEq, Repr

end Command

structure Command where
  protocol : Command.Protocol
  connect : Option Connect := none
  p2p : Option P2P := none
  heartbeat : Option Heartbeat := none
  subscribe : Option Subscribe := none
  data : Option Buff := none
  deriving DecidableEq, Repr

/-- Where a frame comes from: the control code of a client or of the server, an
application that sent `data` on a session, or bytes that are no frame anyone
sent. Nothing in the handlers depends on it. -/
inductive Origin
  | control
  | payload (client sessionId : Uuid) (data : Buff)
  | stray
  deriving DecidableEq, Repr

/-- A delimited frame. `command` is what `ParseFromArray` makes of its bytes;
`none` means that it fails. -/
structure Frame where
  command : Option Command
  origin : Origin := .control
  deriving DecidableEq, Repr

def Frame.ofCommand (cmd : Command) : Frame := ⟨some cmd, .control⟩

end OpenNat
