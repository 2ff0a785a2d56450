import BoostSamples.Framing.Reader
import BoostSamples.OpenNat.Framing
import BoostSamples.OpenNat.Client
import BoostSamples.OpenNat.Server

/-!
# The receive loops of opennat

`Client::Receive`, `Client::ReceiveRaw` and `Server::Receive` read up to the delimiter,
hand on the bytes in front of it and consume the frame. `Receive` hands on what parses
as a command: on any other body it throws before it consumes the frame, and reads no
more. What it does with a command can throw as well, can stop the session, and can
leave the connection to the other loop. So the messages that were sent are recovered,
however the stream is cut into reads, exactly if none contains the delimiter and none
ends the loop before the last.
-/

namespace OpenNat

open Framing

/-- The loops that read a connection; `raw` is `ReceiveRaw` at a client and
`ReceiveProxy` at the server. -/
inductive Loop
  | receive
  | raw
  deriving DecidableEq, Repr

/-- The next read of a loop is posted, and fails if the session has been stopped. -/
def postRead (isOpen : Bool) (loop : Loop) : Outcome Loop :=
  if isOpen then .posts loop else .stops

/-- The size of a body fits into the `int` that it is cast to. -/
def fitsInt (body : Buff) : Bool := body.length < 2 ^ 31

/-- The read handlers of `Server::Receive` and `Server::ReceiveProxy` on a body;
`parse` is `ParseFromArray`, and `written` says whether the relay to the other half of
the pair succeeds. -/
def Server.readHandler (parse : Buff → Option Command) (s : Server) (c : ConnId)
    (written : Bool) (loop : Loop) (body : Buff) : Outcome Loop :=
  match loop with
  | .receive =>
      match if fitsInt body then parse body else none with
      | none => .rejects
      | some cmd =>
          match s.handleReceive c (.ofCommand cmd) with
          | .error _ => .throws
          | .ok t =>
              postRead (t.conns c).session.isOpen
                (if (s.conns c).receives < (t.conns c).receives then .receive else .raw)
  | .raw =>
      match s.handleReceiveProxy c ⟨parse body, .stray⟩ with
      | .error _ => .rejects
      | .ok t =>
          -- a pair that holds another session in its place relays that one's stream
          if written ∧ (s.conns c).relays < (t.conns c).relays then
            postRead (t.conns c).session.isOpen .raw
          else .rejects

/-- The read handlers of `Client::Receive` and `Client::ReceiveRaw` on a body. -/
def Client.readHandler (parse : Buff → Option Command) (k : Client) (p : SessionPtr)
    (loop : Loop) (body : Buff) : Outcome Loop :=
  match loop with
  | .receive =>
      match if fitsInt body then parse body else none with
      | none => .rejects
      | some cmd =>
          match k.handleReceive p (.ofCommand cmd) with
          | .error _ => .throws
          | .ok t =>
              postRead (t.session p).isOpen
                (if (k.session p).receives < (t.session p).receives then .receive else .raw)
  | .raw => if fitsInt body then postRead (k.session p).isOpen .raw else .rejects

/-- The end of a connection that reads it, in the state in which a frame finds it. -/
inductive Peer
  | server (s : Server) (c : ConnId) (written : Bool)
  | client (k : Client) (p : SessionPtr)

namespace Peer

def readHandler (parse : Buff → Option Command) : Peer → Loop → Buff → Outcome Loop
  | server s c written => s.readHandler parse c written
  | client k p => k.readHandler parse p

end Peer

/-- A receive loop from which a stream is read in pieces, until it ends or waits for
bytes that never come, has handed on exactly `bodies`. The `n`-th frame finds the peer
in the state `peers n`, whatever its other handlers have done by then. -/
def Receives (parse : Buff → Option Command) (peers : ℕ → Peer) (loop : Loop)
    (reads bodies : List Buff) : Prop :=
  Reader.HandsOn delimiter (fun n => (peers n).readHandler parse)
    { mode := loop, reads := reads } bodies

/-- No body is rejected by the read handler that takes it, and none before the last
makes it throw or stops the session. -/
def TakesAll (parse : Buff → Option Command) (peers : ℕ → Peer) (loop : Loop)
    (bodies : List Buff) : Prop :=
  Reader.takesAll (fun n => (peers n).readHandler parse) 0 loop bodies = true

instance (parse : Buff → Option Command) (peers : ℕ → Peer) (loop : Loop)
    (bodies : List Buff) : Decidable (TakesAll parse peers loop bodies) :=
  inferInstanceAs (Decidable (_ = _))

section Runs

/-- The protobuf bytes of the reply that a direct session is ready, and of the command
of `Send2Server`: the protocol as field 1 and the data, shorter than 128 bytes, as
field 6. -/
def serializeData (cmd : Command) : Buff :=
  match cmd.data with
  | some data => [0x08, 0x05, 0x32, UInt8.ofNat data.length] ++ data
  | none => [0x08, 0x01, 0x12, 0x06, 0x08, 0x02, 0x10, 0x01, 0x28, 0x01]

def parseData : Buff → Option Command
  | 0x08 :: 0x05 :: 0x32 :: size :: data =>
      if data.length = size.toNat then some { protocol := .data, data := some data } else none
  | [0x08, 0x01, 0x12, 0x06, 0x08, 0x02, 0x10, 0x01, 0x28, 0x01] =>
      some (Client.readyReply .direct)
  | _ => none

def send2Server (data : Buff) : Message :=
  .command { protocol := .data, data := some data }

def directClient : Client where
  clientId := 7
  sessions := [{ id := 9, type := .direct, receives := 1 }]
  sessionMgr := ⟨fun id => if id = 9 then some 0 else none⟩

def stunServer : Server where
  conns c :=
    if c = 0 then { session := { id := 7, type := .stun }, accepted := true, receives := 1 }
    else {}
  stunMgr := ⟨fun id => if id = 7 then some 0 else none⟩

end Runs

end OpenNat
