import BoostSamples.Framing.Delimiter
import BoostSamples.OpenNat.Command

/-!
# Framing of the opennat messages

`Send` appends the delimiter to the message buffer, and the socket carries the
buffers one after the other.
-/

namespace OpenNat

open Framing

/-- The delimiter of `Command.proto`: `@`, a cyrillic letter in UTF-8 and
`hunk`. -/
def delimiter : Buff := [0x40, 0xd1, 0x81, 0x68, 0x75, 0x6e, 0x6b]

theorem delimiter_ne_nil : delimiter ≠ [] := by decide

theorem delimiter_unbordered : Unbordered delimiter := by decide

/-- A message passed to `Send`: a command serialized by `SetBuff`, or a buffer
of the application. -/
inductive Message
  | command (cmd : Command)
  | data (bytes : Buff)

namespace Message

/-- The message buffer; `serialize` is the serialization of `SetBuff`. -/
def getBuff (serialize : Command → Buff) : Message → Buff
  | command cmd => serialize cmd
  | data bytes => bytes

end Message

/-- The buffer that `Send` hands to the socket: the delimiter is inserted at
its end. -/
def sendBuff (serialize : Command → Buff) (msg : Message) : Buff :=
  msg.getBuff serialize ++ delimiter

def wire (serialize : Command → Buff) (msgs : List Message) : Buff :=
  (msgs.map (sendBuff serialize)).flatten

theorem wire_eq_stream (serialize : Command → Buff) (msgs : List Message) :
    wire serialize msgs =
      stream delimiter (msgs.map (Message.getBuff serialize)) := by
  rw [wire, stream, List.map_map]
  rfl

end OpenNat
