import BoostSamples.ProxyPrinter.Session

/-!
# One direction of a relay

What is read on one socket is written to the other one from the buffer it was
read into, and read again when it has been written. The operations below are
what the handlers of both proxies do to the replies; each of them keeps the
stage, and in each stage exactly one operation is outstanding once the socket
is connected, so the buffer is never read into while it is being written.
-/

namespace ProxyPrinter

open Buffer

/-- The reads of a session, the writes of its buffer on the other socket, and
the bytes that have been taken from these writes. -/
structure Relay (ε : Type*) where
  opened : Bool
  incoming : Incoming
  writes : List (Write ε)
  sent : List UInt8

/-- A write of a reply from the buffer of a session, which has not changed
since. -/
structure Write.Reply {ε : Type*} (w : Write ε) (owner : ε) (buffer : Nat → UInt8) : Prop where
  source : w.source = some owner
  handler : w.handler = .clientWrite
  reads : w.cursor.Reads buffer w.content

namespace Relay

variable {ε : Type*}

def start (r : Relay ε) : Relay ε :=
  { r with opened := true, incoming := { r.incoming with reads := r.incoming.reads + 1 } }

def receive (r : Relay ε) (bytes : List UInt8) : Relay ε :=
  { r with incoming := { r.incoming with
      buffer := store r.incoming.buffer 0 bytes
      reads := r.incoming.reads - 1
      arrived := r.incoming.arrived ++ [bytes.length]
      received := r.incoming.received ++ [bytes] } }

def handle (r : Relay ε) (owner : ε) (n : Nat) (rest : List Nat) : Relay ε :=
  { r with
    incoming := { r.incoming with arrived := rest }
    writes := r.writes ++
      [⟨some owner, ⟨0, n, []⟩, .clientWrite, region r.incoming.buffer 0 n⟩] }

def take (r : Relay ε) (w : Write ε) (bytes : List UInt8) : Relay ε :=
  { r with writes := [w.take bytes], sent := r.sent ++ bytes }

def finish (r : Relay ε) : Relay ε :=
  { r with writes := [], incoming := { r.incoming with reads := r.incoming.reads + 1 } }

/-- The socket is not connected, or a read is outstanding, or its chunk is
being written. -/
inductive Stage (r : Relay ε) (owner : ε) : Prop
  | closed : r.opened = false → r.incoming.reads = 0 → r.incoming.arrived = [] →
      r.incoming.received = [] → r.writes = [] → r.sent = [] → Stage r owner
  | resting {handled : List (List UInt8)} : r.opened = true → r.incoming.Reading handled →
      r.writes = [] → r.sent = handled.flatten → Stage r owner
  | direct {w : Write ε} {handled : List (List UInt8)} : r.opened = true →
      r.incoming.reads = 0 → r.incoming.arrived = [] →
      r.incoming.received = handled ++ [w.content] → r.writes = [w] →
      w.Reply owner r.incoming.buffer → r.sent = handled.flatten ++ w.cursor.done → Stage r owner

/-- Exactly one operation is outstanding while the socket is connected, and
what has been taken is the beginning of what was read, and all of it if nothing
is under way. -/
structure Faithful (r : Relay ε) : Prop where
  single : r.incoming.reads + r.incoming.arrived.length + r.writes.length =
    if r.opened then 1 else 0
  ordered : r.sent <+: r.incoming.received.flatten
  complete : r.incoming.arrived = [] → r.writes = [] → r.sent = r.incoming.received.flatten

section Steps

variable {r : Relay ε} {owner : ε}

theorem Stage.faithful (h : r.Stage owner) : r.Faithful := by
  cases h with
  | closed hopened hreads harrived hreceived hwrites hsent =>
      refine ⟨by simp [hopened, hreads, harrived, hwrites], by simp [hsent], fun _ _ => ?_⟩
      rw [hsent, hreceived]
      rfl
  | resting hopened hread hwrites hsent =>
      refine ⟨?_, hsent ▸ hread.handled_isPrefix, fun harrived _ => ?_⟩
      · cases hread with
        | waiting hone hnone _ => simp [hopened, hone, hnone, hwrites]
        | arrived hzero hsome _ => simp [hopened, hzero, hsome, hwrites]
      · rw [hsent, hread.received_eq harrived]
  | direct hopened hreads harrived hreceived hwrites hreply hsent =>
      refine ⟨by simp [hopened, hreads, harrived, hwrites], ?_, fun _ hempty => ?_⟩
      · rw [hsent, hreceived, List.flatten_append]
        simpa using hreply.reads.isPrefix
      · rw [hwrites] at hempty
        exact absurd hempty (List.cons_ne_nil _ _)

theorem Stage.start (h : r.Stage owner) (hclosed : r.opened = false) : r.start.Stage owner := by
  cases h with
  | closed _ hreads harrived hreceived hwrites hsent =>
      exact .resting rfl (.waiting (congrArg (· + 1) hreads) harrived hreceived) hwrites hsent
  | resting hopened => exact absurd (hclosed.symm.trans hopened) (by decide)
  | direct hopened => exact absurd (hclosed.symm.trans hopened) (by decide)

theorem Stage.receive (h : r.Stage owner) (hreads : 0 < r.incoming.reads) (bytes : List UInt8) :
    (r.receive bytes).Stage owner := by
  cases h with
  | closed _ hzero => exact absurd hzero (Nat.ne_of_gt hreads)
  | resting hopened hread hwrites hsent =>
      exact .resting hopened (hread.store hreads bytes) hwrites hsent
  | direct _ hzero => exact absurd hzero (Nat.ne_of_gt hreads)

theorem Stage.handle (h : r.Stage owner) {n : Nat} {rest : List Nat}
    (harrived : r.incoming.arrived = n :: rest) : (r.handle owner n rest).Stage owner := by
  cases h with
  | closed _ _ hempty =>
      rw [hempty] at harrived
      exact absurd harrived.symm (List.cons_ne_nil n rest)
  | @resting handled hopened hread hwrites hsent =>
      obtain ⟨hreads, rfl, hreceived⟩ := hread.of_arrived harrived
      refine .direct
        (w := ⟨some owner, ⟨0, n, []⟩, .clientWrite, region r.incoming.buffer 0 n⟩)
        hopened hreads rfl hreceived ?_ ⟨rfl, rfl, Cursor.reads_start 0 n⟩ ?_
      · rw [Relay.handle, hwrites]
        rfl
      · show r.sent = handled.flatten ++ []
        rw [hsent, List.append_nil]
  | direct _ _ hempty =>
      rw [hempty] at harrived
      exact absurd harrived.symm (List.cons_ne_nil n rest)

theorem Stage.of_mem (h : r.Stage owner) {w : Write ε} (hw : w ∈ r.writes) :
    r.opened = true ∧ r.incoming.reads = 0 ∧ r.incoming.arrived = [] ∧ r.writes = [w] ∧
      w.Reply owner r.incoming.buffer ∧
      ∃ handled : List (List UInt8), r.incoming.received = handled ++ [w.content] ∧
        r.sent = handled.flatten ++ w.cursor.done := by
  cases h with
  | closed _ _ _ _ hwrites => simp [hwrites] at hw
  | resting _ _ hwrites => simp [hwrites] at hw
  | direct hopened hreads harrived hreceived hwrites hreply hsent =>
      rw [hwrites] at hw
      cases List.mem_singleton.1 hw
      exact ⟨hopened, hreads, harrived, hwrites, hreply, _, hreceived, hsent⟩

theorem Stage.take (h : r.Stage owner) {w : Write ε} (hw : w ∈ r.writes)
    {memory : ε → Option (Nat → UInt8)} {bytes : List UInt8} (hgives : w.Gives memory bytes)
    (hmemory : memory owner = some r.incoming.buffer) : (r.take w bytes).Stage owner := by
  obtain ⟨hopened, hreads, harrived, -, hreply, handled, hreceived, hsent⟩ := h.of_mem hw
  refine .direct (w := w.take bytes) hopened hreads harrived hreceived rfl
    ⟨hreply.source, hreply.handler, ?_⟩ ?_
  · refine Write.reads_take hgives ?_ hreply.reads
    rw [hreply.source]
    exact hmemory
  · show r.sent ++ bytes = _ ++ (w.cursor.done ++ bytes)
    rw [hsent, List.append_assoc]

theorem Stage.finish (h : r.Stage owner) {w : Write ε} (hw : w ∈ r.writes) (hdone : w.Done) :
    r.finish.Stage owner := by
  obtain ⟨hopened, hreads, harrived, -, hreply, handled, hreceived, hsent⟩ := h.of_mem hw
  refine .resting hopened (.waiting (congrArg (· + 1) hreads) harrived hreceived) rfl ?_
  show r.sent = _
  rw [hsent, hreply.reads.eq_of_length hdone, List.flatten_append]
  simp

end Steps

end Relay

end ProxyPrinter
