import BoostSamples.Buffer.Streambuf

/-!
# The sessions of the printer proxy

A session is a socket with a buffer of its own. What has been started on the
socket is part of its state: the reads that wait for data, the reads whose data
is in the buffer and whose handler has not run yet, and the writes, which take
their bytes from the memory they were given for as long as they are in progress.
No operation fails.
-/

namespace ProxyPrinter

open Buffer

inductive Handler
  | serverWrite
  | clientWrite
  | acceptorQueue
  deriving DecidableEq, Repr

/-- An `async_write` in progress. The source is the session whose buffer it was
given; there is none if its memory has been given back since. -/
structure Write (ε : Type*) where
  source : Option ε
  cursor : Cursor UInt8
  handler : Handler
  /-- What the memory held when the write was started. -/
  content : List UInt8

namespace Write

variable {ε : Type*}

/-- The bytes are what the socket may take next; from memory that has been
given back they are any bytes. -/
def Gives (w : Write ε) (memory : ε → Option (Nat → UInt8)) (bytes : List UInt8) : Prop :=
  w.cursor.done.length + bytes.length ≤ w.cursor.size ∧
    ∀ m ∈ w.source.bind memory,
      bytes = region m (w.cursor.start + w.cursor.done.length) bytes.length

instance (w : Write ε) (memory : ε → Option (Nat → UInt8)) (bytes : List UInt8) :
    Decidable (w.Gives memory bytes) :=
  inferInstanceAs (Decidable (_ ∧ _))

def take (w : Write ε) (bytes : List UInt8) : Write ε :=
  { w with cursor := { w.cursor with done := w.cursor.done ++ bytes } }

def Done (w : Write ε) : Prop := w.cursor.done.length = w.cursor.size

instance (w : Write ε) : Decidable w.Done := inferInstanceAs (Decidable (_ = _))

end Write

/-- `ProxySession`, with what has been started on its socket. -/
structure ProxySession (ε : Type*) where
  buffer : Nat → UInt8 := fun _ => 0
  transferred : Nat := 0
  /-- The socket is connected. -/
  linked : Bool := false
  /-- Reads that wait for data. -/
  reads : Nat := 0
  /-- The numbers of bytes of the reads whose handler has not run yet. -/
  arrived : List Nat := []
  /-- What the reads have stored in the buffer so far. -/
  received : List (List UInt8) := []
  writes : List (Write ε) := []
  /-- The bytes that the socket has taken from writes. -/
  sent : List UInt8 := []

def buffSize : Nat := 4096

namespace ProxySession

variable {ε : Type*}

def asyncRead (s : ProxySession ε) : ProxySession ε := { s with reads := s.reads + 1 }

def asyncWrite (s : ProxySession ε) (w : Write ε) : ProxySession ε :=
  { s with writes := s.writes ++ [w] }

def bufferWrite (s : ProxySession ε) (owner : ε) (handler : Handler) : Write ε :=
  ⟨some owner, ⟨0, s.transferred, []⟩, handler, region s.buffer 0 s.transferred⟩

def receive (s : ProxySession ε) (bytes : List UInt8) : Option (ProxySession ε) :=
  if s.linked ∧ 0 < s.reads ∧ 0 < bytes.length ∧ bytes.length ≤ buffSize then
    some { s with
      buffer := store s.buffer 0 bytes
      reads := s.reads - 1
      arrived := s.arrived ++ [bytes.length]
      received := s.received ++ [bytes] }
  else none

def takeRead (s : ProxySession ε) : Option (Nat × ProxySession ε) :=
  match s.arrived with
  | [] => none
  | n :: arrived => some (n, { s with arrived := arrived })

def transfer (s : ProxySession ε) (memory : ε → Option (Nat → UInt8)) (i : Nat)
    (bytes : List UInt8) : Option (ProxySession ε) :=
  (s.writes[i]?).bind fun w =>
    if s.linked ∧ w.Gives memory bytes then
      some { s with writes := s.writes.set i (w.take bytes), sent := s.sent ++ bytes }
    else none

/-- A write all of whose bytes have been taken, and the session without it. -/
def takeWrite (s : ProxySession ε) (i : Nat) : Option (Write ε × ProxySession ε) :=
  (s.writes[i]?).bind fun w =>
    if w.Done then some (w, { s with writes := s.writes.eraseIdx i }) else none

section Spec

variable {s t : ProxySession ε}

theorem receive_eq_some {bytes : List UInt8} (h : s.receive bytes = some t) :
    0 < s.reads ∧ t = { s with
      buffer := store s.buffer 0 bytes
      reads := s.reads - 1
      arrived := s.arrived ++ [bytes.length]
      received := s.received ++ [bytes] } := by
  obtain ⟨⟨_, hreads, _⟩, h⟩ := Option.ite_none_right_eq_some.1 h
  exact ⟨hreads, (Option.some.inj h).symm⟩

theorem takeRead_eq_some {n : Nat} (h : s.takeRead = some (n, t)) :
    ∃ rest, s.arrived = n :: rest ∧ t = { s with arrived := rest } := by
  unfold takeRead at h
  split at h
  · exact nomatch h
  · next m rest hm =>
      cases h
      exact ⟨rest, hm, rfl⟩

theorem transfer_eq_some {memory : ε → Option (Nat → UInt8)} {i : Nat} {bytes : List UInt8}
    (h : s.transfer memory i bytes = some t) :
    ∃ w, s.writes[i]? = some w ∧ w.Gives memory bytes ∧
      t = { s with writes := s.writes.set i (w.take bytes), sent := s.sent ++ bytes } := by
  obtain ⟨w, hw, h⟩ := Option.bind_eq_some_iff.1 h
  obtain ⟨⟨_, hgives⟩, h⟩ := Option.ite_none_right_eq_some.1 h
  exact ⟨w, hw, hgives, (Option.some.inj h).symm⟩

theorem takeWrite_eq_some {i : Nat} {w : Write ε} (h : s.takeWrite i = some (w, t)) :
    s.writes[i]? = some w ∧ w.Done ∧ t = { s with writes := s.writes.eraseIdx i } := by
  obtain ⟨v, hv, h⟩ := Option.bind_eq_some_iff.1 h
  obtain ⟨hdone, h⟩ := Option.ite_none_right_eq_some.1 h
  cases h
  exact ⟨hv, hdone, rfl⟩

end Spec

end ProxySession

/-- What the socket takes from a buffer that has not changed goes on with the
reading of it. -/
theorem Write.reads_take {ε : Type*} {w : Write ε} {memory : ε → Option (Nat → UInt8)}
    {buffer : Nat → UInt8} {bytes : List UInt8} (hgives : w.Gives memory bytes)
    (hbuffer : w.source.bind memory = some buffer) (hreads : w.cursor.Reads buffer w.content) :
    (w.take bytes).cursor.Reads buffer (w.take bytes).content := by
  have hbytes := hgives.2 buffer hbuffer
  have htake : (w.take bytes).cursor = w.cursor.advance buffer bytes.length := by
    rw [Cursor.advance, ← hbytes]
    rfl
  rw [htake]
  exact hreads.advance hgives.1

structure Incoming where
  buffer : Nat → UInt8
  reads : Nat
  arrived : List Nat
  received : List (List UInt8)

def ProxySession.incoming {ε : Type*} (s : ProxySession ε) : Incoming :=
  ⟨s.buffer, s.reads, s.arrived, s.received⟩

inductive Incoming.Reading (p : Incoming) (handled : List (List UInt8)) : Prop
  | waiting : p.reads = 1 → p.arrived = [] → p.received = handled → Reading p handled
  | arrived {n : Nat} : p.reads = 0 → p.arrived = [n] →
      p.received = handled ++ [region p.buffer 0 n] → Reading p handled

/-- A chunk that is to be handled has been stored in the buffer, and the read
that brought it was the only one. -/
theorem Incoming.Reading.of_arrived {p : Incoming} {handled : List (List UInt8)} {n : Nat}
    {rest : List Nat} (h : p.Reading handled) (harrived : p.arrived = n :: rest) :
    p.reads = 0 ∧ rest = [] ∧ p.received = handled ++ [region p.buffer 0 n] := by
  cases h with
  | waiting _ hnone _ =>
      rw [hnone] at harrived
      exact nomatch harrived
  | arrived hreads hsome hreceived =>
      rw [hsome] at harrived
      obtain ⟨rfl, rfl⟩ := List.cons.inj harrived
      exact ⟨hreads, rfl, hreceived⟩

theorem Incoming.Reading.of_reads {p : Incoming} {handled : List (List UInt8)}
    (h : p.Reading handled) (hreads : 0 < p.reads) :
    p.reads = 1 ∧ p.arrived = [] ∧ p.received = handled := by
  cases h with
  | waiting hone hnone hreceived => exact ⟨hone, hnone, hreceived⟩
  | arrived hzero _ _ => omega

theorem Incoming.Reading.handled_isPrefix {p : Incoming} {handled : List (List UInt8)}
    (h : p.Reading handled) : handled.flatten <+: p.received.flatten := by
  cases h with
  | waiting _ _ hreceived => exact hreceived ▸ List.prefix_refl _
  | arrived _ _ hreceived =>
      rw [hreceived, List.flatten_append]
      exact List.prefix_append _ _

theorem Incoming.Reading.length_received {p : Incoming} {handled : List (List UInt8)}
    (h : p.Reading handled) : p.received.length = handled.length + p.arrived.length := by
  cases h with
  | waiting _ hnone hreceived => rw [hnone, hreceived]; rfl
  | arrived _ hsome hreceived => rw [hsome, hreceived]; simp

theorem Incoming.Reading.store {p : Incoming} {handled : List (List UInt8)}
    (h : p.Reading handled) (hreads : 0 < p.reads) (bytes : List UInt8) :
    ({ p with
      buffer := Buffer.store p.buffer 0 bytes
      reads := p.reads - 1
      arrived := p.arrived ++ [bytes.length]
      received := p.received ++ [bytes] } : Incoming).Reading handled := by
  obtain ⟨hone, hnone, hreceived⟩ := h.of_reads hreads
  refine .arrived (by simp [hone]) (by rw [hnone]; rfl) ?_
  rw [hreceived, region_store]

theorem Incoming.Reading.received_eq {p : Incoming} {handled : List (List UInt8)}
    (h : p.Reading handled) (harrived : p.arrived = []) : p.received = handled := by
  cases h with
  | waiting _ _ hreceived => exact hreceived
  | arrived _ hsome _ =>
      rw [hsome] at harrived
      exact nomatch harrived

/-- A write of the buffer of a session, which has not changed since. -/
structure Write.Direct {ε : Type*} (w : Write ε) (owner : ε) (buffer : Nat → UInt8) : Prop where
  source : w.source = some owner
  handler : w.handler = .serverWrite
  reads : w.cursor.Reads buffer w.content

end ProxyPrinter
