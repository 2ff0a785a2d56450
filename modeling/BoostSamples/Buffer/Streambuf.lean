import Mathlib.Data.List.Basic
import Mathlib.Data.List.Range

/-!
# A stream buffer over addressable memory

A stream buffer is a memory with a window of readable elements. Consuming moves
the start of the window, committing stores elements behind its end, and
preparing for a read may move the window and do anything to the memory outside
it. Whoever holds addresses of the memory while the buffer goes on being used
reads what is there by then; `unread` is what is left to read of a region.
-/

namespace Buffer

def region {α : Type*} (memory : Nat → α) (start size : Nat) : List α :=
  (List.range size).map fun i => memory (start + i)

def store {α : Type*} (memory : Nat → α) (start : Nat) (elements : List α) : Nat → α :=
  fun address => if start ≤ address then elements.getD (address - start) (memory address)
    else memory address

section Region

variable {α : Type*} {memory memory' : Nat → α}

@[simp] theorem length_region (start size : Nat) :
    (region memory start size).length = size := by simp [region]

theorem region_add (start a b : Nat) :
    region memory start (a + b) = region memory start a ++ region memory (start + a) b := by
  simp [region, List.range_add, Function.comp_def, Nat.add_assoc]

theorem take_region {start a size : Nat} (h : a ≤ size) :
    (region memory start size).take a = region memory start a := by
  obtain ⟨b, rfl⟩ := Nat.exists_eq_add_of_le h
  rw [region_add]
  exact List.take_left' (length_region start a)

theorem region_store (start : Nat) (elements : List α) :
    region (store memory start elements) start elements.length = elements := by
  refine List.ext_getElem (by simp) fun i hi _ => ?_
  simp only [length_region] at hi
  simp [region, store, hi]

end Region

/-- The memory of a stream buffer and the window of its readable elements. -/
structure Streambuf (α : Type*) where
  memory : Nat → α
  next : Nat := 0
  size : Nat := 0

namespace Streambuf

variable {α : Type*}

def input (b : Streambuf α) : List α := region b.memory b.next b.size

def consume (b : Streambuf α) (n : Nat) : Streambuf α :=
  { b with next := b.next + min n b.size, size := b.size - min n b.size }

def commit (b : Streambuf α) (elements : List α) : Streambuf α :=
  { b with
    memory := store b.memory (b.next + b.size) elements
    size := b.size + elements.length }

/-- What preparing for a read may leave: the readable elements are the same, at
the old place or at another. -/
def Prepares (b : Streambuf α) (memory : Nat → α) (next : Nat) : Prop :=
  region memory next b.size = b.input

instance [DecidableEq α] (b : Streambuf α) (memory : Nat → α) (next : Nat) :
    Decidable (b.Prepares memory next) :=
  inferInstanceAs (Decidable (_ = _))

def prepare (b : Streambuf α) (memory : Nat → α) (next : Nat) : Streambuf α :=
  { b with memory := memory, next := next }

@[simp] theorem length_input (b : Streambuf α) : b.input.length = b.size :=
  length_region _ _

@[simp] theorem memory_consume (b : Streambuf α) (n : Nat) :
    (b.consume n).memory = b.memory := rfl

theorem input_consume (b : Streambuf α) (n : Nat) : (b.consume n).input = b.input.drop n := by
  have hsplit : region b.memory b.next (min n b.size + (b.size - min n b.size)) =
      region b.memory b.next (min n b.size) ++
        region b.memory (b.next + min n b.size) (b.size - min n b.size) := region_add ..
  rw [Nat.add_sub_cancel' (Nat.min_le_right n b.size)] at hsplit
  rw [input, input, hsplit, consume]
  by_cases h : n ≤ b.size
  · rw [Nat.min_eq_left h, List.drop_left' (length_region _ _)]
  · rw [Nat.min_eq_right (Nat.le_of_not_le h), Nat.sub_self]
    simp [region, Nat.le_of_not_le h]

theorem input_commit (b : Streambuf α) (elements : List α) :
    (b.commit elements).input = b.input ++ elements := by
  rw [input, commit, region_add]
  dsimp only
  rw [region_store, input]
  congr 1
  refine List.map_congr_left fun i hi => ?_
  have hlt := List.mem_range.1 hi
  rw [store, if_neg (by omega)]

theorem input_prepare {b : Streambuf α} {memory : Nat → α} {next : Nat}
    (h : b.Prepares memory next) : (b.prepare memory next).input = b.input := h

end Streambuf

/-- A reader that was given a region of a memory and what it has read of it. -/
structure Cursor (α : Type*) where
  start : Nat
  size : Nat
  done : List α := []

namespace Cursor

variable {α : Type*}

def advance (c : Cursor α) (memory : Nat → α) (n : Nat) : Cursor α :=
  { c with done := c.done ++ region memory (c.start + c.done.length) n }

def unread (c : Cursor α) (memory : Nat → α) : List α :=
  region memory (c.start + c.done.length) (c.size - c.done.length)

/-- The reader has read the beginning of the elements and will find the rest. -/
def Reads (c : Cursor α) (memory : Nat → α) (elements : List α) : Prop :=
  c.done ++ c.unread memory = elements ∧ c.done.length ≤ c.size

theorem reads_start {memory : Nat → α} (start size : Nat) :
    (⟨start, size, []⟩ : Cursor α).Reads memory (region memory start size) :=
  ⟨rfl, Nat.zero_le size⟩

theorem Reads.advance {c : Cursor α} {memory : Nat → α} {elements : List α}
    (h : c.Reads memory elements) {n : Nat} (hn : c.done.length + n ≤ c.size) :
    (c.advance memory n).Reads memory elements := by
  have hlength : (c.advance memory n).done.length = c.done.length + n := by simp [Cursor.advance]
  refine ⟨?_, hlength ▸ hn⟩
  have hsplit : c.size - c.done.length = n + (c.size - (c.done.length + n)) := by omega
  rw [← h.1, unread, unread, hlength, hsplit, region_add, Cursor.advance]
  simp [Nat.add_assoc]

/-- The reader finds the rest as long as what it has not read is left alone. -/
theorem Reads.congr {c : Cursor α} {memory memory' : Nat → α} {elements : List α}
    (h : c.Reads memory elements) (heq : c.unread memory' = c.unread memory) :
    c.Reads memory' elements :=
  ⟨by rw [heq]; exact h.1, h.2⟩

theorem Reads.isPrefix {c : Cursor α} {memory : Nat → α} {elements : List α}
    (h : c.Reads memory elements) : c.done <+: elements := ⟨_, h.1⟩

theorem Reads.eq_of_length {c : Cursor α} {memory : Nat → α} {elements : List α}
    (h : c.Reads memory elements) (hdone : c.done.length = c.size) : c.done = elements := by
  rw [← h.1, unread, hdone]
  simp [region]

end Cursor

end Buffer
