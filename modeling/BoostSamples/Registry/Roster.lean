import Mathlib.Data.Nat.Basic

/-!
# A roster of objects that enter a registry once

Objects are numbered in the order of their construction. Each has an id, under which
it may be registered. An object that is going to be registered has a pending place;
it leaves it when it is registered or refused. So an object that has a place is not
registered, and it has no second one.
-/

namespace Registry

/-- The registry, the ids of the objects, the number of places that are pending for
each, and the number of objects. -/
structure Roster (ι : Type*) where
  find : ι → Option Nat
  id : Nat → ι
  pending : Nat → Nat
  length : Nat

namespace Roster

variable {ι : Type*}

/-- No object is registered anew and none leaves its place; new ones may have been
given one. -/
structure Kept (r t : Roster ι) : Prop where
  find : ∀ key p, t.find key = some p → r.find key = some p
  id : ∀ p, p < r.length → t.id p = r.id p
  pending : ∀ p, t.pending p = r.pending p ∨
    r.length ≤ p ∧ p < t.length ∧ t.pending p = r.pending p + 1
  length : r.length ≤ t.length

/-- One object leaves its place. It may take another id and be registered under it. -/
structure Left (p : Nat) (r t : Roster ι) : Prop where
  find : ∀ key q, t.find key = some q → r.find key = some q ∨ q = p ∧ key = t.id p
  id : ∀ q, q ≠ p → t.id q = r.id q
  place : r.pending p = t.pending p + 1
  pending : ∀ q, q ≠ p → t.pending q = r.pending q
  length : t.length = r.length

/-- The objects registered have their keys as ids and no place; the others that have
one, or are still to be constructed, are idle. -/
structure Sound (r : Roster ι) (idle : Nat → Prop) : Prop where
  keyed : ∀ key p, r.find key = some p → r.id p = key ∧ r.pending p = 0 ∧ p < r.length
  once : ∀ p, r.pending p ≤ 1
  bound : ∀ p, 0 < r.pending p → p < r.length
  idle : ∀ p, 0 < r.pending p ∨ r.length ≤ p → idle p

variable {r t : Roster ι} {idle idle' : Nat → Prop} {p : Nat}

theorem Sound.not_find (h : r.Sound idle) (hp : 0 < r.pending p ∨ r.length ≤ p) (key : ι) :
    r.find key ≠ some p := by
  intro hkey
  obtain ⟨-, hzero, hlt⟩ := h.keyed key p hkey
  omega

theorem Kept.sound (h : r.Kept t) (hr : r.Sound idle)
    (hidle : ∀ p, (∀ key, r.find key ≠ some p) → idle p → idle' p) : t.Sound idle' := by
  have hlength := h.length
  refine ⟨fun key p hp => ?_, fun p => ?_, fun p hp => ?_, fun p hp => ?_⟩
  · obtain ⟨hid, hzero, hlt⟩ := hr.keyed key p (h.find key p hp)
    refine ⟨(h.id p hlt).trans hid, ?_, Nat.lt_of_lt_of_le hlt hlength⟩
    rcases h.pending p with hsame | ⟨hle, -, -⟩ <;> omega
  · have hbound := hr.bound p
    have honce := hr.once p
    rcases h.pending p with hsame | ⟨hle, -, hone⟩ <;> omega
  · have hbound := hr.bound p
    rcases h.pending p with hsame | ⟨-, hlt, -⟩ <;> omega
  · have hplace : 0 < r.pending p ∨ r.length ≤ p := by
      rcases h.pending p with hsame | ⟨hle, -, -⟩ <;> omega
    exact hidle p (hr.not_find hplace) (hr.idle p hplace)

theorem Left.sound (h : r.Left p t) (hr : r.Sound idle)
    (hidle : ∀ q, (∀ key, r.find key ≠ some q) → idle q → idle' q) : t.Sound idle' := by
  have hplace := h.place
  have honce := hr.once p
  have hlength := h.length
  have hle : ∀ q, t.pending q ≤ r.pending q := fun q => by
    by_cases hq : q = p
    · subst hq
      omega
    · exact Nat.le_of_eq (h.pending q hq)
  refine ⟨fun key q hq => ?_, fun q => Nat.le_trans (hle q) (hr.once q), fun q hq => ?_,
    fun q hq => ?_⟩
  · rcases h.find key q hq with hold | ⟨rfl, hkey⟩
    · obtain ⟨hid, hzero, hlt⟩ := hr.keyed key q hold
      have hne : q ≠ p := by
        rintro rfl
        omega
      exact ⟨(h.id q hne).trans hid, (h.pending q hne).trans hzero, hlength ▸ hlt⟩
    · exact ⟨hkey.symm, by omega, hlength ▸ hr.bound q (by omega)⟩
  · have hqle := hle q
    have hbound := hr.bound q (by omega)
    omega
  · have hplace : 0 < r.pending q ∨ r.length ≤ q := by
      have hqle := hle q
      omega
    exact hidle q (hr.not_find hplace) (hr.idle q hplace)

end Roster

end Registry
