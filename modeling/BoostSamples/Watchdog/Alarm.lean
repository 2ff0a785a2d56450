import Mathlib.Data.List.InsertIdx
import Mathlib.Data.Option.Basic

/-!
# Alarms

An alarm has an expiry time and outstanding waits. Setting the alarm, like cancelling
it, cancels the waits. The handler of a wait can run once the wait is cancelled or the
alarm has expired, and since a handler may run late it looks at the expiry time itself.
Where a clock only moves on while no handler can run, an alarm that is waited for has
not expired in the past.
-/

namespace Watchdog

/-- The expiry time, `none` for never, and for each outstanding wait whether it is
cancelled. -/
structure Alarm where
  expiresAt : Option ℕ := none
  waits : List Bool := []
  deriving DecidableEq, Repr

namespace Alarm

def cancel (x : Alarm) : Alarm := { x with waits := x.waits.map fun _ => true }

/-- The alarm is set some time ahead, which cancels the waits. -/
def set (x : Alarm) (now ahead : ℕ) : Alarm := { x.cancel with expiresAt := some (now + ahead) }

def wait (x : Alarm) : Alarm := { x with waits := x.waits ++ [false] }

def take (x : Alarm) (j : ℕ) : Alarm := { x with waits := x.waits.eraseIdx j }

def Expired (x : Alarm) (now : ℕ) : Prop := ∃ time ∈ x.expiresAt, time ≤ now

instance (x : Alarm) (now : ℕ) : Decidable (x.Expired now) :=
  decidable_of_iff (x.expiresAt.any (· ≤ now)) (by
    cases h : x.expiresAt <;> simp [Expired, h])

/-- The handler of a wait can run. -/
def CanRun (x : Alarm) (now j : ℕ) : Prop :=
  ∃ cancelled ∈ x.waits[j]?, cancelled = true ∨ x.Expired now

instance (x : Alarm) (now j : ℕ) : Decidable (x.CanRun now j) :=
  decidable_of_iff (x.waits[j]?.any fun cancelled => cancelled = true ∨ x.Expired now) (by
    cases h : x.waits[j]? <;> simp [CanRun, h])

def Idle (x : Alarm) (now : ℕ) : Prop := ∀ j < x.waits.length, ¬ x.CanRun now j

instance (x : Alarm) (now : ℕ) : Decidable (x.Idle now) :=
  inferInstanceAs (Decidable (∀ j < x.waits.length, ¬ x.CanRun now j))

variable {x : Alarm} {now ahead j : ℕ}

theorem expired_iff {time : ℕ} (h : x.expiresAt = some time) : x.Expired now ↔ time ≤ now := by
  simp [Expired, h]

theorem mem_cancel {cancelled : Bool} (h : cancelled ∈ x.cancel.waits) : cancelled = true := by
  obtain ⟨_, -, rfl⟩ := List.mem_map.1 h
  rfl

theorem waits_cancel_eq_nil : x.cancel.waits = [] ↔ x.waits = [] := List.map_eq_nil_iff

theorem cancel_take (x : Alarm) (j : ℕ) : (x.take j).cancel = x.cancel.take j := by
  simp only [cancel, take, List.eraseIdx_map]

theorem mem_wait (x : Alarm) : false ∈ x.wait.waits := List.mem_append_right _ List.mem_cons_self

theorem count_set : (x.set now ahead).waits.count false = 0 :=
  List.count_eq_zero_of_not_mem fun h => Bool.false_ne_true (mem_cancel h)

theorem count_wait (x : Alarm) : x.wait.waits.count false = x.waits.count false + 1 :=
  List.count_append

theorem mem_of_mem_take {cancelled : Bool} (h : cancelled ∈ (x.take j).waits) :
    cancelled ∈ x.waits := List.mem_of_mem_eraseIdx h

theorem mem_take (hrun : x.CanRun now j) (hexpired : ¬ x.Expired now) (h : false ∈ x.waits) :
    false ∈ (x.take j).waits := by
  obtain ⟨cancelled, hj, hcancelled | hnow⟩ := hrun
  · obtain ⟨i, hi, hfalse⟩ := List.mem_iff_getElem.1 h
    refine List.mem_eraseIdx_iff_getElem.2 ⟨i, hi, ?_, hfalse⟩
    rintro rfl
    have hsame := (List.getElem?_eq_getElem hi).symm.trans (Option.mem_def.1 hj)
    rw [hfalse, hcancelled] at hsame
    cases hsame
  · exact absurd hnow hexpired

theorem count_take (hrun : x.CanRun now j) (hexpired : ¬ x.Expired now) :
    (x.take j).waits.count false = x.waits.count false := by
  obtain ⟨cancelled, hj, hcancelled⟩ := hrun
  obtain ⟨hlt, hget⟩ := List.getElem?_eq_some_iff.1 hj
  have htrue := hcancelled.resolve_right hexpired
  have hsplit : x.waits = x.waits.take j ++ true :: x.waits.drop (j + 1) := by
    rw [← htrue, ← hget, ← List.drop_eq_getElem_cons hlt, List.take_append_drop]
  rw [take, List.eraseIdx_eq_take_drop_succ, List.count_append]
  conv_rhs => rw [hsplit]
  rw [List.count_append, List.count_cons_of_ne (by decide)]

theorem take_eq_nil (hone : x.waits.count false = 1) (hcancelled : true ∉ x.waits)
    (hrun : x.CanRun now j) : (x.take j).waits = [] := by
  have hall : ∀ b ∈ x.waits, false = b := by
    intro b hb
    cases b with
    | false => rfl
    | true => exact absurd hb hcancelled
  have hlength : x.waits.length = 1 := by rw [← List.count_eq_length.2 hall, hone]
  obtain ⟨_, hj, -⟩ := hrun
  have hlt := (List.getElem?_eq_some_iff.1 hj).1
  rw [take, ← List.length_eq_zero_iff, List.length_eraseIdx_of_lt hlt, hlength]

/-- An idle alarm that is waited for expires later, and none of its waits is cancelled. -/
theorem Idle.eq_false (h : x.Idle now) {cancelled : Bool} (hmem : cancelled ∈ x.waits) :
    cancelled = false ∧ ¬ x.Expired now := by
  obtain ⟨j, hj⟩ := List.mem_iff_getElem?.1 hmem
  have hnot := h j (List.getElem?_eq_some_iff.1 hj).1
  refine ⟨Bool.eq_false_iff.2 fun htrue => ?_, fun hexpired => ?_⟩
  · exact hnot ⟨cancelled, hj, .inl htrue⟩
  · exact hnot ⟨cancelled, hj, .inr hexpired⟩

end Alarm

end Watchdog
