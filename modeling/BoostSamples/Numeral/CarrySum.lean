import Mathlib.Data.List.Induction
import Mathlib.Data.Nat.ModEq
import Mathlib.Algebra.BigOperators.Group.List.Basic

/-!
# Sums with an end-around carry

Numbers up to `m` are added with the carry put back at the low end: `carryAdd m a b`.
Such a sum depends only on the ordinary sum, through `carry m n`, which is 0 for 0 and
else the representative of `n` modulo `m` from 1 to `m`. A word that makes a sum `m` is
found from the sum of the others, and no other word does so, except 0 for `m`.
-/

namespace Numeral

def carryAdd (m a b : ℕ) : ℕ := if a + b ≤ m then a + b else a + b - m

def carrySum (m : ℕ) (ws : List ℕ) : ℕ := ws.foldl (carryAdd m) 0

/-- What is left of an ordinary sum after its carries are put back. -/
def carry (m n : ℕ) : ℕ := if n = 0 then 0 else (n - 1) % m + 1

section CarrySum

variable {m : ℕ}

theorem carry_le (hm : 0 < m) (n : ℕ) : carry m n ≤ m := by
  rw [carry]
  split
  · exact Nat.zero_le m
  · exact Nat.mod_lt _ hm

theorem carry_modEq (m n : ℕ) : carry m n ≡ n [MOD m] := by
  rw [carry]
  split
  · next hzero => rw [hzero]
  · next hne =>
      have hmod := (Nat.mod_modEq (n - 1) m).add_right 1
      rwa [Nat.sub_add_cancel (Nat.one_le_iff_ne_zero.2 hne)] at hmod

theorem carry_eq_zero_iff {n : ℕ} : carry m n = 0 ↔ n = 0 := by
  rw [carry]
  split
  · next hzero => exact ⟨fun _ => hzero, fun _ => rfl⟩
  · next hne => exact ⟨fun h => absurd h (Nat.succ_ne_zero _), fun h => absurd h hne⟩

theorem eq_of_modEq {a b : ℕ} (ha : a ≤ m) (hb : b ≤ m) (hzero : a = 0 ↔ b = 0)
    (h : a ≡ b [MOD m]) : a = b := by
  rcases Nat.eq_zero_or_pos a with rfl | hpos
  · exact (hzero.1 rfl).symm
  · have hb' : 0 < b := Nat.pos_of_ne_zero fun hb0 => absurd (hzero.2 hb0) (Nat.ne_of_gt hpos)
    have hshift : a - 1 ≡ b - 1 [MOD m] := by
      apply Nat.ModEq.add_right_cancel' 1
      rwa [Nat.sub_add_cancel hpos, Nat.sub_add_cancel hb']
    have heq := Nat.ModEq.eq_of_lt_of_lt hshift (by omega) (by omega)
    omega

theorem carryAdd_carry (hm : 0 < m) {w : ℕ} (hw : w ≤ m) (n : ℕ) :
    carryAdd m (carry m n) w = carry m (n + w) := by
  have hle := carry_le hm n
  have hmod : carryAdd m (carry m n) w ≡ carry m n + w [MOD m] := by
    rw [carryAdd]
    split
    · rfl
    · next hlt =>
        have hsub : carry m n + w - m + m ≡ carry m n + w - m [MOD m] := Nat.add_modEq_right
        rw [Nat.sub_add_cancel (by omega)] at hsub
        exact hsub.symm
  apply eq_of_modEq (m := m)
  · rw [carryAdd]
    split <;> omega
  · exact carry_le hm _
  · have hn := carry_eq_zero_iff (m := m) (n := n)
    have hnw := carry_eq_zero_iff (m := m) (n := n + w)
    rw [carryAdd]
    split <;> omega
  · exact hmod.trans (((carry_modEq m n).add_right w).trans (carry_modEq m (n + w)).symm)

theorem carrySum_eq (hm : 0 < m) {ws : List ℕ} (h : ∀ w ∈ ws, w ≤ m) :
    carrySum m ws = carry m ws.sum := by
  induction ws using List.reverseRecOn with
  | nil => rfl
  | append_singleton ws w ih =>
      rw [carrySum, List.foldl_append, List.foldl_cons, List.foldl_nil, ← carrySum,
        ih fun x hx => h x (List.mem_append_left _ hx), List.sum_append, List.sum_singleton]
      exact carryAdd_carry hm (h w (by simp)) _

/-- The complement of a sum makes the whole sum `m`. -/
theorem carry_add_complement (hm : 0 < m) (n : ℕ) : carry m (n + (m - carry m n)) = m := by
  have hle := carry_le hm n
  apply eq_of_modEq (m := m) (carry_le hm _) (Nat.le_refl m)
  · rw [carry_eq_zero_iff]
    have hzero := carry_eq_zero_iff (m := m) (n := n)
    omega
  · refine (carry_modEq m _).trans ?_
    have hmod := ((carry_modEq m n).symm).add_right (m - carry m n)
    rwa [Nat.add_sub_cancel' hle] at hmod

/-- Where two words complete the same sum to `m`, they are equal or the two words for
zero. -/
theorem eq_or_of_carry_add {a b n : ℕ} (ha : a ≤ m) (hb : b ≤ m) (hab : carry m (n + a) = m)
    (hb' : carry m (n + b) = m) : a = b ∨ a = 0 ∧ b = m ∨ a = m ∧ b = 0 := by
  have hmod : a ≡ b [MOD m] := by
    apply Nat.ModEq.add_left_cancel' n
    exact (carry_modEq m (n + a)).symm.trans (hab.trans hb'.symm ▸ carry_modEq m (n + b))
  rcases Nat.lt_or_eq_of_le ha with ha | rfl
  · rcases Nat.lt_or_eq_of_le hb with hb | rfl
    · exact .inl (Nat.ModEq.eq_of_lt_of_lt hmod ha hb)
    · have hzero : a ≡ 0 [MOD b] := hmod.trans (Nat.modEq_zero_iff_dvd.2 (dvd_refl b))
      exact .inr (.inl ⟨Nat.eq_zero_of_dvd_of_lt (Nat.modEq_zero_iff_dvd.1 hzero) ha, rfl⟩)
  · rcases Nat.lt_or_eq_of_le hb with hb | rfl
    · have hzero : b ≡ 0 [MOD a] := hmod.symm.trans (Nat.modEq_zero_iff_dvd.2 (dvd_refl a))
      exact .inr (.inr ⟨rfl, Nat.eq_zero_of_dvd_of_lt (Nat.modEq_zero_iff_dvd.1 hzero) hb⟩)
    · exact .inl rfl

end CarrySum

end Numeral
