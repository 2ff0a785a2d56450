import Mathlib.Data.Nat.Digits.Lemmas

/-!
# Digits of a fixed width

`digits b width n` are the last `width` digits of `n` in base `b`, the most
significant one first, and `value b ds` is the number that digits stand for. Bytes
are digits in base 256 and hexadecimal digits those in base 16, so what a byte layout
and a text say about the same number follows from `flatMap_digits`: each digit in base
`b ^ k` is `k` digits in base `b`.
-/

namespace Numeral

/-- The last `width` digits of `n`, the most significant one first. -/
def digits (b : ℕ) : ℕ → ℕ → List ℕ
  | 0, _ => []
  | width + 1, n => digits b width (n / b) ++ [n % b]

def value (b : ℕ) (ds : List ℕ) : ℕ := Nat.ofDigits b ds.reverse

@[simp] theorem digits_zero (b n : ℕ) : digits b 0 n = [] := rfl

theorem digits_succ (b width n : ℕ) :
    digits b (width + 1) n = digits b width (n / b) ++ [n % b] := rfl

@[simp] theorem length_digits (b width n : ℕ) : (digits b width n).length = width := by
  induction width generalizing n with
  | zero => rfl
  | succ width ih => rw [digits_succ, List.length_append, ih, List.length_singleton]

theorem lt_of_mem_digits {b : ℕ} (hb : 0 < b) {width n d : ℕ} (h : d ∈ digits b width n) :
    d < b := by
  induction width generalizing n with
  | zero => cases h
  | succ width ih =>
      rcases List.mem_append.1 h with h | h
      · exact ih h
      · rw [List.mem_singleton.1 h]
        exact Nat.mod_lt n hb

@[simp] theorem value_nil (b : ℕ) : value b [] = 0 := rfl

theorem value_append_singleton (b : ℕ) (ds : List ℕ) (d : ℕ) :
    value b (ds ++ [d]) = d + b * value b ds := by
  rw [value, List.reverse_append, List.reverse_singleton, List.singleton_append,
    Nat.ofDigits_cons]
  rfl

theorem value_digits (b width n : ℕ) : value b (digits b width n) = n % b ^ width := by
  induction width generalizing n with
  | zero => rw [digits_zero, value_nil, pow_zero, Nat.mod_one]
  | succ width ih => rw [digits_succ, value_append_singleton, ih, pow_succ', Nat.mod_mul]

theorem digits_value {b : ℕ} {ds : List ℕ} (h : ∀ d ∈ ds, d < b) :
    digits b ds.length (value b ds) = ds := by
  induction ds using List.reverseRecOn with
  | nil => rfl
  | append_singleton ds d ih =>
      have hd : d < b := h d (by simp)
      have hds : ∀ x ∈ ds, x < b := fun x hx => h x (List.mem_append_left _ hx)
      have hb : 0 < b := Nat.lt_of_le_of_lt (Nat.zero_le d) hd
      rw [List.length_append, List.length_singleton, digits_succ, value_append_singleton,
        Nat.add_mul_div_left _ _ hb, Nat.div_eq_of_lt hd, Nat.zero_add, ih hds,
        Nat.add_mul_mod_self_left, Nat.mod_eq_of_lt hd]

theorem value_lt {b : ℕ} {ds : List ℕ} (h : ∀ d ∈ ds, d < b) :
    value b ds < b ^ ds.length := by
  cases ds with
  | nil => simp
  | cons d ds =>
      have hb : 0 < b := Nat.lt_of_le_of_lt (Nat.zero_le d) (h d List.mem_cons_self)
      have hvalue := value_digits b (d :: ds).length (value b (d :: ds))
      rw [digits_value h] at hvalue
      rw [hvalue]
      exact Nat.mod_lt _ (Nat.pow_pos hb)

theorem getElem?_digits (b : ℕ) {width n i : ℕ} (hi : i < width) :
    (digits b width n)[i]? = some (n / b ^ (width - 1 - i) % b) := by
  induction width generalizing n with
  | zero => exact absurd hi (Nat.not_lt_zero i)
  | succ width ih =>
      rw [digits_succ]
      rcases Nat.lt_succ_iff_lt_or_eq.1 hi with hlt | rfl
      · have hpow : b * b ^ (width - 1 - i) = b ^ (width + 1 - 1 - i) := by
          rw [← pow_succ']
          congr 1
          omega
        rw [List.getElem?_append_left (by rwa [length_digits]), ih hlt, Nat.div_div_eq_div_mul,
          hpow]
      · rw [List.getElem?_append_right (by rw [length_digits]), length_digits]
        simp

theorem digits_append (b v w n : ℕ) :
    digits b (v + w) n = digits b v (n / b ^ w) ++ digits b w n := by
  induction w generalizing n with
  | zero => rw [Nat.add_zero, pow_zero, Nat.div_one, digits_zero, List.append_nil]
  | succ w ih =>
      rw [← Nat.add_assoc, digits_succ, digits_succ, ih, Nat.div_div_eq_div_mul, ← pow_succ',
        List.append_assoc]

theorem digits_mod (b width n : ℕ) : digits b width (n % b ^ width) = digits b width n := by
  induction width generalizing n with
  | zero => rfl
  | succ width ih =>
      have hdiv : n % b ^ (width + 1) / b = n / b % b ^ width := by
        rw [pow_succ', Nat.mod_mul_right_div_self]
      have hmod : n % b ^ (width + 1) % b = n % b :=
        Nat.mod_mod_of_dvd n (Dvd.intro_left _ rfl)
      rw [digits_succ, digits_succ, hdiv, hmod, ih]

theorem flatMap_digits (b k width n : ℕ) :
    (digits (b ^ k) width n).flatMap (digits b k) = digits b (width * k) n := by
  induction width generalizing n with
  | zero => rw [Nat.zero_mul]; rfl
  | succ width ih =>
      rw [digits_succ, List.flatMap_append, ih, List.flatMap_singleton, digits_mod,
        Nat.succ_mul, digits_append]

theorem leftpad_toDigits {b : ℕ} (hb : 1 < b) {width n : ℕ} (hwidth : 0 < width)
    (hn : n < b ^ width) :
    (Nat.toDigits b n).leftpad width '0' = (digits b width n).map Nat.digitChar := by
  induction width, hwidth using Nat.le_induction generalizing n with
  | base =>
      have hlt : n < b := by simpa using hn
      rw [Nat.toDigits_of_lt_base hlt, digits_succ, Nat.mod_eq_of_lt hlt]
      rfl
  | succ width hwidth ih =>
      have hdiv : n / b < b ^ width := Nat.div_lt_of_lt_mul (by rwa [← pow_succ'])
      rw [digits_succ, List.map_append, ← ih hdiv, Nat.toDigits_eq_if hb]
      split
      · next hlt =>
          rw [Nat.div_eq_of_lt hlt, Nat.mod_eq_of_lt hlt, Nat.toDigits_zero]
          obtain ⟨width, rfl⟩ := Nat.exists_eq_add_of_le' hwidth
          simp [List.leftpad, List.replicate_succ']
      · simp only [List.leftpad, List.length_append, List.length_cons, List.length_nil,
          List.map_cons, List.map_nil, List.append_assoc]
        congr 2
        omega

/-- The last `width` bytes of a number, the most significant one first. -/
def bytes (width n : ℕ) : List UInt8 := (digits 256 width n).map UInt8.ofNat

def ofBytes (l : List UInt8) : ℕ := value 256 (l.map UInt8.toNat)

@[simp] theorem length_bytes (width n : ℕ) : (bytes width n).length = width := by
  rw [bytes, List.length_map, length_digits]

theorem toNat_bytes (width n : ℕ) : (bytes width n).map UInt8.toNat = digits 256 width n := by
  rw [bytes, List.map_map]
  refine (List.map_congr_left fun d hd => ?_).trans (List.map_id _)
  exact Nat.mod_eq_of_lt (lt_of_mem_digits (by decide) hd)

theorem ofBytes_bytes {width n : ℕ} (h : n < 256 ^ width) : ofBytes (bytes width n) = n := by
  rw [ofBytes, toNat_bytes, value_digits, Nat.mod_eq_of_lt h]

theorem lt_of_mem_toNat {l : List UInt8} {d : ℕ} (h : d ∈ l.map UInt8.toNat) : d < 256 := by
  obtain ⟨b, -, rfl⟩ := List.mem_map.1 h
  exact b.toNat_lt

theorem bytes_ofBytes (l : List UInt8) : bytes l.length (ofBytes l) = l := by
  have hdigits : digits 256 (l.map UInt8.toNat).length (ofBytes l) = l.map UInt8.toNat :=
    digits_value fun d hd => lt_of_mem_toNat hd
  rw [List.length_map] at hdigits
  rw [bytes, hdigits, List.map_map]
  refine (List.map_congr_left fun b _ => ?_).trans (List.map_id _)
  exact UInt8.ofNat_toNat

theorem ofBytes_lt (l : List UInt8) : ofBytes l < 256 ^ l.length := by
  have hlt := value_lt (b := 256) fun d (hd : d ∈ l.map UInt8.toNat) => lt_of_mem_toNat hd
  rwa [List.length_map] at hlt

@[simp] theorem ofBytes_nil : ofBytes [] = 0 := rfl

theorem ofBytes_append_singleton (l : List UInt8) (b : UInt8) :
    ofBytes (l ++ [b]) = b.toNat + 256 * ofBytes l := by
  rw [ofBytes, List.map_append, List.map_singleton, value_append_singleton]
  rfl

theorem getElem?_bytes {width n i : ℕ} (hi : i < width) :
    (bytes width n)[i]? = some (UInt8.ofNat (n / 256 ^ (width - 1 - i))) := by
  rw [bytes, List.getElem?_map, getElem?_digits 256 hi, Option.map_some]
  congr 1
  exact UInt8.ofNat_mod_size

end Numeral
