import BoostSamples.Numeral.CarrySum
import BoostSamples.Text.Input
import Mathlib.Algebra.BigOperators.Fin
import Mathlib.Algebra.Order.BigOperators.Group.List

/-!
# The headers of an ICMP packet

`icmp_header` and `ipv4_header` are views of an array of bytes: the accessors decode and
encode fields of two bytes, most significant first, and the stream operators copy the
array. `compute_checksum` adds up the words of the header and the body in 32 bits and puts
the carries back at the end; `verifies_computeChecksum` says that a receiver who adds up
all words with end-around carries gets all ones.
-/

namespace IcmpScanner

open Text Numeral

abbrev Buff := List UInt8

/-- The bytes that a read stores in an array from an offset on. -/
def load {n : ℕ} (rep : Fin n → UInt8) (offset : ℕ) (cs : Buff) : Fin n → UInt8 :=
  fun i => if offset ≤ i then (cs[i - offset]?).getD (rep i) else rep i

/-- `decode` of both headers. -/
def decode {n : ℕ} (rep : Fin n → UInt8) (a b : Fin n) : UInt16 :=
  ((rep a).toUInt16 <<< 8) + (rep b).toUInt16

/-- `encode` of `icmp_header`. -/
def encode {n : ℕ} (rep : Fin n → UInt8) (a b : Fin n) (x : UInt16) : Fin n → UInt8 :=
  Function.update (Function.update rep a (x >>> 8).toUInt8) b (x &&& 0xFF).toUInt8

structure IcmpHeader where
  rep : Fin 8 → UInt8 := fun _ => 0

namespace IcmpHeader

def echoReply : UInt8 := 0

def echoRequest : UInt8 := 8

def type (h : IcmpHeader) : UInt8 := h.rep 0

def code (h : IcmpHeader) : UInt8 := h.rep 1

def checksum (h : IcmpHeader) : UInt16 := decode h.rep 2 3

def identifier (h : IcmpHeader) : UInt16 := decode h.rep 4 5

def sequenceNumber (h : IcmpHeader) : UInt16 := decode h.rep 6 7

def setType (h : IcmpHeader) (x : UInt8) : IcmpHeader := ⟨Function.update h.rep 0 x⟩

def setCode (h : IcmpHeader) (x : UInt8) : IcmpHeader := ⟨Function.update h.rep 1 x⟩

def setChecksum (h : IcmpHeader) (x : UInt16) : IcmpHeader := ⟨encode h.rep 2 3 x⟩

def setIdentifier (h : IcmpHeader) (x : UInt16) : IcmpHeader := ⟨encode h.rep 4 5 x⟩

def setSequenceNumber (h : IcmpHeader) (x : UInt16) : IcmpHeader := ⟨encode h.rep 6 7 x⟩

/-- `operator>>`. -/
def extract (i : Input UInt8) : IcmpHeader × Input UInt8 :=
  let (cs, i) := i.read 8
  (⟨load (fun _ => 0) 0 cs⟩, i)

/-- `operator<<`. -/
def bytes (h : IcmpHeader) : Buff := List.ofFn h.rep

end IcmpHeader

def addBody (sum : UInt32) : Buff → UInt32
  | [] => sum
  | [a] => sum + (a.toUInt32 <<< 8)
  | a :: b :: body => addBody (sum + (a.toUInt32 <<< 8) + b.toUInt32) body

def computeChecksum (h : IcmpHeader) (body : Buff) : IcmpHeader :=
  let sum := (h.type.toUInt32 <<< 8) + h.code.toUInt32 + h.identifier.toUInt32 +
    h.sequenceNumber.toUInt32
  let sum := addBody sum body
  let sum := (sum >>> 16) + (sum &&& 0xFFFF)
  let sum := sum + (sum >>> 16)
  h.setChecksum (~~~sum).toUInt16

/-- The words of a message; the last byte of an odd number is the high one of its word. -/
def words : Buff → List ℕ
  | [] => []
  | [a] => [a.toNat * 256]
  | a :: b :: rest => (a.toNat * 256 + b.toNat) :: words rest

def Verifies (message : Buff) : Prop := carrySum 0xFFFF (words message) = 0xFFFF

instance (message : Buff) : Decidable (Verifies message) := inferInstanceAs (Decidable (_ = _))

section Words

theorem words_le (message : Buff) : ∀ w ∈ words message, w ≤ 0xFFFF := by
  induction message using words.induct with
  | case1 => simp [words]
  | case2 a =>
      have ha := a.toNat_lt
      simp [words]
      omega
  | case3 a b rest ih =>
      have ha := a.toNat_lt
      have hb := b.toNat_lt
      simp only [words, List.forall_mem_cons]
      exact ⟨by omega, ih⟩

theorem words_append {front : Buff} (h : front.length % 2 = 0) (rest : Buff) :
    words (front ++ rest) = words front ++ words rest := by
  induction front using words.induct with
  | case1 => rfl
  | case2 a => simp at h
  | case3 a b front ih =>
      rw [List.cons_append, List.cons_append, words, words, List.cons_append,
        ih (by simp only [List.length_cons] at h; omega)]

theorem length_words (message : Buff) : (words message).length = (message.length + 1) / 2 := by
  induction message using words.induct with
  | case1 => rfl
  | case2 a => simp [words]
  | case3 a b rest ih =>
      rw [words, List.length_cons, ih, List.length_cons, List.length_cons]
      omega

theorem sum_le_mul {m : ℕ} {ws : List ℕ} (h : ∀ w ∈ ws, w ≤ m) : ws.sum ≤ ws.length * m := by
  simpa [Nat.mul_comm] using List.sum_le_card_nsmul ws m h

theorem toNat_high (a : UInt8) : (a.toUInt32 <<< 8).toNat = a.toNat * 256 := by
  have ha := a.toNat_lt
  rw [UInt32.toNat_shiftLeft, UInt8.toNat_toUInt32]
  simp [Nat.shiftLeft_eq]
  omega

theorem toNat_addBody (sum : UInt32) (body : Buff) :
    (addBody sum body).toNat = (sum.toNat + (words body).sum) % 2 ^ 32 := by
  induction sum, body using addBody.induct with
  | case1 sum =>
      have hsum := sum.toNat_lt
      rw [addBody, words, List.sum_nil, Nat.add_zero, Nat.mod_eq_of_lt hsum]
  | case2 sum a =>
      rw [addBody, words, List.sum_singleton, UInt32.toNat_add, toNat_high]
  | case3 sum a b body ih =>
      rw [addBody, ih, words, List.sum_cons, UInt32.toNat_add, UInt32.toNat_add, toNat_high,
        UInt8.toNat_toUInt32]
      omega

/-- The carries of a sum of 32 bits are put back in two steps. -/
theorem fold_eq_carry {n : ℕ} (h : n < 2 ^ 32) :
    (n / 2 ^ 16 + n % 2 ^ 16 + (n / 2 ^ 16 + n % 2 ^ 16) / 2 ^ 16) % 2 ^ 16 = carry 0xFFFF n := by
  have hcarry := carry_le (by decide : 0 < 0xFFFF) n
  have hzero := carry_eq_zero_iff (m := 0xFFFF) (n := n)
  have hmod : n / 2 ^ 16 + n % 2 ^ 16 ≡ n [MOD 0xFFFF] := by
    have hsplit : n = 0xFFFF * (n / 2 ^ 16) + (n / 2 ^ 16 + n % 2 ^ 16) := by omega
    conv_rhs => rw [hsplit]
    exact Nat.ModEq.symm (Nat.modulus_mul_add_modEq_iff.2 rfl)
  have hsum : n / 2 ^ 16 + n % 2 ^ 16 = 0 ↔ n = 0 := by omega
  have hle : n / 2 ^ 16 + n % 2 ^ 16 ≤ 2 * 0xFFFF := by omega
  generalize n / 2 ^ 16 + n % 2 ^ 16 = s at hmod hsum hle ⊢
  -- one carry may be left
  have hback : s < 2 ^ 16 ∧ (s + s / 2 ^ 16) % 2 ^ 16 = s ∨
      2 ^ 16 ≤ s ∧ (s + s / 2 ^ 16) % 2 ^ 16 + 0xFFFF = s := by
    rcases Nat.lt_or_ge s (2 ^ 16) with hlt | hge
    · rw [Nat.div_eq_of_lt hlt, Nat.add_zero, Nat.mod_eq_of_lt hlt]
      exact .inl ⟨hlt, rfl⟩
    · have hone : s / 2 ^ 16 = 1 := by omega
      rw [hone]
      exact .inr ⟨hge, by omega⟩
  generalize (s + s / 2 ^ 16) % 2 ^ 16 = r at hback
  apply eq_of_modEq (m := 0xFFFF) (by omega) hcarry (by omega)
  refine Nat.ModEq.trans ?_ (hmod.trans (carry_modEq 0xFFFF n).symm)
  rcases hback with ⟨-, rfl⟩ | ⟨-, rfl⟩
  · rfl
  · exact Nat.add_modEq_right.symm

end Words

section Fields

variable {n : ℕ} {rep : Fin n → UInt8} {a b : Fin n}

theorem toNat_decode (rep : Fin n → UInt8) (a b : Fin n) :
    (decode rep a b).toNat = (rep a).toNat * 256 + (rep b).toNat := by
  have ha := (rep a).toNat_lt
  have hb := (rep b).toNat_lt
  rw [decode, UInt16.toNat_add, UInt16.toNat_shiftLeft, UInt8.toNat_toUInt16,
    UInt8.toNat_toUInt16]
  simp [Nat.shiftLeft_eq]
  omega

theorem toNat_encode (x : UInt16) :
    (x >>> 8).toUInt8.toNat = x.toNat / 256 ∧ (x &&& 0xFF).toUInt8.toNat = x.toNat % 256 := by
  have hx := x.toNat_lt
  constructor
  · rw [UInt16.toNat_toUInt8, UInt16.toNat_shiftRight]
    simp [Nat.shiftRight_eq_div_pow]
    omega
  · rw [UInt16.toNat_toUInt8, UInt16.toNat_and]
    have hmask : x.toNat &&& 0xFF = x.toNat % 256 := Nat.and_two_pow_sub_one_eq_mod _ 8
    simp [hmask]

theorem decode_encode (hab : a ≠ b) (x : UInt16) : decode (encode rep a b x) a b = x := by
  apply UInt16.toNat_inj.1
  obtain ⟨hhigh, hlow⟩ := toNat_encode x
  rw [toNat_decode, encode, Function.update_of_ne hab, Function.update_self,
    Function.update_self, hhigh, hlow]
  omega

end Fields

namespace IcmpHeader

theorem bytes_eq (h : IcmpHeader) :
    h.bytes = [h.rep 0, h.rep 1, h.rep 2, h.rep 3, h.rep 4, h.rep 5, h.rep 6, h.rep 7] := by
  simp [bytes, List.ofFn_succ]

@[simp] theorem length_bytes (h : IcmpHeader) : h.bytes.length = 8 := List.length_ofFn

theorem words_bytes (h : IcmpHeader) :
    words h.bytes = [h.type.toNat * 256 + h.code.toNat, h.checksum.toNat, h.identifier.toNat,
      h.sequenceNumber.toNat] := by
  rw [bytes_eq]
  simp only [words, checksum, identifier, sequenceNumber, toNat_decode]
  rfl

theorem words_setChecksum (h : IcmpHeader) (x : UInt16) :
    words (h.setChecksum x).bytes = [h.type.toNat * 256 + h.code.toNat, x.toNat,
      h.identifier.toNat, h.sequenceNumber.toNat] := by
  have hchecksum : (h.setChecksum x).checksum = x := decode_encode (by decide) x
  rw [words_bytes, hchecksum]
  rfl

theorem identifier_setIdentifier (h : IcmpHeader) (x : UInt16) :
    (h.setIdentifier x).identifier = x := decode_encode (by decide) x

theorem identifier_setChecksum (h : IcmpHeader) (x : UInt16) :
    (h.setChecksum x).identifier = h.identifier := rfl

theorem toNat_headerSum (h : IcmpHeader) :
    ((h.type.toUInt32 <<< 8) + h.code.toUInt32 + h.identifier.toUInt32 +
      h.sequenceNumber.toUInt32).toNat =
        h.type.toNat * 256 + h.code.toNat + h.identifier.toNat + h.sequenceNumber.toNat := by
  have htype := h.type.toNat_lt
  have hcode := h.code.toNat_lt
  have hid := h.identifier.toNat_lt
  have hseq := h.sequenceNumber.toNat_lt
  simp only [UInt32.toNat_add, toNat_high, UInt8.toNat_toUInt32, UInt16.toNat_toUInt32]
  omega

end IcmpHeader

def wordSum (h : IcmpHeader) (body : Buff) : ℕ :=
  h.type.toNat * 256 + h.code.toNat + h.identifier.toNat + h.sequenceNumber.toNat +
    (words body).sum

/-- The longest body whose sum fits in 32 bits whatever its bytes are. -/
def maxBody : ℕ := 131068

theorem wordSum_lt (h : IcmpHeader) {body : Buff} (hbody : body.length ≤ maxBody) :
    wordSum h body < 2 ^ 32 := by
  have htype := h.type.toNat_lt
  have hcode := h.code.toNat_lt
  have hid := h.identifier.toNat_lt
  have hseq := h.sequenceNumber.toNat_lt
  have hsum := sum_le_mul (words_le body)
  rw [length_words] at hsum
  rw [maxBody] at hbody
  rw [wordSum]
  have hcount : (body.length + 1) / 2 * 0xFFFF ≤ 65534 * 0xFFFF :=
    Nat.mul_le_mul_right _ (by omega)
  omega

theorem computeChecksum_eq (h : IcmpHeader) {body : Buff} (hbody : body.length ≤ maxBody) :
    ∃ x : UInt16, computeChecksum h body = h.setChecksum x ∧
      x.toNat = 0xFFFF - carry 0xFFFF (wordSum h body) := by
  refine ⟨_, rfl, ?_⟩
  have hlt := wordSum_lt h hbody
  have hsum := toNat_addBody ((h.type.toUInt32 <<< 8) + h.code.toUInt32 +
    h.identifier.toUInt32 + h.sequenceNumber.toUInt32) body
  rw [h.toNat_headerSum, ← wordSum, Nat.mod_eq_of_lt hlt] at hsum
  have hfold := fold_eq_carry hlt
  generalize addBody _ body = sum at hsum ⊢
  have hand : (sum &&& 0xFFFF).toNat = sum.toNat % 2 ^ 16 := by
    rw [UInt32.toNat_and]
    exact Nat.and_two_pow_sub_one_eq_mod _ 16
  have hshift (y : UInt32) : (y >>> 16).toNat = y.toNat / 2 ^ 16 := by
    rw [UInt32.toNat_shiftRight]
    simp [Nat.shiftRight_eq_div_pow]
  have hnot (y : UInt32) : (~~~y).toUInt16.toNat = 0xFFFF - y.toNat % 2 ^ 16 := by
    rw [UInt32.toNat_toUInt16, UInt32.toNat_not]
    have hy := y.toNat_lt
    simp
    omega
  rw [hnot, ← hfold, ← hsum]
  congr 1
  simp only [UInt32.toNat_add, hand, hshift]
  omega

/-- Two words of a message, one of which is the other or the other word for zero. -/
def SameWord (a b a' b' : UInt8) : Prop :=
  (a', b') = (a, b) ∨ (a, b) = (0, 0) ∧ (a', b') = (255, 255) ∨
    (a, b) = (255, 255) ∧ (a', b') = (0, 0)

theorem eq_of_word_eq (a b a' b' : UInt8)
    (h : a.toNat * 256 + b.toNat = a'.toNat * 256 + b'.toNat) : a = a' ∧ b = b' := by
  have hb := b.toNat_lt
  have hb' := b'.toNat_lt
  exact ⟨UInt8.toNat_inj.1 (by omega), UInt8.toNat_inj.1 (by omega)⟩

theorem verifies_around_iff {front rest : Buff} (hfront : front.length % 2 = 0) (a b : UInt8) :
    Verifies (front ++ a :: b :: rest) ↔
      carry 0xFFFF ((words front).sum + (words rest).sum + (a.toNat * 256 + b.toNat)) = 0xFFFF := by
  rw [Verifies, carrySum_eq (by decide) (words_le _), words_append hfront, words, List.sum_append,
    List.sum_cons, Nat.add_comm (_ + _) (words rest).sum, ← Nat.add_assoc]

/-- A message in which one word is replaced does not verify any more, unless the words are
the two for zero. -/
theorem sameWord_of_verifies {front rest : Buff} (hfront : front.length % 2 = 0)
    {a b a' b' : UInt8} (h : Verifies (front ++ a :: b :: rest))
    (h' : Verifies (front ++ a' :: b' :: rest)) : SameWord a b a' b' := by
  rw [verifies_around_iff hfront] at h h'
  have hle (x y : UInt8) : x.toNat * 256 + y.toNat ≤ 0xFFFF := by
    have hx := x.toNat_lt
    have hy := y.toNat_lt
    omega
  rcases eq_or_of_carry_add (hle a b) (hle a' b') h h' with heq | ⟨hzero, hones⟩ | ⟨hones, hzero⟩
  · obtain ⟨rfl, rfl⟩ := eq_of_word_eq _ _ _ _ heq
    exact .inl rfl
  · obtain ⟨rfl, rfl⟩ := eq_of_word_eq _ _ 0 0 hzero
    obtain ⟨rfl, rfl⟩ := eq_of_word_eq _ _ 255 255 hones
    exact .inr (.inl ⟨rfl, rfl⟩)
  · obtain ⟨rfl, rfl⟩ := eq_of_word_eq _ _ 255 255 hones
    obtain ⟨rfl, rfl⟩ := eq_of_word_eq _ _ 0 0 hzero
    exact .inr (.inr ⟨rfl, rfl⟩)

/-- The message with the computed checksum verifies, and no message that differs from it in
one word does, but for the two words for zero. -/
theorem verifies_computeChecksum (h : IcmpHeader) {body : Buff} (hbody : body.length ≤ maxBody) :
    Verifies ((computeChecksum h body).bytes ++ body) ∧
      ∀ front a b rest a' b', front.length % 2 = 0 →
        (computeChecksum h body).bytes ++ body = front ++ a :: b :: rest →
        Verifies (front ++ a' :: b' :: rest) → SameWord a b a' b' := by
  have hverifies : Verifies ((computeChecksum h body).bytes ++ body) := by
    obtain ⟨x, hx, hnat⟩ := computeChecksum_eq h hbody
    have hlength : (h.setChecksum x).bytes.length % 2 = 0 := by simp
    rw [hx, Verifies, carrySum_eq (by decide) (words_le _), words_append hlength,
      IcmpHeader.words_setChecksum, hnat]
    have hsum : ([h.type.toNat * 256 + h.code.toNat, 0xFFFF - carry 0xFFFF (wordSum h body),
        h.identifier.toNat, h.sequenceNumber.toNat] ++ words body).sum =
          wordSum h body + (0xFFFF - carry 0xFFFF (wordSum h body)) := by
      generalize 0xFFFF - carry 0xFFFF (wordSum h body) = x
      simp only [List.cons_append, List.nil_append, List.sum_cons, wordSum]
      omega
    rw [hsum]
    exact carry_add_complement (by decide) _
  refine ⟨hverifies, ?_⟩
  intro front a b rest a' b' hfront hmessage h'
  rw [hmessage] at hverifies
  exact sameWord_of_verifies hfront hverifies h'

theorem verifies_computeChecksum_sample :
    Verifies ((computeChecksum {} [1, 2, 3]).bytes ++ [1, 2, 3]) :=
  (verifies_computeChecksum {} (by decide)).1

end IcmpScanner
