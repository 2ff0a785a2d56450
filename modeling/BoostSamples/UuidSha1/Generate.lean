import Mathlib.Data.Vector.Basic
import BoostSamples.Numeral.Digits

/-!
# Two ways from a digest to a uuid

`GenerateUuid1` writes the first four words of a digest as hexadecimal digits into a
stream and has `string_generator` read the text; `GenerateUuid3` copies the words in
big-endian byte order. Both give the big-endian bytes of the words, one through digits in
base 16 and the other through digits in base 256.

`sha1` is the same function for both. `string_generator` is known by what it is relied on
for: it reads the 32 digits of a uuid as its 16 bytes in order.
-/

namespace UuidSha1

open Numeral

abbrev Uuid := Vector UInt8 16

abbrev Digest := Vector (BitVec 32) 5

def hexByte (b : UInt8) : List Char := (digits 16 2 b.toNat).map Nat.digitChar

/-- `boost::uuids::string_generator`; `none` means that it throws. -/
structure StringGenerator where
  run : List Char → Option Uuid
  run_hexByte : ∀ u : Uuid, run (u.toList.flatMap hexByte) = some u

def hexValue (c : Char) : Option ℕ :=
  if c.isDigit then some (c.toNat - 48)
  else if 'a' ≤ c ∧ c ≤ 'f' then some (c.toNat - 87)
  else if 'A' ≤ c ∧ c ≤ 'F' then some (c.toNat - 55)
  else none

def ofHex : List Char → Option (List UInt8)
  | [] => some []
  | [_] => none
  | c :: d :: rest =>
      (hexValue c).bind fun x => (hexValue d).bind fun y =>
        (ofHex rest).map (UInt8.ofNat (16 * x + y) :: ·)

theorem hexValue_digitChar {n : ℕ} (h : n < 16) : hexValue n.digitChar = some n := by
  revert n
  decide

theorem ofHex_flatMap_hexByte (l : List UInt8) : ofHex (l.flatMap hexByte) = some l := by
  induction l with
  | nil => rfl
  | cons b l ih =>
      have hb : b.toNat < 256 := b.toNat_lt
      have hhigh : hexValue (b.toNat / 16 % 16).digitChar = some (b.toNat / 16 % 16) :=
        hexValue_digitChar (Nat.mod_lt _ (by decide))
      have hlow : hexValue (b.toNat % 16).digitChar = some (b.toNat % 16) :=
        hexValue_digitChar (Nat.mod_lt _ (by decide))
      have hvalue : 16 * (b.toNat / 16 % 16) + b.toNat % 16 = b.toNat := by omega
      have hpair : hexByte b = [(b.toNat / 16 % 16).digitChar, (b.toNat % 16).digitChar] := rfl
      rw [List.flatMap_cons, hpair, List.cons_append, List.cons_append, List.nil_append, ofHex,
        hhigh, hlow, ih, Option.bind_some, Option.bind_some, Option.map_some, hvalue,
        UInt8.ofNat_toNat]

def plainGenerator : StringGenerator where
  run text := (ofHex text).bind fun l => if h : l.length = 16 then some ⟨l.toArray, h⟩ else none
  run_hexByte u := by
    have hlength : u.toList.length = 16 := u.length_toList
    rw [ofHex_flatMap_hexByte, Option.bind_some, dif_pos hlength]
    rfl

structure OStream where
  base : ℕ := 10
  fill : Char := ' '
  width : ℕ := 0
  text : List Char := []

namespace OStream

def hex (s : OStream) : OStream := { s with base := 16 }

def setfill (s : OStream) (c : Char) : OStream := { s with fill := c }

def setw (s : OStream) (n : ℕ) : OStream := { s with width := n }

def put (s : OStream) (n : BitVec 32) : OStream :=
  { s with
    width := 0
    text := s.text ++ (Nat.toDigits s.base n.toNat).leftpad s.width s.fill }

end OStream

inductive Endian
  | little
  | big

namespace Endian

def layout : Endian → BitVec 32 → List UInt8
  | little, d => (bytes 4 d.toNat).reverse
  | big, d => bytes 4 d.toNat

def nativeToBig : Endian → BitVec 32 → BitVec 32
  | little, d => .ofNat 32 (ofBytes (bytes 4 d.toNat).reverse)
  | big, d => d

theorem layout_nativeToBig (e : Endian) (d : BitVec 32) :
    e.layout (e.nativeToBig d) = bytes 4 d.toNat := by
  cases e with
  | little =>
      have hlength : (bytes 4 d.toNat).reverse.length = 4 := by simp
      have hfits : ofBytes (bytes 4 d.toNat).reverse < 2 ^ 32 := by
        have hlt := ofBytes_lt (bytes 4 d.toNat).reverse
        rwa [hlength] at hlt
      have hback := bytes_ofBytes (bytes 4 d.toNat).reverse
      rw [hlength] at hback
      rw [layout, nativeToBig, BitVec.toNat_ofNat, Nat.mod_eq_of_lt hfits, hback,
        List.reverse_reverse]
  | big => rfl

end Endian

/-- `memcpy` into a uuid at an offset. A copy past its end does not happen. -/
def memcpy (dst : Uuid) (p : ℕ) (src : List UInt8) : Uuid :=
  if h : p + src.length ≤ 16 then
    ⟨(dst.toList.take p ++ src ++ dst.toList.drop (p + src.length)).toArray, by simp; omega⟩
  else dst

theorem toList_memcpy (dst : Uuid) {p : ℕ} {src : List UInt8} (h : p + src.length ≤ 16) :
    (memcpy dst p src).toList =
      dst.toList.take p ++ src ++ dst.toList.drop (p + src.length) := by
  rw [memcpy, dif_pos h]
  rfl

section Generate

variable (sha1 : List UInt8 → Digest)

def generateUuid1 (G : StringGenerator) (input : List UInt8) : Option Uuid :=
  let dig := sha1 input
  let ss := (dig.toList.take 4).foldl
    (fun ss dig => (((ss.hex).setfill '0').setw 8).put dig) ({} : OStream)
  G.run ss.text

/-- `GenerateUuid3`. The uuid that it fills is not initialised. -/
def generateUuid3 (e : Endian) (ret : Uuid) (input : List UInt8) : Uuid :=
  let digest := sha1 input
  ((digest.toList.take 4).foldl
    (fun (ret, p) d => (memcpy ret p (e.layout (e.nativeToBig d)), p + 4)) (ret, 0)).1

end Generate

/-- A word as eight hexadecimal digits is its four bytes as two digits each. -/
theorem leftpad_eq_flatMap_hexByte (d : BitVec 32) :
    (Nat.toDigits 16 d.toNat).leftpad 8 '0' = (bytes 4 d.toNat).flatMap hexByte := by
  have hfits : d.toNat < 16 ^ 8 := d.isLt
  have hbyte : hexByte = fun b => (digits 16 2 b.toNat).map Nat.digitChar := rfl
  calc (Nat.toDigits 16 d.toNat).leftpad 8 '0'
      = (digits 16 8 d.toNat).map Nat.digitChar :=
        leftpad_toDigits (by decide) (by decide) hfits
    _ = ((digits (16 ^ 2) 4 d.toNat).flatMap (digits 16 2)).map Nat.digitChar := by
        rw [flatMap_digits]
    _ = ((bytes 4 d.toNat).map UInt8.toNat).flatMap
          fun n => (digits 16 2 n).map Nat.digitChar := by
        rw [toNat_bytes, List.map_flatMap, show 16 ^ 2 = 256 from rfl]
    _ = (bytes 4 d.toNat).flatMap hexByte := by rw [List.flatMap_map, hbyte]

theorem text_foldl_put (words : List (BitVec 32)) (s : OStream) :
    (words.foldl (fun ss dig => (((ss.hex).setfill '0').setw 8).put dig) s).text =
      s.text ++ words.flatMap fun d => (bytes 4 d.toNat).flatMap hexByte := by
  induction words generalizing s with
  | nil => rw [List.foldl_nil, List.flatMap_nil, List.append_nil]
  | cons d words ih =>
      rw [List.foldl_cons, ih, List.flatMap_cons, ← List.append_assoc,
        ← leftpad_eq_flatMap_hexByte]
      rfl

theorem toList_foldl_memcpy (e : Endian) (words : List (BitVec 32)) (ret : Uuid) {p : ℕ}
    (h : p + 4 * words.length ≤ 16) :
    ((words.foldl (fun (ret, p) d => (memcpy ret p (e.layout (e.nativeToBig d)), p + 4))
        (ret, p)).1).toList =
      ret.toList.take p ++ words.flatMap (fun d => bytes 4 d.toNat) ++
        ret.toList.drop (p + 4 * words.length) := by
  induction words generalizing ret p with
  | nil => simp
  | cons d words ih =>
      rw [List.length_cons] at h
      have hlength : (bytes 4 d.toNat).length = 4 := length_bytes 4 d.toNat
      have hfits : p + (bytes 4 d.toNat).length ≤ 16 := by omega
      have hcopy := toList_memcpy ret hfits
      rw [hlength] at hcopy
      have hprefix : (ret.toList.take p ++ bytes 4 d.toNat).length = p + 4 := by
        rw [List.length_append, List.length_take, hlength, Vector.length_toList]
        omega
      rw [List.foldl_cons, ih _ (by omega), e.layout_nativeToBig, hcopy,
        List.take_left' hprefix, ← List.drop_drop, List.drop_left' hprefix, List.drop_drop,
        List.flatMap_cons, List.length_cons]
      simp only [List.append_assoc]
      congr 4
      omega

/-- Both constructions give the same uuid. -/
theorem generateUuid1_eq_generateUuid3 (sha1 : List UInt8 → Digest) (G : StringGenerator)
    (e : Endian) (ret : Uuid) (input : List UInt8) :
    generateUuid1 sha1 G input = some (generateUuid3 sha1 e ret input) := by
  have hwords : ((sha1 input).toList.take 4).length = 4 := by simp
  have hbytes : (generateUuid3 sha1 e ret input).toList =
      ((sha1 input).toList.take 4).flatMap fun d => bytes 4 d.toNat := by
    have hcopied := toList_foldl_memcpy e ((sha1 input).toList.take 4) ret (p := 0)
      (by rw [hwords])
    rw [hwords, List.drop_of_length_le (by simp), List.append_nil] at hcopied
    exact hcopied
  have htext : generateUuid1 sha1 G input =
      G.run ((generateUuid3 sha1 e ret input).toList.flatMap hexByte) := by
    rw [hbytes, List.flatMap_assoc]
    exact congrArg G.run (text_foldl_put _ _)
  rw [htext, G.run_hexByte]

/-- The digest of every text is the same one. -/
theorem generateUuid_plainGenerator (input : List UInt8) :
    generateUuid1 (fun _ => #v[0x00010203, 0x04050607, 0x08090a0b, 0x0c0d0e0f, 0])
        plainGenerator input =
      some #v[0, 1, 2, 3, 4, 5, 6, 7, 8, 9, 10, 11, 12, 13, 14, 15] :=
  (generateUuid1_eq_generateUuid3 _ plainGenerator .little (.replicate 16 0) input).trans rfl

end UuidSha1
