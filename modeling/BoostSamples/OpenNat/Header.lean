import Mathlib.Data.Vector.Basic
import BoostSamples.Numeral.Digits

/-!
# The header codec of opennat

`Pack` and `Unpack` of `Utils.cpp`. `Pack` takes the bytes of a number from the last one
on and turns their order round; `Unpack` reads them from the first one on, with an offset
that runs down and ends the loop when it is negative. The array that `Pack` fills is not
initialised, so what it held before is an argument.
-/

namespace OpenNat

open Numeral

abbrev Header := Vector UInt8 8

/-- The bits of a `uint64_t`. -/
def bits : ℕ := 64

/-- The loop of `Pack` from an offset on. -/
def packLoop (data : BitVec 64) (bytes : Header) (offset : ℕ) : Header :=
  if offset < bits then
    packLoop data
      (bytes.setIfInBounds (offset / 8) (.ofBitVec ((data >>> offset &&& 0xFF#64).setWidth 8)))
      (offset + 8)
  else bytes
termination_by bits - offset

def pack (bytes : Header) (data : BitVec 64) : Header := (packLoop data bytes 0).reverse

/-- The loop of `Unpack` from an index on; `none` means that `at` throws. -/
def unpackLoop (bytes : Header) (i : ℕ) (offset : ℤ) (header : BitVec 64) :
    Option (BitVec 64) :=
  if 0 ≤ offset then
    bytes[i]?.bind fun byte =>
      unpackLoop bytes (i + 1) (offset - 8)
        (header ||| byte.toBitVec.setWidth 64 <<< offset.toNat)
  else some header
termination_by (offset + 8).toNat

def unpack (bytes : Header) : Option (BitVec 64) := unpackLoop bytes 0 56 0

theorem byte_eq (data : BitVec 64) (k : ℕ) :
    UInt8.ofBitVec ((data >>> (8 * k) &&& 0xFF#64).setWidth 8) =
      UInt8.ofNat (data.toNat / 256 ^ k) := by
  apply UInt8.toNat_inj.1
  have hmask : (data >>> (8 * k)).toNat &&& 255 = (data >>> (8 * k)).toNat % 256 :=
    Nat.and_two_pow_sub_one_eq_mod _ 8
  have hbyte : ((data >>> (8 * k) &&& 0xFF#64).setWidth 8).toNat =
      (data >>> (8 * k)).toNat % 256 := by
    rw [BitVec.toNat_setWidth, BitVec.toNat_and]
    change ((data >>> (8 * k)).toNat &&& 255) % 256 = _
    rw [hmask, Nat.mod_mod]
  rw [UInt8.toNat_ofBitVec, hbyte, BitVec.toNat_ushiftRight, Nat.shiftRight_eq_div_pow,
    Nat.pow_mul]
  rfl

theorem getElem?_packLoop (data : BitVec 64) (bytes : Header) {k : ℕ} (hk : k ≤ 8) {i : ℕ}
    (hi : i < 8) : (packLoop data bytes (8 * k))[i]? =
      if i < k then bytes[i]? else some (UInt8.ofNat (data.toNat / 256 ^ i)) := by
  induction hn : 8 - k generalizing k bytes with
  | zero =>
      obtain rfl : k = 8 := by omega
      rw [packLoop, if_neg (by decide), if_pos hi]
  | succ n ih =>
      have hlt : 8 * k < bits := by rw [bits]; omega
      have hnext : 8 * k + 8 = 8 * (k + 1) := by omega
      have hslot : 8 * k / 8 = k := by omega
      rw [packLoop, if_pos hlt, byte_eq, hnext, hslot, ih _ (by omega) (by omega),
        Vector.getElem?_setIfInBounds]
      rcases Nat.lt_trichotomy i k with hik | rfl | hik
      · rw [if_pos (by omega), if_neg (by omega), if_pos hik]
      · rw [if_pos (by omega), if_pos rfl, if_pos hi, if_neg (by omega)]
      · rw [if_neg (by omega), if_neg (by omega)]

/-- `Pack` gives the bytes of its argument, the most significant one first. -/
theorem toList_pack (bytes : Header) (data : BitVec 64) :
    (pack bytes data).toList = Numeral.bytes 8 data.toNat := by
  apply List.ext_getElem?
  intro i
  rcases Nat.lt_or_ge i 8 with hi | hi
  · have hloop := getElem?_packLoop data bytes (Nat.zero_le 8) (i := 7 - i) (by omega)
    rw [if_neg (by omega)] at hloop
    rw [getElem?_bytes hi, Vector.getElem?_toList, pack, Vector.getElem?_reverse hi]
    exact hloop
  · rw [List.getElem?_eq_none (by simpa using hi), List.getElem?_eq_none (by simpa using hi)]

theorem toNat_or_byte {header : BitVec 64} {byte : UInt8} {n k : ℕ} (hk : k < 8)
    (h : header.toNat = n * 256 ^ (k + 1)) :
    (header ||| byte.toBitVec.setWidth 64 <<< (8 * k)).toNat =
      (byte.toNat + 256 * n) * 256 ^ k := by
  have hbyte : byte.toNat < 2 ^ 8 := byte.toNat_lt
  have hpow : (2 : ℕ) ^ (8 * k) = 256 ^ k := Nat.pow_mul 2 8 k
  have hfits : byte.toNat * 2 ^ (8 * k) < 2 ^ 64 := by
    calc byte.toNat * 2 ^ (8 * k) < 2 ^ 8 * 2 ^ (8 * k) :=
          Nat.mul_lt_mul_of_pos_right hbyte (Nat.two_pow_pos _)
      _ = 2 ^ (8 + 8 * k) := (Nat.pow_add 2 8 (8 * k)).symm
      _ ≤ 2 ^ 64 := Nat.pow_le_pow_right (by decide) (by omega)
  have hshift : (byte.toBitVec.setWidth 64 <<< (8 * k)).toNat = byte.toNat <<< (8 * k) := by
    rw [BitVec.toNat_shiftLeft, BitVec.toNat_setWidth, UInt8.toNat_toBitVec,
      Nat.mod_eq_of_lt (Nat.lt_trans hbyte (by decide)), Nat.shiftLeft_eq,
      Nat.mod_eq_of_lt hfits]
  have hheader : header.toNat = (n <<< 8) <<< (8 * k) := by
    rw [h, Nat.shiftLeft_eq, Nat.shiftLeft_eq, hpow, pow_succ', Nat.mul_assoc]
  calc (header ||| byte.toBitVec.setWidth 64 <<< (8 * k)).toNat
      = (n <<< 8) <<< (8 * k) ||| byte.toNat <<< (8 * k) := by
        rw [BitVec.toNat_or, hshift, hheader]
    _ = (n <<< 8 ||| byte.toNat) <<< (8 * k) := Nat.shiftLeft_or_distrib.symm
    _ = (n <<< 8 + byte.toNat) <<< (8 * k) := by rw [Nat.shiftLeft_add_eq_or_of_lt hbyte]
    _ = (byte.toNat + 256 * n) * 256 ^ k := by
        rw [Nat.shiftLeft_eq, Nat.shiftLeft_eq, hpow, Nat.add_comm, Nat.mul_comm n]

theorem unpackLoop_eq (bytes : Header) {i : ℕ} (hi : i ≤ 8) {header : BitVec 64}
    (h : header.toNat = ofBytes (bytes.toList.take i) * 256 ^ (8 - i)) :
    unpackLoop bytes i (56 - 8 * i) header = some (.ofNat 64 (ofBytes bytes.toList)) := by
  induction hn : 8 - i generalizing i header with
  | zero =>
      obtain rfl : i = 8 := by omega
      have hall : bytes.toList.take 8 = bytes.toList := List.take_of_length_le (by simp)
      rw [hall, Nat.sub_self, pow_zero, Nat.mul_one] at h
      rw [unpackLoop, if_neg (by decide), ← h, BitVec.ofNat_toNat, BitVec.setWidth_eq]
  | succ n ih =>
      have hlt : i < 8 := by omega
      have hoffset : ((56 - 8 * i : ℤ)).toNat = 8 * n := by omega
      have hnext : (56 - 8 * i - 8 : ℤ) = 56 - 8 * (i + 1 : ℕ) := by omega
      have hread : ofBytes (bytes.toList.take (i + 1)) =
          bytes[i].toNat + 256 * ofBytes (bytes.toList.take i) := by
        rw [List.take_add_one, Vector.getElem?_toList, Vector.getElem?_eq_getElem hlt]
        exact ofBytes_append_singleton _ _
      rw [hn] at h
      rw [unpackLoop, if_pos (by omega), Vector.getElem?_eq_getElem hlt, Option.bind_some,
        hoffset, hnext]
      apply ih (by omega) _ (by omega)
      rw [toNat_or_byte (by omega) h, hread]
      congr 2
      omega

/-- `Unpack` gives the number that the bytes stand for, and it never throws. -/
theorem unpack_eq (bytes : Header) :
    unpack bytes = some (.ofNat 64 (ofBytes bytes.toList)) :=
  unpackLoop_eq bytes (Nat.zero_le 8) (by simp)

/-- `Pack` gives the big-endian bytes, and `Pack` and `Unpack` undo each other. -/
theorem pack_unpack :
    (∀ bytes data, (pack bytes data).toList = Numeral.bytes 8 data.toNat ∧
      unpack (pack bytes data) = some data) ∧
    ∀ bytes header, (unpack header).map (pack bytes) = some header := by
  constructor
  · intro bytes data
    refine ⟨toList_pack bytes data, ?_⟩
    have hfits : data.toNat < 256 ^ 8 := data.isLt
    rw [unpack_eq, toList_pack, ofBytes_bytes hfits, BitVec.ofNat_toNat, BitVec.setWidth_eq]
  · intro bytes header
    have hlength : header.toList.length = 8 := header.length_toList
    have hfits : ofBytes header.toList < 2 ^ 64 := by
      have hlt := ofBytes_lt header.toList
      rwa [hlength] at hlt
    have hbytes : Numeral.bytes 8 (ofBytes header.toList) = header.toList := by
      have hback := bytes_ofBytes header.toList
      rwa [hlength] at hback
    have htoList : (pack bytes (.ofNat 64 (ofBytes header.toList))).toList = header.toList := by
      rw [toList_pack, BitVec.toNat_ofNat, Nat.mod_eq_of_lt hfits, hbytes]
    rw [unpack_eq, Option.map_some, Vector.toList_inj.1 htoList]

end OpenNat
