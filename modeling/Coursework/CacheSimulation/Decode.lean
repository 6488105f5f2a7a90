import Coursework.CacheSimulation.Trace
import Coursework.Java.Radix
import Coursework.Recency.LruSet

/-!
# Address decoding is arithmetic

The binary text of an address is cut at distances from its right end, so the index is
the block number modulo the number of sets and the tag is the quotient, in hexadecimal.
The decoding needs at least one tag digit and one index digit: addresses below one full
round of the sets and caches with a single set have none.

A line of a well-formed trace stands for an access to a block, or for nothing.
-/

namespace Coursework.CacheSimulation

open Coursework.Java
open Coursework.Recency (Access)

/-- The tag of a block beyond the first round of the sets is not the mark of an empty entry. -/
theorem hexText_ne_empty (n : ℕ) (h : 0 < n) : hexText n ≠ "0" := by
  intro heq
  have hzero : hexText n = hexText 0 := heq.trans (by decide)
  have := hexText_injective hzero
  omega

/-- `(int) (Math.log(16) / Math.log(2))`. -/
theorem toInt_offsetLength : (intLog2 blockByte).toInt = 4 :=
  intLog2_of_two_pow blockByte 4 (by decide)

/-- Where the text of an address is cut between tag and index. -/
theorem toInt_cut (indexLength : Int32) (k : ℕ) (hk31 : k < 31) (hindex : indexLength.toInt = k)
    (address : Int64) :
    (stringLength (toBinaryString address) - (indexLength + intLog2 blockByte)).toInt =
      (toBinaryString address).length - (k + 4 : ℕ) := by
  have hbounds := toBinaryString_length address
  have hlength := toInt_stringLength address
  have hoffset := toInt_offsetLength
  have hsum : (indexLength + intLog2 blockByte).toInt = k + 4 := by
    rw [toInt_add_of_bounds _ _ (by omega) (by omega)]
    omega
  rw [toInt_sub_of_bounds _ _ (by omega) (by omega)]
  omega

/-- The decoded index and tag, for an address with an index digit and a tag digit. -/
theorem decodeAddress_eq (indexLength : Int32) (k : ℕ) (hk : 1 ≤ k) (hk31 : k < 31)
    (hindex : indexLength.toInt = k) (address : Int64)
    (haddress : 2 ^ (k + 4) ≤ unsignedLong address) :
    decodeAddress indexLength (intLog2 blockByte) address = .ok {
      indexHex := hexText (unsignedLong address / 16 % 2 ^ k)
      index := Int32.ofNat (unsignedLong address / 16 % 2 ^ k)
      tag := hexText (unsignedLong address / 16 / 2 ^ k) } := by
  have hbounds := toBinaryString_length address
  have hlong := (lt_toBinaryString_length address (k + 4) (by omega)).mpr haddress
  have hlength := toInt_stringLength address
  have hoffset := toInt_offsetLength
  have hcut := toInt_cut indexLength k hk31 hindex address
  have hend : (stringLength (toBinaryString address) - intLog2 blockByte).toInt =
      (toBinaryString address).length - (4 : ℕ) := by
    rw [toInt_sub_of_bounds _ _ (by omega) (by omega)]
    omega
  obtain ⟨indexDigits, hindexText, hindexLen, hindexValue⟩ :=
    substring_toBinaryString address _ _ 4 (k + 4) (by omega) (by omega) hcut hend
  obtain ⟨tagDigits, htagText, htagLen, htagValue⟩ :=
    substring_toBinaryString address 0 _ (k + 4) (toBinaryString address).length
      (by omega) (Nat.le_refl _) (by simp) hcut
  have hindexNe : indexDigits ≠ [] := by
    rintro rfl
    simp at hindexLen
    omega
  have htagNe : tagDigits ≠ [] := by
    rintro rfl
    simp at htagLen
    omega
  have hindexLt : unsignedLong address / 16 % 2 ^ k < 2 ^ k := Nat.mod_lt _ (by positivity)
  have hpow : 2 ^ k ≤ 2 ^ 30 := Nat.pow_le_pow_right (by decide) (by omega)
  rw [show k + 4 - 4 = k by omega] at hindexValue
  have htag : unsignedLong address / 2 ^ (k + 4) % 2 ^ ((toBinaryString address).length - (k + 4)) =
      unsignedLong address / 16 / 2 ^ k := by
    rw [Nat.mod_eq_of_lt, Nat.pow_add, Nat.mul_comm (2 ^ k), Nat.div_div_eq_div_mul]
    rw [Nat.div_lt_iff_lt_mul (by positivity), ← Nat.pow_add,
      show (toBinaryString address).length - (k + 4) + (k + 4) =
        (toBinaryString address).length by omega]
    exact unsignedLong_lt address
  rw [htag] at htagValue
  have htagLt : unsignedLong address / 16 / 2 ^ k < 2 ^ 63 := by
    have hlt : unsignedLong address < 2 ^ 64 := address.toUInt64.toNat_lt
    have hle : unsignedLong address / 16 / 2 ^ k ≤ unsignedLong address / 16 := Nat.div_le_self _ _
    omega
  simp only [decodeAddress, hindexText, htagText, ok_bind, pure_eq_ok,
    parseLong_digits 2 indexDigits _ hindexNe hindexValue (by omega),
    parseInt_digits 2 indexDigits _ hindexNe hindexValue (by omega),
    parseLong_digits 2 tagDigits _ htagNe htagValue htagLt]
  rw [toHexString_ofNat _ htagLt, toHexString_ofNat _ (by omega)]
  norm_num

/-- What a line stands for: an access to the block of its address, or nothing. -/
def accessOf (line : String) : Option (Access ℕ) :=
  match parseRecord line with
  | .ok record =>
    if record.loadStore = "-" then none
    else some ⟨record.addressForMemoryOp.toInt.toNat / 16, record.loadStore = "S"⟩
  | .error _ => none

/-- The accesses of a trace, in order. -/
def accesses (trace : List String) : List (Access ℕ) := trace.filterMap accessOf

/-- A line that can be read, whose operation is `L`, `S` or `-`, and whose address, when it is
accessed, lies beyond the first round of the sets. -/
def WellFormedLine (sets : ℕ) (line : String) : Prop :=
  ∃ record, parseRecord line = .ok record ∧
    (record.loadStore = "-" ∨
      (record.loadStore = "L" ∨ record.loadStore = "S") ∧
        16 * (sets : ℤ) ≤ record.addressForMemoryOp.toInt)

instance (sets : ℕ) (line : String) : Decidable (WellFormedLine sets line) :=
  match hrecord : parseRecord line with
  | .ok record => decidable_of_iff
      (record.loadStore = "-" ∨
        (record.loadStore = "L" ∨ record.loadStore = "S") ∧
          16 * (sets : ℤ) ≤ record.addressForMemoryOp.toInt)
      (by simp [WellFormedLine, hrecord])
  | .error _ => isFalse (by simp [WellFormedLine, hrecord])

/-- The power-of-two geometries that fit an `int`: `2 ^ w` ways of `2 ^ k` blocks of 16 bytes. -/
structure CacheGeometry (cacheSize setAssociativity : Int32) (w k : ℕ) : Prop where
  ways : setAssociativity.toInt = 2 ^ w
  size : cacheSize.toInt * 1024 = 16 * 2 ^ w * 2 ^ k
  index : 1 ≤ k
  fits : (16 * 2 ^ w * 2 ^ k : ℤ) < 2 ^ 31

end Coursework.CacheSimulation
