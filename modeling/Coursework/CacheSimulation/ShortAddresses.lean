import Coursework.CacheSimulation.Decode
import Coursework.CacheSimulation.Sys1
import Coursework.CacheSimulation.Sys2

/-!
# Addresses without a tag digit

The binary text of an address has no leading zeros. The text of an address in the first round of
the sets ends before its tag digits: there is nothing to parse, and the simulation breaks off.
-/

namespace Coursework.CacheSimulation

open Coursework.Java

/-- An address is decoded to the number of its block modulo the sets and the hexadecimal text of the
quotient, and no decoded tag is the mark of an empty entry. -/
structure Decodes (sets : ℕ) (indexLength offsetLength : Int32) (address : Int64) : Prop where
  returns : ∃ decoded, decodeAddress indexLength offsetLength address = .ok decoded ∧
    decoded.index.toInt = address.toInt / 16 % sets ∧
    decoded.tag = hexText (address.toInt.toNat / (16 * sets))
  marked : ∀ decoded, decodeAddress indexLength offsetLength address = .ok decoded →
    decoded.tag ≠ "0"

/-- Nothing is left to parse as the tag. -/
theorem decodeAddress_short (indexLength : Int32) (k : ℕ) (hk31 : k < 31)
    (hindex : indexLength.toInt = k) (address : Int64)
    (haddress : unsignedLong address < 2 ^ (k + 4)) :
    ∃ cause, decodeAddress indexLength (intLog2 blockByte) address = .error cause := by
  have hshort : (toBinaryString address).length ≤ k + 4 := by
    refine Nat.le_of_not_lt fun hlong => ?_
    exact Nat.not_le_of_lt haddress
      ((lt_toBinaryString_length address (k + 4) (Nat.succ_pos _)).mp hlong)
  have hcut := toInt_cut indexLength k hk31 hindex address
  rw [decodeAddress]
  refine exists_error_bind fun indexBinary _ => ?_
  refine exists_error_bind fun indexHex _ => ?_
  refine exists_error_bind fun index _ => ?_
  refine exists_error_bind fun tagBinary htag => ?_
  have hempty : tagBinary = String.ofList [] := by
    rw [substring] at htag
    split at htag
    · rename_i hrange
      obtain rfl := Except.ok.inj htag
      have hzero : (stringLength (toBinaryString address) -
          (indexLength + intLog2 blockByte)).toInt.toNat = 0 := by omega
      rw [hzero, List.take_zero, List.drop_nil]
    · cases htag
  rw [hempty]
  exact ⟨.numberFormat, rfl⟩

/-- An address has no index in a cache with a single set. -/
theorem decodeAddress_single (indexLength : Int32) (hindex : indexLength.toInt = 0)
    (address : Int64) :
    ∃ cause, decodeAddress indexLength (intLog2 blockByte) address = .error cause := by
  obtain rfl : indexLength = 0 := Int32.toInt_inj.mp hindex
  rw [decodeAddress, Int32.zero_add]
  refine exists_error_bind fun indexBinary hbinary => ?_
  have hempty : indexBinary = String.ofList [] := by
    rw [substring] at hbinary
    split at hbinary
    · obtain rfl := Except.ok.inj hbinary
      rw [List.drop_eq_nil_of_le (List.length_take_le _ _)]
    · cases hbinary
  rw [hempty]
  exact ⟨.numberFormat, rfl⟩

/-- An address beyond the first round of the sets has a tag that is not zero. -/
theorem hexText_tag_ne_empty {address : ℕ} (k : ℕ) (h : 2 ^ (k + 4) ≤ address) :
    hexText (address / 16 / 2 ^ k) ≠ "0" := by
  refine hexText_ne_empty _ (Nat.div_pos ?_ (Nat.two_pow_pos k))
  rw [Nat.le_div_iff_mul_le (by decide)]
  exact (pow_add 2 k 4).symm.trans_le h

/-- Exactly the addresses beyond the first round of the sets are decoded. -/
theorem decodes_iff_of_fields (indexLength : Int32) (k : ℕ) (hk : 1 ≤ k) (hk31 : k < 31)
    (hindex : indexLength.toInt = k) (address : Int64) (haddress : 0 ≤ address.toInt) :
    Decodes (2 ^ k) indexLength (intLog2 blockByte) address ↔
      16 * ((2 ^ k : ℕ) : ℤ) ≤ address.toInt := by
  have hunsigned := unsignedLong_of_nonneg address haddress
  have hrange : 2 ^ (k + 4) ≤ unsignedLong address ↔
      16 * ((2 ^ k : ℕ) : ℤ) ≤ address.toInt := by
    rw [← hunsigned, pow_add]
    omega
  rw [← hrange]
  constructor
  · rintro ⟨⟨decoded, hdecoded, -⟩, -⟩
    by_contra hshort
    obtain ⟨cause, herror⟩ :=
      decodeAddress_short indexLength k hk31 hindex address (Nat.lt_of_not_le hshort)
    rw [herror] at hdecoded
    cases hdecoded
  · intro hlong
    have hdecoded := decodeAddress_eq indexLength k hk hk31 hindex address hlong
    have hmod : unsignedLong address / 16 % 2 ^ k < 2 ^ 31 :=
      (Nat.mod_lt _ (Nat.two_pow_pos k)).trans (Nat.pow_lt_pow_right (by decide) hk31)
    refine ⟨⟨_, hdecoded, ?_, ?_⟩, ?_⟩
    · rw [Int32.toInt_ofNat_of_lt hmod, ← hunsigned]
      norm_cast
    · rw [← hunsigned, Int.toNat_natCast, Nat.div_div_eq_div_mul]
    · rintro decoded hdecoded'
      obtain rfl := Except.ok.inj (hdecoded.symm.trans hdecoded')
      exact hexText_tag_ne_empty k hlong

/-- The index field of a cache with a power of two of sets. -/
theorem intLog2_sets {n : Int32} {sets k : ℕ} (hn : n.toInt = sets) (hsets : sets = 2 ^ k) :
    (intLog2 n).toInt = k ∧ k < 31 := by
  have hvalue : n.toInt = 2 ^ k := by
    rw [hn, hsets]
    norm_cast
  refine ⟨intLog2_of_two_pow n k hvalue, ?_⟩
  have hlt := n.toInt_lt
  rw [hvalue] at hlt
  exact (Nat.pow_lt_pow_iff_right (by decide)).mp (by exact_mod_cast hlt : 2 ^ k < 2 ^ 31)

/-- The field lengths of the first simulator, for a power of two of sets. -/
theorem Sys1.setUp_two_pow {cacheSize : Int32} {geometry : Geometry} {k : ℕ}
    (h : setUp cacheSize = .ok geometry) (hsets : geometry.sets = 2 ^ k) :
    geometry.indexLength.toInt = k ∧ k < 31 ∧ geometry.offsetLength = intLog2 blockByte := by
  rw [setUp, intDiv, if_neg (by decide), ok_bind, newArrayLength] at h
  split at h
  · rename_i hnonneg
    obtain rfl := Except.ok.inj h
    obtain ⟨hindex, hk31⟩ := intLog2_sets (Int.toNat_of_nonneg hnonneg).symm hsets
    exact ⟨hindex, hk31, rfl⟩
  · cases h

/-- A set-up that succeeds has divided by a block size that is not zero. -/
theorem Sys2.setUp_eq_ok {cacheSize setAssociativity : Int32} {geometry : Geometry}
    (h : setUp cacheSize setAssociativity = .ok geometry) :
    blockByte * setAssociativity ≠ 0 ∧
      (geometry.sets : ℤ) = (cacheSize * 1024 / (blockByte * setAssociativity)).toInt ∧
      (geometry.ways : ℤ) = setAssociativity.toInt ∧
      geometry.indexLength = intLog2 (cacheSize * 1024 / (blockByte * setAssociativity)) ∧
      geometry.offsetLength = intLog2 blockByte := by
  rw [setUp, intDiv] at h
  split at h
  · cases h
  · rename_i hne
    rw [ok_bind, newArrayLength, newArrayLength] at h
    split at h
    · rename_i hways
      rw [ok_bind] at h
      split at h
      · rename_i hsets
        obtain rfl := Except.ok.inj h
        exact ⟨hne, Int.toNat_of_nonneg hsets, Int.toNat_of_nonneg hways, rfl, rfl⟩
      · cases h
    · cases h

/-- The field lengths of the second simulator, for a power of two of sets. -/
theorem Sys2.setUp_two_pow {cacheSize setAssociativity : Int32} {geometry : Geometry} {k : ℕ}
    (h : setUp cacheSize setAssociativity = .ok geometry) (hsets : geometry.sets = 2 ^ k) :
    geometry.indexLength.toInt = k ∧ k < 31 ∧ geometry.offsetLength = intLog2 blockByte := by
  obtain ⟨-, hbuf, -, hindexLength, hoffset⟩ := setUp_eq_ok h
  obtain ⟨hindex, hk31⟩ := intLog2_sets hbuf.symm hsets
  exact ⟨hindexLength ▸ hindex, hk31, hoffset⟩

/-- In a cache with at least one set no decoded tag is the mark of an empty entry. -/
theorem Sys2.decodedTag_ne_empty {cacheSize setAssociativity : Int32} {geometry : Geometry}
    (h : setUp cacheSize setAssociativity = .ok geometry) (hsets : 0 < geometry.sets)
    (address : Int64) (decoded : DecodedAddress)
    (hdecoded : decodeAddress geometry.indexLength geometry.offsetLength address = .ok decoded) :
    decoded.tag ≠ "0" := by
  obtain ⟨-, hbuf, -, hindexLength, hoffset⟩ := setUp_eq_ok h
  obtain ⟨hindex, hk31⟩ := toInt_intLog2 _ (hbuf ▸ Int.natCast_pos.mpr hsets)
  rw [← hindexLength] at hindex
  rw [hoffset] at hdecoded
  have hreturns (hfails : ∃ cause, decodeAddress geometry.indexLength (intLog2 blockByte) address =
      .error cause) : False := by
    obtain ⟨cause, herror⟩ := hfails
    rw [herror] at hdecoded
    cases hdecoded
  have hk : 1 ≤ Nat.log2 (cacheSize * 1024 / (blockByte * setAssociativity)).toInt.toNat := by
    by_contra hzero
    exact hreturns (decodeAddress_single _ (by omega) address)
  rcases Nat.lt_or_ge (unsignedLong address) (2 ^ (_ + 4)) with hshort | hlong
  · exact (hreturns (decodeAddress_short _ _ hk31 hindex address hshort)).elim
  · rw [decodeAddress_eq _ _ hk hk31 hindex address hlong] at hdecoded
    obtain rfl := Except.ok.inj hdecoded
    exact hexText_tag_ne_empty _ hlong

/-- On a line with a load or a store, both simulators decode the address with the field lengths of
their set-up, and that succeeds, by arithmetic, exactly if the address lies beyond the first round
of the sets. -/
theorem decodes_iff (line : String) (record : Record) (hrecord : parseRecord line = .ok record)
    (haccess : record.loadStore = "L" ∨ record.loadStore = "S")
    (haddress : 0 ≤ record.addressForMemoryOp.toInt) (k : ℕ) (hk : 1 ≤ k) :
    (∀ cacheSize (geometry : Sys1.Geometry), Sys1.setUp cacheSize = .ok geometry →
        geometry.sets = 2 ^ k →
        (∀ s : Sys1.State geometry.sets,
          Sys1.step geometry.indexLength geometry.offsetLength s line =
            decodeAddress geometry.indexLength geometry.offsetLength record.addressForMemoryOp >>=
              Sys1.access s record) ∧
        (Decodes geometry.sets geometry.indexLength geometry.offsetLength
            record.addressForMemoryOp ↔
          16 * (geometry.sets : ℤ) ≤ record.addressForMemoryOp.toInt)) ∧
      ∀ cacheSize setAssociativity (geometry : Sys2.Geometry),
        Sys2.setUp cacheSize setAssociativity = .ok geometry → geometry.sets = 2 ^ k →
        (∀ s : Sys2.State geometry.ways geometry.sets,
          Sys2.step geometry.indexLength geometry.offsetLength s line =
            decodeAddress geometry.indexLength geometry.offsetLength record.addressForMemoryOp >>=
              Sys2.access s record) ∧
        (Decodes geometry.sets geometry.indexLength geometry.offsetLength
            record.addressForMemoryOp ↔
          16 * (geometry.sets : ℤ) ≤ record.addressForMemoryOp.toInt) := by
  have hop : record.loadStore ≠ "-" := by
    rcases haccess with hload | hstore
    · rw [hload]
      decide
    · rw [hstore]
      decide
  constructor
  · intro cacheSize geometry hsetUp hsets
    obtain ⟨hindex, hk31, hoffset⟩ := Sys1.setUp_two_pow hsetUp hsets
    refine ⟨fun s => ?_, ?_⟩
    · rw [Sys1.step, hrecord, ok_bind, if_neg hop]
    · rw [hoffset, hsets]
      exact decodes_iff_of_fields _ k hk hk31 hindex _ haddress
  · intro cacheSize setAssociativity geometry hsetUp hsets
    obtain ⟨hindex, hk31, hoffset⟩ := Sys2.setUp_two_pow hsetUp hsets
    refine ⟨fun s => ?_, ?_⟩
    · rw [Sys2.step, hrecord, ok_bind, if_neg hop]
    · rw [hoffset, hsets]
      exact decodes_iff_of_fields _ k hk hk31 hindex _ haddress

/-- A load from address 400, beyond the first round of 64 sets. -/
theorem decodes_iff_load :
    Decodes 64 (intLog2 64) (intLog2 blockByte) 0x400 ↔ 16 * (64 : ℤ) ≤ Int64.toInt 0x400 :=
  ((decodes_iff "1 48d1e2 -1 5 45 - - L 0 400" ⟨0x48d1e2, "L", 0x400⟩ rfl (Or.inl rfl)
    (by decide) 6 (by decide)).1 1 ⟨64, intLog2 64, intLog2 blockByte⟩ rfl rfl).2

/-- Neither simulator gets past a load from address 10, in the first round of the sets. -/
theorem not_decodes_load :
    Sys1.setUp 1 = .ok ⟨64, intLog2 64, intLog2 blockByte⟩ ∧
      ¬Decodes 64 (intLog2 64) (intLog2 blockByte) 0x10 ∧
      (Sys1.simulate (.ofLines ["1 48d1e2 -1 5 45 - - L 0 10"]) 1 false 0 0).toOption.isNone ∧
      (Sys2.simulate (.ofLines ["1 48d1e2 -1 5 45 - - L 0 10"]) 1 2 false 0 0).toOption.isNone := by
  refine ⟨rfl, ?_, by decide +kernel, by decide +kernel⟩
  rintro ⟨⟨decoded, hdecoded, -⟩, -⟩
  obtain ⟨cause, herror⟩ :=
    decodeAddress_short (intLog2 64) 6 (by decide) (by decide) 0x10 (by decide)
  rw [herror] at hdecoded
  cases hdecoded

end Coursework.CacheSimulation
