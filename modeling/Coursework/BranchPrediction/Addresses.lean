import Coursework.BranchPrediction.Decode

/-!
# The addresses that are decoded

The binary text of an address has no leading zeros. Every line is cut into both offsets,
so its text must be as long as the longer one; a branch needs another digit for the tag,
and a tag that fits an `int`. All other addresses end the simulation.
-/

namespace Coursework.BranchPrediction.Sys2

open Coursework.Java

/-- The loop body gets past the address of a line: it skips the line, or goes on with the branch at
the residues and with the quotient of the address. -/
def DecodesAddress (n m : ℕ) (pbOffsetLength btbOffsetLength : Int32) (s : State (2 ^ n) (2 ^ m))
    (line : String) (record : Record) : Prop :=
  let pc := record.instructionAddress.toInt.toNat
  step pbOffsetLength btbOffsetLength s line =
    if record.tnNotBranch = "-" then .ok s
    else branch s record
      { pbIndex := Int32.ofNat (pc % 2 ^ n)
        btbIndex := Int32.ofNat (pc % 2 ^ m)
        btbCurBranchTag := hexText (pc / 2 ^ m) }
      ⟨pc % 2 ^ n, Nat.mod_lt pc (Nat.two_pow_pos n)⟩

/-- The text of an address is as long as both offsets, and that of a branch is longer than the
offset in the target buffer by the digits of an `int`. -/
def HasDigits (pbSize btbSize : ℕ) (record : Record) : Prop :=
  let pc := record.instructionAddress.toInt
  (pbSize ≤ 2 ∨ pbSize ≤ 2 * pc) ∧ (btbSize ≤ 2 ∨ btbSize ≤ 2 * pc) ∧
    (record.tnNotBranch ≠ "-" → btbSize ≤ pc ∧ pc < 2 ^ 31 * btbSize)

/-- A binary text is as long as an offset exactly if twice the address reaches the size. -/
theorem le_toBinaryString_length (x : Int64) (e : ℕ) (he : 1 ≤ e) (hx : 0 ≤ x.toInt) :
    e ≤ (toBinaryString x).length ↔ 2 ^ e ≤ 2 ∨ ((2 ^ e : ℕ) : ℤ) ≤ 2 * x.toInt := by
  have hunsigned := unsignedLong_of_nonneg x hx
  obtain ⟨k, rfl⟩ : ∃ k, e = k + 1 := ⟨e - 1, by omega⟩
  rw [Nat.succ_le_iff]
  rcases Nat.eq_zero_or_pos k with rfl | hk
  · exact iff_of_true (toBinaryString_length x).1 (Or.inl le_rfl)
  · have hpow : 2 ^ 1 ≤ 2 ^ k := Nat.pow_le_pow_right (by decide) hk
    rw [lt_toBinaryString_length x k hk, pow_succ]
    omega

/-- A branch whose target index is in bounds throws nothing but a null dereference. -/
theorem branch_error {pbSize btbSize : ℕ} {s : State pbSize btbSize} {record : Record}
    {decoded : DecodedBranch} {pbEntry : Fin pbSize} {cause : JavaException}
    (h : branch s record decoded pbEntry = .error cause) (btbEntry : Fin btbSize)
    (hindex : arrayIndex btbSize decoded.btbIndex = .ok btbEntry) : cause = .nullPointer := by
  rw [branch_eq s record decoded pbEntry btbEntry hindex] at h
  split at h
  · split at h
    · exact (Except.error.inj h).symm
    · cases h
  · cases h

/-- Without the digits the loop body throws before it looks at the buffers. -/
theorem step_error (n m : ℕ) (hn : 1 ≤ n) (hn31 : n < 31) (hm : 1 ≤ m) (hm31 : m < 31)
    (pbOffsetLength btbOffsetLength : Int32) (hpb : pbOffsetLength.toInt = n)
    (hbtb : btbOffsetLength.toInt = m) (s : State (2 ^ n) (2 ^ m)) (line : String)
    (record : Record) (hrecord : parseRecord line = .ok record)
    (hpc : 0 ≤ record.instructionAddress.toInt) (hdigits : ¬HasDigits (2 ^ n) (2 ^ m) record) :
    ∃ cause, step pbOffsetLength btbOffsetLength s line = .error cause ∧ cause ≠ .nullPointer := by
  have hpbIff := le_toBinaryString_length record.instructionAddress n hn hpc
  have hbtbIff := le_toBinaryString_length record.instructionAddress m hm hpc
  rcases Nat.lt_or_ge (toBinaryString record.instructionAddress).length n with hshort | hpbLong
  · refine ⟨.stringIndexOutOfBounds, ?_, by decide⟩
    simp only [step, hrecord, ok_bind,
      substring_offset_error record.instructionAddress pbOffsetLength n hn31 hpb hshort, error_bind]
  obtain ⟨pbText, hpbText, hpbIndex⟩ := substring_offset_of_le record.instructionAddress
    pbOffsetLength n hn hn31 hpb hpbLong
  rcases Nat.lt_or_ge (toBinaryString record.instructionAddress).length m with hshort | hbtbLong
  · refine ⟨.stringIndexOutOfBounds, ?_, by decide⟩
    simp only [step, hrecord, ok_bind, hpbText,
      substring_offset_error record.instructionAddress btbOffsetLength m hm31 hbtb hshort,
      error_bind]
  obtain ⟨btbText, hbtbText, hbtbIndex⟩ := substring_offset_of_le record.instructionAddress
    btbOffsetLength m hm hm31 hbtb hbtbLong
  obtain ⟨digits, htagText, hcount, hvalue⟩ := substring_tag_digits record.instructionAddress
    btbOffsetLength m hm31 hbtb hbtbLong
  obtain ⟨hop, htag⟩ : record.tnNotBranch ≠ "-" ∧
      ¬(((2 ^ m : ℕ) : ℤ) ≤ record.instructionAddress.toInt ∧
        record.instructionAddress.toInt < 2 ^ 31 * ((2 ^ m : ℕ) : ℤ)) :=
    Classical.not_imp.mp fun htag => hdigits ⟨hpbIff.mp hpbLong, hbtbIff.mp hbtbLong, htag⟩
  have hunfit : ¬(digits ≠ [] ∧ unsignedLong record.instructionAddress / 2 ^ m < 2 ^ 31) := by
    rintro ⟨hne, hfits⟩
    have hpos := List.length_pos_of_ne_nil hne
    have hunsigned := unsignedLong_of_nonneg record.instructionAddress hpc
    have hlow := (lt_toBinaryString_length record.instructionAddress m (by omega)).mp (by omega)
    have hhigh := (Nat.div_lt_iff_lt_mul (Nat.two_pow_pos m)).mp hfits
    exact htag ⟨by omega, by rw [← hunsigned]; exact_mod_cast hhigh⟩
  refine ⟨.numberFormat, ?_, by decide⟩
  simp only [step, hrecord, ok_bind, hpbText, hbtbText, if_neg hop, hpbIndex, hbtbIndex,
    arrayIndex_ofNat_mod (2 ^ n) _ (Nat.two_pow_pos n) (Nat.pow_lt_pow_right (by decide) hn31),
    htagText, parseInt_ofList 2 digits _ hvalue, if_neg hunfit, error_bind]

/-- The loop body gets past exactly the addresses that have the digits. -/
theorem decodesAddress_iff (n m : ℕ) (hn : 1 ≤ n) (hn31 : n < 31) (hm : 1 ≤ m) (hm31 : m < 31)
    (pbOffsetLength btbOffsetLength : Int32) (hpb : pbOffsetLength.toInt = n)
    (hbtb : btbOffsetLength.toInt = m) (s : State (2 ^ n) (2 ^ m)) (line : String)
    (record : Record) (hrecord : parseRecord line = .ok record)
    (hpc : 0 ≤ record.instructionAddress.toInt) :
    DecodesAddress n m pbOffsetLength btbOffsetLength s line record ↔
      HasDigits (2 ^ n) (2 ^ m) record := by
  constructor
  · intro hdecodes
    by_contra hdigits
    obtain ⟨cause, herror, hcause⟩ := step_error n m hn hn31 hm hm31 pbOffsetLength btbOffsetLength
      hpb hbtb s line record hrecord hpc hdigits
    rw [DecodesAddress, herror] at hdecodes
    split at hdecodes
    · cases hdecodes
    · exact hcause (branch_error hdecodes.symm _ (arrayIndex_ofNat_mod (2 ^ m) _
        (Nat.two_pow_pos m) (Nat.pow_lt_pow_right (by decide) hm31)))
  · rintro ⟨hpbLong, hbtbLong, htag⟩
    refine step_of_digits n m hn hn31 hm hm31 pbOffsetLength btbOffsetLength hpb hbtb s line record
      hrecord _ (Int.toNat_of_nonneg hpc).symm
      ((le_toBinaryString_length record.instructionAddress n hn hpc).mpr hpbLong)
      ((le_toBinaryString_length record.instructionAddress m hm hpc).mpr hbtbLong) ?_
    intro hop
    obtain ⟨hlow, hhigh⟩ := htag hop
    rw [Nat.div_lt_iff_lt_mul (Nat.two_pow_pos m)]
    omega

/-- For buffers of powers of two the loop body gets past exactly the addresses whose text has the
digits, and branches that agree in target index and tag have the same address. -/
theorem step_decodes_iff (pbBufferSize btbBufferSize : Int32) (n m : ℕ)
    (hsizes : BufferSizes pbBufferSize btbBufferSize n m) :
    ∃ pbOffsetLength btbOffsetLength,
      setUp pbBufferSize btbBufferSize = .ok ⟨2 ^ n, 2 ^ m, pbOffsetLength, btbOffsetLength⟩ ∧
      (∀ line record, parseRecord line = .ok record → 0 ≤ record.instructionAddress.toInt →
        ∀ s : State (2 ^ n) (2 ^ m),
          DecodesAddress n m pbOffsetLength btbOffsetLength s line record ↔
            HasDigits (2 ^ n) (2 ^ m) record) ∧
      ∀ pc pc', Int32.ofNat (pc % 2 ^ m) = Int32.ofNat (pc' % 2 ^ m) →
        hexText (pc / 2 ^ m) = hexText (pc' / 2 ^ m) → pc = pc' := by
  have hn31 := exponent_lt _ _ hsizes.pb
  have hm31 := exponent_lt _ _ hsizes.btb
  obtain ⟨pbOffsetLength, btbOffsetLength, hpb, hbtb, hsetUp⟩ := hsizes.setUp_eq
  refine ⟨pbOffsetLength, btbOffsetLength, hsetUp, ?_, ?_⟩
  · intro line record hrecord hpc s
    exact decodesAddress_iff n m hsizes.pbIndex hn31 hsizes.btbIndex hm31 pbOffsetLength
      btbOffsetLength hpb hbtb s line record hrecord hpc
  · intro pc pc' hindex htag
    have hfits (v : ℕ) : (Int32.ofNat (v % 2 ^ m)).toInt = (v % 2 ^ m : ℕ) :=
      Int32.toInt_ofNat_of_lt ((Nat.mod_lt _ (Nat.two_pow_pos m)).trans
        (Nat.pow_lt_pow_right (by decide) hm31))
    have hresidue : pc % 2 ^ m = pc' % 2 ^ m := by
      have hvalues := congrArg Int32.toInt hindex
      rw [hfits, hfits] at hvalues
      exact_mod_cast hvalues
    rw [← Nat.div_add_mod pc (2 ^ m), ← Nat.div_add_mod pc' (2 ^ m), hresidue,
      hexText_injective htag]

/-- Four counters and two targets. -/
theorem step_decodes_iff_four_two :
    ∃ pbOffsetLength btbOffsetLength,
      setUp 4 2 = .ok ⟨2 ^ 2, 2 ^ 1, pbOffsetLength, btbOffsetLength⟩ ∧
      (∀ line record, parseRecord line = .ok record → 0 ≤ record.instructionAddress.toInt →
        ∀ s : State (2 ^ 2) (2 ^ 1),
          DecodesAddress 2 1 pbOffsetLength btbOffsetLength s line record ↔
            HasDigits (2 ^ 2) (2 ^ 1) record) ∧
      ∀ pc pc', Int32.ofNat (pc % 2 ^ 1) = Int32.ofNat (pc' % 2 ^ 1) →
        hexText (pc / 2 ^ 1) = hexText (pc' / 2 ^ 1) → pc = pc' :=
  step_decodes_iff 4 2 2 1 ⟨by decide, by decide, by decide, by decide⟩

/-- The address 1 on a line without a branch, with four counters and two targets: the text has one
digit, and the offset needs two. -/
theorem not_decodesAddress_one :
    setUp 4 2 = .ok ⟨2 ^ 2, 2 ^ 1, 2, 1⟩ ∧
      parseRecord "1 1 0 0 0 0 - 0 0 0 0 0" = .ok ⟨1, "-", 0⟩ ∧
      ¬DecodesAddress 2 1 2 1 (State.initial (2 ^ 2) (2 ^ 1)) "1 1 0 0 0 0 - 0 0 0 0 0"
        ⟨1, "-", 0⟩ ∧
      (simulate (.ofLines ["1 1 0 0 0 0 - 0 0 0 0 0"]) 4 2 false).toOption.isNone := by
  refine ⟨rfl, rfl, ?_, by decide +kernel⟩
  intro hdecodes
  obtain ⟨cause, herror, -⟩ := step_error 2 1 (by decide) (by decide) (by decide) (by decide) 2 1
    (by decide) (by decide) (State.initial (2 ^ 2) (2 ^ 1)) _ _
    (show parseRecord "1 1 0 0 0 0 - 0 0 0 0 0" = .ok ⟨1, "-", 0⟩ from rfl) (by decide)
    (fun hdigits => absurd hdigits.1 (by decide))
  rw [DecodesAddress, herror, if_pos rfl] at hdecodes
  cases hdecodes

end Coursework.BranchPrediction.Sys2
