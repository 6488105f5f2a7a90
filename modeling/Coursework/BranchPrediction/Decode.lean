import Coursework.BranchPrediction.Sys2
import Coursework.Java.Radix

/-!
# Offsets of an instruction address

The last digits of the binary text of an address are its value modulo a power of two.
When the text is long enough for both offsets and leaves digits for the tag, the loop
body decodes a branch to two residues and a quotient.
-/

namespace Coursework.BranchPrediction.Sys2

open Coursework.Java

/-- Where the text of an address is cut for an offset. -/
theorem toInt_offset (x : Int64) (offsetLength : Int32) (e : ℕ) (he31 : e < 31)
    (hoffset : offsetLength.toInt = e) :
    (stringLength (toBinaryString x) - offsetLength).toInt =
      (toBinaryString x).length - (e : ℕ) := by
  have hbounds := toBinaryString_length x
  have hlength := toInt_stringLength x
  rw [toInt_sub_of_bounds _ _ (by omega) (by omega)]
  omega

/-- The digits of an offset, when the text is long enough. -/
theorem substring_offset_digits (x : Int64) (offsetLength : Int32) (e : ℕ) (he31 : e < 31)
    (hoffset : offsetLength.toInt = e) (hlong : e ≤ (toBinaryString x).length) :
    ∃ digits, substring (toBinaryString x) (stringLength (toBinaryString x) - offsetLength)
        (stringLength (toBinaryString x)) = .ok (String.ofList digits) ∧
      digits.length = e ∧ digitsValue 2 0 digits = some (unsignedLong x % 2 ^ e) := by
  have hlength := toInt_stringLength x
  obtain ⟨digits, htext, hcount, hvalue⟩ := substring_toBinaryString x _ _ 0 e (by omega) hlong
    (toInt_offset x offsetLength e he31 hoffset) (hlength.trans (by omega))
  rw [Nat.pow_zero, Nat.div_one, Nat.sub_zero] at hvalue
  exact ⟨digits, htext, hcount, hvalue⟩

/-- A text that is too short for an offset. -/
theorem substring_offset_error (x : Int64) (offsetLength : Int32) (e : ℕ) (he31 : e < 31)
    (hoffset : offsetLength.toInt = e) (hshort : (toBinaryString x).length < e) :
    substring (toBinaryString x) (stringLength (toBinaryString x) - offsetLength)
      (stringLength (toBinaryString x)) = .error .stringIndexOutOfBounds := by
  have hbegin := toInt_offset x offsetLength e he31 hoffset
  rw [substring, if_neg]
  rintro ⟨hzero, _⟩
  omega

/-- The digits of the tag, when the text is long enough for the offset. -/
theorem substring_tag_digits (x : Int64) (offsetLength : Int32) (e : ℕ) (he31 : e < 31)
    (hoffset : offsetLength.toInt = e) (hlong : e ≤ (toBinaryString x).length) :
    ∃ digits, substring (toBinaryString x) 0 (stringLength (toBinaryString x) - offsetLength) =
        .ok (String.ofList digits) ∧
      digits.length = (toBinaryString x).length - e ∧
      digitsValue 2 0 digits = some (unsignedLong x / 2 ^ e) := by
  obtain ⟨digits, htext, hcount, hvalue⟩ := substring_toBinaryString x 0 _ e
    (toBinaryString x).length hlong le_rfl (by simp) (toInt_offset x offsetLength e he31 hoffset)
  have hquotient : unsignedLong x / 2 ^ e % 2 ^ ((toBinaryString x).length - e) =
      unsignedLong x / 2 ^ e := by
    apply Nat.mod_eq_of_lt
    rw [Nat.div_lt_iff_lt_mul (by positivity), ← Nat.pow_add,
      show (toBinaryString x).length - e + e = (toBinaryString x).length by omega]
    exact unsignedLong_lt x
  rw [hquotient] at hvalue
  exact ⟨digits, htext, hcount, hvalue⟩

/-- A text with at least one digit is not empty. -/
theorem ne_nil_of_length {α : Type} {digits : List α} {e : ℕ} (hcount : digits.length = e)
    (he : 1 ≤ e) : digits ≠ [] := by
  rintro rfl
  simp at hcount
  omega

/-- Cutting an offset succeeds when the text has enough digits, and then reads as a residue. -/
theorem substring_offset (x : Int64) (offsetLength : Int32) (e : ℕ) (he : 1 ≤ e) (he31 : e < 31)
    (hoffset : offsetLength.toInt = e) :
    (∃ text, substring (toBinaryString x) (stringLength (toBinaryString x) - offsetLength)
        (stringLength (toBinaryString x)) = .ok text ∧
      parseInt text 2 = .ok (Int32.ofNat (unsignedLong x % 2 ^ e))) ∨
      substring (toBinaryString x) (stringLength (toBinaryString x) - offsetLength)
        (stringLength (toBinaryString x)) = .error .stringIndexOutOfBounds := by
  rcases Nat.lt_or_ge (toBinaryString x).length e with hshort | hlong
  · exact Or.inr (substring_offset_error x offsetLength e he31 hoffset hshort)
  · obtain ⟨digits, htext, hcount, hvalue⟩ :=
      substring_offset_digits x offsetLength e he31 hoffset hlong
    have hlt : unsignedLong x % 2 ^ e < 2 ^ 31 :=
      (Nat.mod_lt _ (by positivity)).trans (Nat.pow_lt_pow_right (by decide) he31)
    exact Or.inl ⟨_, htext, parseInt_digits 2 digits _ (ne_nil_of_length hcount he) hvalue hlt⟩

/-- A text with enough digits is cut into its offset. -/
theorem substring_offset_of_le (x : Int64) (offsetLength : Int32) (e : ℕ) (he : 1 ≤ e)
    (he31 : e < 31) (hoffset : offsetLength.toInt = e) (hlong : e ≤ (toBinaryString x).length) :
    ∃ text, substring (toBinaryString x) (stringLength (toBinaryString x) - offsetLength)
        (stringLength (toBinaryString x)) = .ok text ∧
      parseInt text 2 = .ok (Int32.ofNat (unsignedLong x % 2 ^ e)) := by
  refine (substring_offset x offsetLength e he he31 hoffset).resolve_right ?_
  obtain ⟨digits, htext, -⟩ := substring_offset_digits x offsetLength e he31 hoffset hlong
  rw [htext]
  exact fun h => by cases h

/-- The tag of an address with enough digits. -/
theorem substring_tag (x : Int64) (offsetLength : Int32) (e : ℕ) (he : 1 ≤ e) (he31 : e < 31)
    (hoffset : offsetLength.toInt = e) (hx : 2 ^ e ≤ unsignedLong x)
    (htag : unsignedLong x / 2 ^ e < 2 ^ 31) :
    ∃ text, substring (toBinaryString x) 0 (stringLength (toBinaryString x) - offsetLength) =
        .ok text ∧
      parseInt text 2 = .ok (Int32.ofNat (unsignedLong x / 2 ^ e)) := by
  have hlong := (lt_toBinaryString_length x e (by omega)).mpr hx
  obtain ⟨digits, htext, hcount, hvalue⟩ :=
    substring_tag_digits x offsetLength e he31 hoffset hlong.le
  exact ⟨_, htext, parseInt_digits 2 digits _ (ne_nil_of_length hcount (by omega)) hvalue htag⟩

/-- Buffer sizes that are powers of two, with at least two entries each. -/
structure BufferSizes (pbBufferSize btbBufferSize : Int32) (n m : ℕ) : Prop where
  pb : pbBufferSize.toInt = 2 ^ n
  btb : btbBufferSize.toInt = 2 ^ m
  pbIndex : 1 ≤ n
  btbIndex : 1 ≤ m

/-- The exponent of a power of two that is an `int`. -/
theorem exponent_lt (size : Int32) (e : ℕ) (h : size.toInt = 2 ^ e) : e < 31 := by
  have hlt := size.toInt_lt
  by_contra hge
  have hpow : (2 : ℤ) ^ 31 ≤ 2 ^ e := pow_le_pow_right₀ (by decide) (by omega)
  omega

/-- The set-up of buffers whose sizes are powers of two. -/
theorem BufferSizes.setUp_eq {pbBufferSize btbBufferSize : Int32} {n m : ℕ}
    (h : BufferSizes pbBufferSize btbBufferSize n m) :
    ∃ pbOffsetLength btbOffsetLength : Int32, pbOffsetLength.toInt = n ∧
      btbOffsetLength.toInt = m ∧
      setUp pbBufferSize btbBufferSize = .ok ⟨2 ^ n, 2 ^ m, pbOffsetLength, btbOffsetLength⟩ := by
  have hpb := h.pb
  have hbtb := h.btb
  have hpos (e : ℕ) : (0 : ℤ) < 2 ^ e := by positivity
  have hnat (e : ℕ) : ((2 : ℤ) ^ e).toNat = 2 ^ e := by
    rw [← Nat.cast_ofNat, ← Nat.cast_pow, Int.toNat_natCast]
  refine ⟨_, _, intLog2_of_two_pow _ n hpb, intLog2_of_two_pow _ m hbtb, ?_⟩
  rw [setUp, newArrayLength, if_pos (hpb ▸ (hpos n).le), ok_bind, newArrayLength,
    if_pos (hbtb ▸ (hpos m).le), ok_bind, hpb, hbtb, hnat, hnat, pure_eq_ok]

/-- A line that can be read, whose operation is `T`, `N` or `-`, and whose address leaves at least
one digit and less than an `int` for the tag. -/
def DecodableLine (pbSize btbSize : ℕ) (line : String) : Prop :=
  ∃ record, parseRecord line = .ok record ∧
    (record.tnNotBranch = "T" ∨ record.tnNotBranch = "N" ∨ record.tnNotBranch = "-") ∧
    (pbSize : ℤ) ≤ record.instructionAddress.toInt ∧
    (btbSize : ℤ) ≤ record.instructionAddress.toInt ∧
    record.instructionAddress.toInt / btbSize < 2 ^ 31

instance (pbSize btbSize : ℕ) (line : String) : Decidable (DecodableLine pbSize btbSize line) :=
  match hrecord : parseRecord line with
  | .ok record => decidable_of_iff
      ((record.tnNotBranch = "T" ∨ record.tnNotBranch = "N" ∨ record.tnNotBranch = "-") ∧
        (pbSize : ℤ) ≤ record.instructionAddress.toInt ∧
        (btbSize : ℤ) ≤ record.instructionAddress.toInt ∧
        record.instructionAddress.toInt / btbSize < 2 ^ 31)
      (by simp [DecodableLine, hrecord])
  | .error _ => isFalse (by simp [DecodableLine, hrecord])

/-- What is decoded from the address of a branch. -/
def decodedBranch (n m pc : ℕ) : DecodedBranch where
  pbIndex := Int32.ofNat (pc % 2 ^ n)
  btbIndex := Int32.ofNat (pc % 2 ^ m)
  btbCurBranchTag := hexText (pc / 2 ^ m)

/-- A line whose address has the digits for both offsets, and for a tag if it is a branch, is
skipped or processed as the branch of its address. -/
theorem step_of_digits (n m : ℕ) (hn : 1 ≤ n) (hn31 : n < 31) (hm : 1 ≤ m) (hm31 : m < 31)
    (pbOffsetLength btbOffsetLength : Int32) (hpb : pbOffsetLength.toInt = n)
    (hbtb : btbOffsetLength.toInt = m) (s : State (2 ^ n) (2 ^ m)) (line : String)
    (record : Record) (hrecord : parseRecord line = .ok record) (pc : ℕ)
    (hpc : record.instructionAddress.toInt = pc)
    (hpbLong : n ≤ (toBinaryString record.instructionAddress).length)
    (hbtbLong : m ≤ (toBinaryString record.instructionAddress).length)
    (htag : record.tnNotBranch ≠ "-" → 2 ^ m ≤ pc ∧ pc / 2 ^ m < 2 ^ 31) :
    step pbOffsetLength btbOffsetLength s line =
      if record.tnNotBranch = "-" then .ok s
      else branch s record (decodedBranch n m pc)
        ⟨pc % 2 ^ n, Nat.mod_lt pc (Nat.two_pow_pos n)⟩ := by
  have hunsigned : unsignedLong record.instructionAddress = pc := by
    have h := unsignedLong_of_nonneg record.instructionAddress (by omega)
    omega
  have hpbFits : 2 ^ n < 2 ^ 31 := Nat.pow_lt_pow_right (by decide) hn31
  obtain ⟨pbText, hpbText, hpbIndex⟩ := substring_offset_of_le record.instructionAddress
    pbOffsetLength n hn hn31 hpb hpbLong
  obtain ⟨btbText, hbtbText, hbtbIndex⟩ := substring_offset_of_le record.instructionAddress
    btbOffsetLength m hm hm31 hbtb hbtbLong
  rw [hunsigned] at hpbIndex hbtbIndex
  by_cases hskip : record.tnNotBranch = "-"
  · simp only [step, hrecord, ok_bind, hpbText, hbtbText, if_pos hskip, pure_eq_ok]
  · obtain ⟨hdigit, hfits⟩ := htag hskip
    obtain ⟨tagText, htagText, htagValue⟩ := substring_tag record.instructionAddress
      btbOffsetLength m hm hm31 hbtb (by omega) (by rwa [hunsigned])
    rw [hunsigned] at htagValue
    simp only [step, hrecord, ok_bind, hpbText, hbtbText, if_neg hskip, hpbIndex,
      arrayIndex_ofNat_mod (2 ^ n) pc (by positivity) hpbFits, hbtbIndex, htagText, htagValue,
      formatHex_ofNat _ hfits, decodedBranch]

/-- A decodable line is skipped, or processed as the branch of its address. -/
theorem step_of_decodable (n m : ℕ) (hn : 1 ≤ n) (hn31 : n < 31) (hm : 1 ≤ m) (hm31 : m < 31)
    (pbOffsetLength btbOffsetLength : Int32) (hpb : pbOffsetLength.toInt = n)
    (hbtb : btbOffsetLength.toInt = m) (s : State (2 ^ n) (2 ^ m)) (line : String)
    (record : Record) (hrecord : parseRecord line = .ok record) (pc : ℕ)
    (hpc : record.instructionAddress.toInt = pc) (hpbSize : 2 ^ n ≤ pc) (hbtbSize : 2 ^ m ≤ pc)
    (htag : pc / 2 ^ m < 2 ^ 31) :
    step pbOffsetLength btbOffsetLength s line =
      if record.tnNotBranch = "-" then .ok s
      else branch s record (decodedBranch n m pc)
        ⟨pc % 2 ^ n, Nat.mod_lt pc (Nat.two_pow_pos n)⟩ := by
  have hunsigned := unsignedLong_of_nonneg record.instructionAddress (by omega)
  exact step_of_digits n m hn hn31 hm hm31 pbOffsetLength btbOffsetLength hpb hbtb s line record
    hrecord pc hpc ((lt_toBinaryString_length _ n (by omega)).mpr (by omega)).le
    ((lt_toBinaryString_length _ m (by omega)).mpr (by omega)).le (fun _ => ⟨hbtbSize, htag⟩)

/-- The counters after a look-up in an entry. -/
def lookedUp (target : Target) (tag : String) (counters : Counters) : Counters :=
  if target.valid = 1 ∧ target.tag = tag then { counters with hit := counters.hit + 1 }
  else { counters with miss := counters.miss + 1 }

/-- The target buffer after a branch to an entry. -/
def updatedTargets {btbSize : ℕ} (btbBuffer : Fin btbSize → Option Target) (tnNotBranch : String)
    (btbEntry : Fin btbSize) (tag : String) : Fin btbSize → Option Target :=
  if tnNotBranch = "T" then setTarget btbBuffer btbEntry ⟨tag, 1⟩ else btbBuffer

/-- A branch whose target index is in bounds throws exactly when it looks up a null entry. -/
theorem branch_eq {pbSize btbSize : ℕ} (s : State pbSize btbSize) (record : Record)
    (decoded : DecodedBranch) (pbEntry : Fin pbSize) (btbEntry : Fin btbSize)
    (hindex : arrayIndex btbSize decoded.btbIndex = .ok btbEntry) :
    let counted := { s.counters with branches := s.counters.branches + 1 }
    let targets := updatedTargets s.btbBuffer record.tnNotBranch btbEntry decoded.btbCurBranchTag
    branch s record decoded pbEntry =
      if takenPrediction (s.pbBuffer pbEntry) then
        match s.btbBuffer btbEntry with
        | none => .error .nullPointer
        | some target => .ok (s.afterBranch record decoded pbEntry
            (lookedUp target decoded.btbCurBranchTag counted) targets)
      else .ok (s.afterBranch record decoded pbEntry counted targets) := by
  have hupdate : updateTargets s.btbBuffer record.tnNotBranch decoded.btbIndex
      decoded.btbCurBranchTag =
        .ok (updatedTargets s.btbBuffer record.tnNotBranch btbEntry decoded.btbCurBranchTag) := by
    by_cases htaken : record.tnNotBranch = "T" <;>
      simp [updateTargets, updatedTargets, hindex, htaken]
  simp only [branch, hupdate]
  cases takenPrediction (s.pbBuffer pbEntry) with
  | false => rfl
  | true =>
    simp only [countLookUp, lookUp, hindex, ok_bind, if_true]
    cases s.btbBuffer btbEntry with
    | none => rfl
    | some target =>
      by_cases hfound : target.valid = 1 ∧ target.tag = decoded.btbCurBranchTag <;>
        simp [hfound, lookedUp]

end Coursework.BranchPrediction.Sys2
