import Coursework.Java.Text
import Mathlib.Tactic.Positivity
import Mathlib.Tactic.Ring

/-!
# Positional values of printed numbers

Printing a number in a radix and reading the digits back is the identity, and a segment
of the binary digits of a number reads as the corresponding quotient and remainder by
powers of two. These are the facts that turn the text-based address decoding into
arithmetic.
-/

namespace Coursework.Java

/-- A digit character reads as its own value in every radix up to sixteen. -/
theorem digit_digitChar (radix d : ℕ) (hd : d < radix) (hradix : radix ≤ 16) :
    digit radix (Nat.digitChar d) = some d := by
  have hvalue : ∀ e ∈ List.range 16, digitValue (Nat.digitChar e) = some e := by decide
  have hd' := hvalue d (List.mem_range.mpr (by omega))
  simp [digit, hd', hd]

/-- Every accepted digit is below the radix. -/
theorem digit_lt (radix : ℕ) (ch : Char) (d : ℕ) (h : digit radix ch = some d) : d < radix := by
  simp only [digit, Option.filter_eq_some_iff, decide_eq_true_eq] at h
  exact h.2

/-- Reading continues with the value of the digits before. -/
theorem digitsValue_append (radix acc : ℕ) (front back : List Char) :
    digitsValue radix acc (front ++ back) =
      (digitsValue radix acc front).bind (fun v => digitsValue radix v back) := by
  induction front generalizing acc with
  | nil => rfl
  | cons ch rest ih =>
    simp only [List.cons_append, digitsValue]
    cases digit radix ch with
    | none => rfl
    | some d => exact ih _

/-- The digits read before weigh the power of the radix that follows them. -/
theorem digitsValue_acc (radix acc : ℕ) (digits : List Char) :
    digitsValue radix acc digits =
      (digitsValue radix 0 digits).map (acc * radix ^ digits.length + ·) := by
  induction digits generalizing acc with
  | nil => simp [digitsValue]
  | cons ch rest ih =>
    simp only [digitsValue]
    cases digit radix ch with
    | none => rfl
    | some d =>
      simp only
      rw [ih, ih (0 * radix + d)]
      simp only [Option.map_map, List.length_cons]
      congr 1
      funext v
      simp only [Function.comp_apply]
      ring

/-- A run of digits stays below the power of the radix given by its length. -/
theorem digitsValue_lt (radix : ℕ) (digits : List Char) (v : ℕ)
    (h : digitsValue radix 0 digits = some v) : v < radix ^ digits.length := by
  induction digits generalizing v with
  | nil =>
    simp only [digitsValue, Option.some.injEq] at h
    simp [← h]
  | cons ch rest ih =>
    simp only [digitsValue] at h
    cases hd : digit radix ch with
    | none => simp [hd] at h
    | some d =>
      simp only [hd] at h
      rw [digitsValue_acc] at h
      obtain ⟨u, hu, rfl⟩ := Option.map_eq_some_iff.mp h
      have hdr := digit_lt radix ch d hd
      have hur := ih u hu
      rw [List.length_cons, pow_succ']
      calc (0 * radix + d) * radix ^ rest.length + u
          < (0 * radix + d) * radix ^ rest.length + radix ^ rest.length := by omega
        _ = (d + 1) * radix ^ rest.length := by ring
        _ ≤ radix * radix ^ rest.length := Nat.mul_le_mul_right _ hdr

/-- Reading the printed digits of a number gives the number. -/
theorem digitsValue_toDigits (radix n : ℕ) (hone : 1 < radix) (hradix : radix ≤ 16) :
    digitsValue radix 0 (Nat.toDigits radix n) = some n := by
  induction n using Nat.strongRecOn with
  | ind n ih =>
    by_cases hn : n < radix
    · rw [Nat.toDigits_of_lt_base hn]
      simp [digitsValue, digit_digitChar radix n hn hradix]
    · have hmod : n % radix < radix := Nat.mod_lt _ (by omega)
      rw [Nat.toDigits_of_base_le hone (by omega), digitsValue_append,
        ih _ (Nat.div_lt_self (by omega) hone)]
      simp only [Option.bind_some, digitsValue, digit_digitChar radix _ hmod hradix,
        Option.some.injEq]
      exact Nat.div_add_mod' n radix

/-- Different numbers are printed differently. -/
theorem toDigits_injective (radix : ℕ) (hone : 1 < radix) (hradix : radix ≤ 16) :
    Function.Injective (Nat.toDigits radix) := by
  intro m n h
  have hm := digitsValue_toDigits radix m hone hradix
  rw [h, digitsValue_toDigits radix n hone hradix] at hm
  exact (Option.some.inj hm).symm

/-- A run of digits and the rest of a printed number read as quotient and remainder. -/
theorem digitsValue_split (radix n : ℕ) (hone : 1 < radix) (hradix : radix ≤ 16)
    (front back : List Char) (h : Nat.toDigits radix n = front ++ back) :
    digitsValue radix 0 front = some (n / radix ^ back.length) ∧
      digitsValue radix 0 back = some (n % radix ^ back.length) := by
  have hn := digitsValue_toDigits radix n hone hradix
  rw [h, digitsValue_append] at hn
  obtain ⟨u, hu, hn⟩ := Option.bind_eq_some_iff.mp hn
  rw [digitsValue_acc] at hn
  obtain ⟨v, hv, hn⟩ := Option.map_eq_some_iff.mp hn
  have hvlt := digitsValue_lt radix back v hv
  have hpos : 0 < radix ^ back.length := by omega
  have hdiv : n / radix ^ back.length = u := by
    rw [← hn, Nat.add_comm, Nat.add_mul_div_right _ _ hpos, Nat.div_eq_of_lt hvlt, Nat.zero_add]
  have hmod : n % radix ^ back.length = v := by
    rw [← hn, Nat.add_comm, Nat.add_mul_mod_self_right, Nat.mod_eq_of_lt hvlt]
  rw [hdiv, hmod]
  exact ⟨hu, hv⟩

/-- A segment of the binary digits of a number, as arithmetic. -/
theorem digitsValue_segment (n i j : ℕ) (hj : j ≤ (Nat.toDigits 2 n).length) :
    digitsValue 2 0 (((Nat.toDigits 2 n).take j).drop i) =
      some (n / 2 ^ ((Nat.toDigits 2 n).length - j) % 2 ^ (j - i)) := by
  have hsplit := digitsValue_split 2 n (by decide) (by decide)
    ((Nat.toDigits 2 n).take j) ((Nat.toDigits 2 n).drop j) (List.take_append_drop j _).symm
  rw [List.length_drop] at hsplit
  have hfront := hsplit.1
  rw [← List.take_append_drop i ((Nat.toDigits 2 n).take j), digitsValue_append] at hfront
  obtain ⟨u, _, hfront⟩ := Option.bind_eq_some_iff.mp hfront
  rw [digitsValue_acc] at hfront
  obtain ⟨v, hv, hfront⟩ := Option.map_eq_some_iff.mp hfront
  have hlen : (((Nat.toDigits 2 n).take j).drop i).length = j - i := by
    rw [List.length_drop, List.length_take, Nat.min_eq_left hj]
  have hvlt := digitsValue_lt 2 _ v hv
  rw [hlen] at hvlt hfront
  rw [hv, ← hfront, Nat.add_comm, Nat.add_mul_mod_self_right, Nat.mod_eq_of_lt hvlt]

/-- A sign is not a digit. -/
theorem digitsValue_head (radix acc : ℕ) (ch : Char) (rest : List Char) (v : ℕ)
    (h : digitsValue radix acc (ch :: rest) = some v) : ch ≠ '-' ∧ ch ≠ '+' := by
  have hminus : digitValue '-' = none := by decide
  have hplus : digitValue '+' = none := by decide
  constructor <;> rintro rfl <;> simp [digitsValue, digit, hminus, hplus] at h

/-- Unsigned digits read as their positional value. -/
theorem signedValue_digits (radix : ℕ) (digits : List Char) (v : ℕ) (hne : digits ≠ [])
    (h : digitsValue radix 0 digits = some v) : signedValue radix digits = some (v : ℤ) := by
  cases digits with
  | nil => exact absurd rfl hne
  | cons ch rest =>
    obtain ⟨hminus, hplus⟩ := digitsValue_head radix 0 ch rest v h
    simp [signedValue, hminus, hplus, magnitude, h]

/-- `parseLong` of digits whose value fits a `long`. -/
theorem parseLong_digits (radix : ℕ) (digits : List Char) (v : ℕ) (hne : digits ≠ [])
    (h : digitsValue radix 0 digits = some v) (hv : v < 2 ^ 63) :
    parseLong (String.ofList digits) radix = .ok (Int64.ofNat v) := by
  simp only [parseLong, String.toList_ofList, signedValue_digits radix digits v hne h]
  rw [if_pos ⟨by omega, by exact_mod_cast hv⟩]
  rfl

/-- `parseInt` of digits whose value fits an `int`. -/
theorem parseInt_digits (radix : ℕ) (digits : List Char) (v : ℕ) (hne : digits ≠ [])
    (h : digitsValue radix 0 digits = some v) (hv : v < 2 ^ 31) :
    parseInt (String.ofList digits) radix = .ok (Int32.ofNat v) := by
  simp only [parseInt, String.toList_ofList, signedValue_digits radix digits v hne h]
  rw [if_pos ⟨by omega, by exact_mod_cast hv⟩]
  rfl

/-- `parseInt` of digits needs a digit, and a value that fits an `int`. -/
theorem parseInt_ofList (radix : ℕ) (digits : List Char) (v : ℕ)
    (h : digitsValue radix 0 digits = some v) :
    parseInt (String.ofList digits) radix =
      if digits ≠ [] ∧ v < 2 ^ 31 then .ok (Int32.ofNat v) else .error .numberFormat := by
  by_cases hne : digits = []
  · rw [if_neg (by simp [hne]), hne]
    rfl
  · by_cases hv : v < 2 ^ 31
    · rw [if_pos ⟨hne, hv⟩]
      exact parseInt_digits radix digits v hne h hv
    · rw [if_neg (fun hboth => hv hboth.2)]
      simp only [parseInt, String.toList_ofList, signedValue_digits radix digits v hne h]
      rw [if_neg (fun hboth => hv (by exact_mod_cast hboth.2))]

/-- A binary string has a digit, and at most 64 of them. -/
theorem toBinaryString_length (x : Int64) :
    1 ≤ (toBinaryString x).length ∧ (toBinaryString x).length ≤ 64 := by
  rw [toBinaryString, String.length_ofList]
  refine ⟨Nat.length_toDigits_pos, ?_⟩
  rw [Nat.length_toDigits_le_iff (by decide) (by decide)]
  exact x.toUInt64.toNat_lt

/-- A binary string has more than `k` digits exactly from `2 ^ k` on. -/
theorem lt_toBinaryString_length (x : Int64) (k : ℕ) (hk : 0 < k) :
    k < (toBinaryString x).length ↔ 2 ^ k ≤ unsignedLong x := by
  rw [toBinaryString, String.length_ofList, ← Nat.not_le,
    Nat.length_toDigits_le_iff (by decide) hk, Nat.not_lt]

/-- Non-negative numbers keep their value as a `long`. -/
theorem unsignedLong_ofNat (n : ℕ) (h : n < 2 ^ 63) : unsignedLong (Int64.ofNat n) = n := by
  have hn : n < 2 ^ 64 := by omega
  change (UInt64.ofNat n).toNat = n
  rw [UInt64.toNat_ofNat', Nat.mod_eq_of_lt hn]

/-- A non-negative `long` is its bit pattern. -/
theorem unsignedLong_of_nonneg (x : Int64) (h : 0 ≤ x.toInt) : (unsignedLong x : ℤ) = x.toInt := by
  have hcond := BitVec.toInt_eq_toNat_cond x.toBitVec
  have hlt := x.toBitVec.isLt
  change x.toInt = _ at hcond
  change ((x.toBitVec.toNat : ℕ) : ℤ) = _
  split at hcond <;> omega

/-- A result inside the range of an `int` does not wrap around. -/
theorem bmod_of_bounds {n : ℤ} (hlow : -2 ^ 31 ≤ n) (hhigh : n < 2 ^ 31) : n.bmod (2 ^ 32) = n :=
  Int.bmod_eq_of_le (by omega) (by omega)

/-- Addition of `int`s without overflow. -/
theorem toInt_add_of_bounds (a b : Int32) (hlow : -2 ^ 31 ≤ a.toInt + b.toInt)
    (hhigh : a.toInt + b.toInt < 2 ^ 31) : (a + b).toInt = a.toInt + b.toInt := by
  rw [Int32.toInt_add, bmod_of_bounds hlow hhigh]

/-- Subtraction of `int`s without overflow. -/
theorem toInt_sub_of_bounds (a b : Int32) (hlow : -2 ^ 31 ≤ a.toInt - b.toInt)
    (hhigh : a.toInt - b.toInt < 2 ^ 31) : (a - b).toInt = a.toInt - b.toInt := by
  rw [Int32.toInt_sub, bmod_of_bounds hlow hhigh]

/-- The length of a binary string as an `int`. -/
theorem toInt_stringLength (x : Int64) :
    (stringLength (toBinaryString x)).toInt = (toBinaryString x).length := by
  have h := toBinaryString_length x
  exact Int32.toInt_ofNat_of_lt (by omega)

/-- The bounds check of an index that is a residue. -/
theorem arrayIndex_ofNat_mod (size v : ℕ) (hsize : 0 < size) (hsize31 : size < 2 ^ 31) :
    arrayIndex size (Int32.ofNat (v % size)) = .ok ⟨v % size, Nat.mod_lt v hsize⟩ := by
  have hlt := Nat.mod_lt v hsize
  have hto : (Int32.ofNat (v % size)).toInt = (v % size : ℕ) :=
    Int32.toInt_ofNat_of_lt (by omega)
  simp only [arrayIndex, hto, Int.toNat_natCast]
  rw [dif_pos ⟨by omega, hlt⟩]

/-- A substring with bounds inside the text. -/
theorem substring_of_le (s : String) (beginIndex endIndex : Int32) (i j : ℕ)
    (hi : beginIndex.toInt = i) (hj : endIndex.toInt = j) (hij : i ≤ j) (hlen : j ≤ s.length) :
    substring s beginIndex endIndex = .ok (String.ofList ((s.toList.take j).drop i)) := by
  simp only [substring, hi, hj]
  rw [if_pos ⟨by omega, by omega, by omega⟩]
  rfl

/-- A number is below the power of two given by the length of its binary string. -/
theorem unsignedLong_lt (x : Int64) : unsignedLong x < 2 ^ (toBinaryString x).length := by
  have hpos := (toBinaryString_length x).1
  rw [toBinaryString, String.length_ofList] at hpos ⊢
  exact (Nat.length_toDigits_le_iff (by decide) hpos).mp (Nat.le_refl _)

/-- The binary digits between two distances from the right end, and their value. -/
theorem substring_toBinaryString (x : Int64) (beginIndex endIndex : Int32) (lo hi : ℕ)
    (hlo : lo ≤ hi) (hhi : hi ≤ (toBinaryString x).length)
    (hbegin : beginIndex.toInt = (toBinaryString x).length - hi)
    (hend : endIndex.toInt = (toBinaryString x).length - lo) :
    ∃ digits, substring (toBinaryString x) beginIndex endIndex = .ok (String.ofList digits) ∧
      digits.length = hi - lo ∧
      digitsValue 2 0 digits = some (unsignedLong x / 2 ^ lo % 2 ^ (hi - lo)) := by
  have hlength : (toBinaryString x).length = (Nat.toDigits 2 (unsignedLong x)).length := by
    rw [toBinaryString, String.length_ofList]
  refine ⟨_, substring_of_le _ beginIndex endIndex ((toBinaryString x).length - hi)
    ((toBinaryString x).length - lo) (by omega) (by omega) (by omega) (by omega), ?_, ?_⟩
  · rw [List.length_drop, List.length_take, String.length_toList]
    omega
  · rw [toBinaryString, String.toList_ofList, String.length_ofList,
      digitsValue_segment _ _ _ (by omega)]
    rw [hlength] at hhi
    rw [show (Nat.toDigits 2 (unsignedLong x)).length -
        ((Nat.toDigits 2 (unsignedLong x)).length - lo) = lo by omega,
      show (Nat.toDigits 2 (unsignedLong x)).length - lo -
        ((Nat.toDigits 2 (unsignedLong x)).length - hi) = hi - lo by omega]

/-- The truncated binary logarithm of a positive number is the position of its leading bit. -/
theorem toInt_intLog2 (n : Int32) (hn : 0 < n.toInt) :
    (intLog2 n).toInt = Nat.log2 n.toInt.toNat ∧ Nat.log2 n.toInt.toNat < 31 := by
  have hlt := n.toInt_lt
  have hlog : Nat.log2 n.toInt.toNat < 31 := (Nat.log2_lt (by omega)).mpr (by omega)
  have hzero : n ≠ 0 := by
    rintro rfl
    exact absurd hn (by decide)
  refine ⟨?_, hlog⟩
  rw [intLog2, if_neg (by omega), if_neg hzero]
  exact Int32.toInt_ofNat_of_lt (by omega)

/-- The truncated binary logarithm of a power of two is its exponent. -/
theorem intLog2_of_two_pow (n : Int32) (k : ℕ) (hn : n.toInt = 2 ^ k) : (intLog2 n).toInt = k := by
  have hpos : (0 : ℤ) < 2 ^ k := by positivity
  have hnat : ((2 : ℤ) ^ k).toNat = 2 ^ k := by
    rw [← Nat.cast_ofNat, ← Nat.cast_pow, Int.toNat_natCast]
  rw [(toInt_intLog2 n (by omega)).1, hn, hnat, Nat.log2_two_pow]

/-- Different numbers have different hexadecimal texts. -/
theorem hexText_injective : Function.Injective hexText := by
  intro m n h
  exact toDigits_injective 16 (by decide) (by decide) (String.ofList_inj.mp h)

/-- A `long` that is not negative is printed as the text of its value. -/
theorem toHexString_ofNat (n : ℕ) (h : n < 2 ^ 63) : toHexString (Int64.ofNat n) = hexText n := by
  rw [toHexString, unsignedLong_ofNat n h]

/-- An `int` that is not negative is printed as the text of its value. -/
theorem formatHex_ofNat (n : ℕ) (h : n < 2 ^ 31) : formatHex (Int32.ofNat n) = hexText n := by
  have hn : n < 2 ^ 32 := by omega
  have hvalue : (UInt32.ofNat n).toNat = n := by
    rw [UInt32.toNat_ofNat', Nat.mod_eq_of_lt hn]
  exact congrArg hexText hvalue

end Coursework.Java
