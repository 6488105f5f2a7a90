import Mathlib.Algebra.BigOperators.Ring.Finset
import Mathlib.Data.Fintype.BigOperators
import Mathlib.Algebra.Order.Ring.Int
import Mathlib.Data.List.GetD

/-!
# The buffer and its sections

The programs read a file of at most `BUFFER_SIZE` bytes into a zeroed buffer of signed
characters, and give each of `THREAD_NUM` threads a section of the positions from `0` to
`size`, which is one less than the number of bytes.
-/

namespace Coursework.Histogram

/-- `size`, the offset of the end of the file less one. -/
def size (file : List UInt8) : ℤ := file.length - 1

/-- The test that lets `main` continue. -/
def Fits (file : List UInt8) : Prop := size file + 1 ≤ 65536

instance (file : List UInt8) : Decidable (Fits file) :=
  inferInstanceAs (Decidable (size file + 1 ≤ 65536))

/-- The order in which `main` creates and joins the threads. -/
def threadOrder : List (Fin 8) := List.finRange 8

/-- No thread comes twice. -/
theorem nodup_threadOrder : threadOrder.Nodup := List.nodup_finRange 8

/-- Every thread comes. -/
theorem mem_threadOrder (i : Fin 8) : i ∈ threadOrder := List.mem_finRange i

/-- `section[i].start`. -/
def sectionStart (size : ℤ) (i : Fin 8) : ℤ := size.tdiv 8 * i

/-- `section[i].end`. -/
def sectionEnd (size : ℤ) (i : Fin 8) : ℤ :=
  if (i : ℕ) < 8 - 1 then size.tdiv 8 * (i + 1) - 1 else size

/-- `(int) buffer[i]`, if the index is one of the buffer. -/
def character (file : List UInt8) (i : ℤ) : Option ℤ :=
  if 0 ≤ i ∧ i < 65536 then some (file.getD i.toNat 0).toInt8.toInt else none

/-- The entry of an array of 128 counters, if the index is one of the array. -/
def entry (c : ℤ) : Option (Fin 128) :=
  if h : 0 ≤ c ∧ c < 128 then some ⟨c.toNat, by omega⟩ else none

/-- The counter that the character at a position of the buffer selects. -/
def counterAt (file : List UInt8) (i : ℤ) : Option (Fin 128) := (character file i).bind entry

/-- The number of positions from `first` up to before `next` that select a counter. -/
def counted (file : List UInt8) (first next : ℤ) (c : Fin 128) : ℕ :=
  ((Finset.range file.length).filter fun j : ℕ =>
    (first ≤ j ∧ (j : ℤ) < next) ∧ counterAt file j = some c).card

/-- The number of occurrences of a character. -/
def occurrences (file : List UInt8) (c : Fin 128) : ℕ := (file.map UInt8.toNat).count c.val

/-- The quotient that `main` computes is not negative, also for an empty file. -/
theorem tdiv_size (file : List UInt8) :
    0 ≤ (size file).tdiv 8 ∧ 8 * (size file).tdiv 8 ≤ size file + 1 := by
  have hsize : -1 ≤ size file := by
    rw [size]
    omega
  obtain hempty | hnonneg := hsize.eq_or_lt
  · rw [← hempty]
    decide
  · rw [Int.tdiv_eq_ediv_of_nonneg (show 0 ≤ size file by omega)]
    omega

/-- A section starts at most one position after its end, and lies within the file. -/
theorem section_bounds (file : List UInt8) (i : Fin 8) :
    0 ≤ sectionStart (size file) i ∧
      sectionStart (size file) i ≤ sectionEnd (size file) i + 1 ∧
      sectionEnd (size file) i ≤ size file := by
  obtain ⟨hnonneg, hle⟩ := tdiv_size file
  have hstart : 0 ≤ (size file).tdiv 8 * i := mul_nonneg hnonneg (Int.natCast_nonneg _)
  rw [sectionStart, sectionEnd]
  by_cases hi : (i : ℕ) < 8 - 1
  · have hend : (size file).tdiv 8 * (i + 1) ≤ (size file).tdiv 8 * 7 :=
      mul_le_mul_of_nonneg_left (by omega) hnonneg
    rw [if_pos hi]
    rw [mul_add, mul_one] at hend ⊢
    omega
  · have hlast : (i : ℤ) = 7 := by omega
    rw [if_neg hi, hlast]
    omega

/-- A position of the file belongs to some section. -/
theorem exists_section (file : List UInt8) (j : ℤ) (h0 : 0 ≤ j) (hj : j ≤ size file) :
    ∃ i : Fin 8, sectionStart (size file) i ≤ j ∧ j ≤ sectionEnd (size file) i := by
  obtain ⟨hnonneg, -⟩ := tdiv_size file
  by_cases hlast : (size file).tdiv 8 * 7 ≤ j
  · exact ⟨7, hlast, hj⟩
  · have hpos : 0 < (size file).tdiv 8 := by omega
    have hquotient : j / (size file).tdiv 8 < 7 := by
      apply Int.ediv_lt_of_lt_mul hpos
      rw [mul_comm]
      omega
    have hquotient0 : 0 ≤ j / (size file).tdiv 8 := Int.ediv_nonneg h0 hnonneg
    obtain ⟨n, hn⟩ := Int.eq_ofNat_of_zero_le hquotient0
    have hn7 : n < 8 - 1 := by omega
    refine ⟨⟨n, by omega⟩, ?_, ?_⟩
    · rw [sectionStart, mul_comm]
      change (n : ℤ) * _ ≤ j
      rw [← hn]
      exact Int.ediv_mul_le j hpos.ne'
    · rw [sectionEnd, if_pos hn7]
      have hlt := Int.lt_ediv_add_one_mul_self j hpos
      rw [hn, mul_comm] at hlt
      change j ≤ _ * ((n : ℤ) + 1) - 1
      omega

/-- A section ends before every later one starts. -/
theorem sectionEnd_lt_sectionStart (file : List UInt8) (i i' : Fin 8) (h : i < i') :
    sectionEnd (size file) i < sectionStart (size file) i' := by
  obtain ⟨hnonneg, -⟩ := tdiv_size file
  have hi : (i : ℕ) < 8 - 1 := by omega
  have hnext : (i : ℤ) + 1 ≤ i' := by omega
  have hle := mul_le_mul_of_nonneg_left hnext hnonneg
  rw [sectionEnd, if_pos hi, sectionStart]
  omega

/-- Every position of the file belongs to exactly one section. -/
theorem existsUnique_section (file : List UInt8) (j : ℤ) (h0 : 0 ≤ j) (hj : j ≤ size file) :
    ∃! i : Fin 8, sectionStart (size file) i ≤ j ∧ j ≤ sectionEnd (size file) i := by
  obtain ⟨i, hstart, hend⟩ := exists_section file j h0 hj
  refine ⟨i, ⟨hstart, hend⟩, ?_⟩
  rintro i' ⟨hstart', hend'⟩
  obtain hlt | heq | hgt := lt_trichotomy i' i
  · have hdisjoint := sectionEnd_lt_sectionStart file i' i hlt
    omega
  · exact heq
  · have hdisjoint := sectionEnd_lt_sectionStart file i i' hgt
    omega

/-- A byte below 128 is its own signed character. -/
theorem toInt_toInt8 (b : UInt8) (hb : b.toNat < 128) : b.toInt8.toInt = b.toNat := by
  have hbits : b.toInt8.toInt = (b.toBitVec).toInt := rfl
  rw [hbits, BitVec.toInt_eq_toNat_of_lt]
  · rfl
  · change 2 * b.toNat < 2 ^ 8
    omega

/-- Within a file whose bytes are below 128 every position selects the counter of its byte. -/
theorem counterAt_eq_some_iff (file : List UInt8) (hfits : Fits file)
    (hascii : ∀ b ∈ file, b.toNat < 128) (j : ℕ) (hj : j < file.length) (c : Fin 128) :
    counterAt file j = some c ↔ (file[j]).toNat = c := by
  have hb : (file[j]).toNat < 128 := hascii _ (List.getElem_mem hj)
  have hbound : (0 : ℤ) ≤ j ∧ (j : ℤ) < 65536 := by
    rw [Fits, size] at hfits
    omega
  have hcharacter : character file j = some ((file[j]).toNat : ℤ) := by
    rw [character, if_pos hbound, Int.toNat_natCast, List.getD_eq_getElem file 0 hj,
      toInt_toInt8 _ hb]
  rw [counterAt, hcharacter, Option.bind_some, entry, dif_pos (by omega)]
  simp only [Int.toNat_natCast, Option.some.injEq, Fin.ext_iff]

/-- Within such a file every position selects a counter. -/
theorem exists_counterAt (file : List UInt8) (hfits : Fits file)
    (hascii : ∀ b ∈ file, b.toNat < 128) (j : ℤ) (h0 : 0 ≤ j) (hj : j ≤ size file) :
    ∃ c, counterAt file j = some c := by
  obtain ⟨n, rfl⟩ := Int.eq_ofNat_of_zero_le h0
  have hn : n < file.length := by
    rw [size] at hj
    omega
  exact ⟨⟨(file[n]).toNat, hascii _ (List.getElem_mem hn)⟩,
    (counterAt_eq_some_iff file hfits hascii n hn _).mpr rfl⟩

/-- Nothing is counted before the first position. -/
theorem counted_self (file : List UInt8) (first : ℤ) (c : Fin 128) :
    counted file first first c = 0 := by
  rw [counted, Finset.card_eq_zero, Finset.filter_eq_empty_iff]
  rintro j - ⟨⟨hle, hlt⟩, -⟩
  omega

/-- One more position is counted at the counter it selects. -/
theorem counted_succ (file : List UInt8) (first next : ℤ) (hfirst : 0 ≤ first)
    (hle : first ≤ next) (hnext : next ≤ size file) (selected c : Fin 128)
    (hselected : counterAt file next = some selected) :
    counted file first (next + 1) c =
      counted file first next c + if c = selected then 1 else 0 := by
  obtain ⟨n, rfl⟩ := Int.eq_ofNat_of_zero_le (hfirst.trans hle)
  have hn : n ∈ Finset.range file.length := by
    rw [size] at hnext
    exact Finset.mem_range.mpr (by omega)
  have hsingle : (if c = selected then 1 else 0) =
      ∑ j ∈ Finset.range file.length, if j = n then (if c = selected then 1 else 0) else 0 := by
    rw [Finset.sum_ite_eq' (Finset.range file.length) n, if_pos hn]
  rw [counted, counted, Finset.card_filter, Finset.card_filter, hsingle, ← Finset.sum_add_distrib]
  apply Finset.sum_congr rfl
  intro j _
  by_cases hj : j = n
  · subst hj
    have hbefore : ¬ ((first ≤ j ∧ (j : ℤ) < j) ∧ counterAt file j = some c) := by omega
    have hat : (first ≤ j ∧ (j : ℤ) < j + 1) ∧ counterAt file j = some c ↔ c = selected := by
      rw [hselected, Option.some.injEq, eq_comm (a := selected)]
      exact and_iff_right ⟨hle, by omega⟩
    simp only [if_neg hbefore, hat, if_true, zero_add]
  · have hsame : (first ≤ j ∧ (j : ℤ) < n + 1) ↔ (first ≤ j ∧ (j : ℤ) < n) := by omega
    simp only [if_neg hj, hsame, add_zero]

/-- The occurrences of a number in a list, position by position. -/
theorem sum_range_getD (numbers : List ℕ) (c : ℕ) :
    (∑ j ∈ Finset.range numbers.length, if numbers.getD j 0 = c then 1 else 0) =
      numbers.count c := by
  induction numbers with
  | nil => rfl
  | cons x rest ih =>
    rw [List.length_cons, Finset.sum_range_succ', List.count_cons, ← ih]
    simp only [List.getD_cons_succ, List.getD_cons_zero, beq_iff_eq]

/-- The sections together count every occurrence once. -/
theorem sum_counted (file : List UInt8) (hfits : Fits file)
    (hascii : ∀ b ∈ file, b.toNat < 128) (c : Fin 128) :
    ∑ i, counted file (sectionStart (size file) i) (sectionEnd (size file) i + 1) c =
      occurrences file c := by
  have hposition : ∀ j ∈ Finset.range file.length,
      (∑ i, if (sectionStart (size file) i ≤ j ∧ (j : ℤ) < sectionEnd (size file) i + 1) ∧
          counterAt file j = some c then 1 else 0) =
        if (file.map UInt8.toNat).getD j 0 = c then 1 else 0 := by
    intro j hj
    have hlt := Finset.mem_range.mp hj
    have hselects : counterAt file j = some c ↔ (file.map UInt8.toNat).getD j 0 = c := by
      rw [counterAt_eq_some_iff file hfits hascii j hlt, List.getD_eq_getElem _ 0 (by simpa),
        List.getElem_map]
    obtain ⟨i, ⟨hstart, hend⟩, hunique⟩ := existsUnique_section file j (Int.natCast_nonneg j) (by
      rw [size]
      omega)
    rw [Finset.sum_eq_single i]
    · have hin : sectionStart (size file) i ≤ j ∧ (j : ℤ) < sectionEnd (size file) i + 1 :=
        ⟨hstart, by omega⟩
      simp only [hin, true_and, hselects]
    · intro i' _ hne
      apply if_neg
      rintro ⟨⟨hstart', hend'⟩, -⟩
      exact hne (hunique i' ⟨hstart', by omega⟩)
    · intro hnot
      exact absurd (Finset.mem_univ i) hnot
  simp only [counted, Finset.card_filter]
  rw [Finset.sum_comm, Finset.sum_congr rfl hposition, occurrences, ← sum_range_getD,
    List.length_map]

end Coursework.Histogram
