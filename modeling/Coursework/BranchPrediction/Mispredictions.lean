import Coursework.BranchPrediction.Predictions
import Coursework.Prediction.Runs
import Mathlib.Algebra.BigOperators.Group.Finset.Piecewise

/-!
# Mispredictions by the runs of the outcomes

The branches of a counter are those whose addresses agree in the low digits. In any run
that ends, whatever the sizes of the buffers, a counter mispredicts at most twice for each
maximal run of equal outcomes, and once less in all; so does the whole report, summed over
the counters that occur.
-/

namespace Coursework.BranchPrediction.Sys2

open Coursework.Java
open Coursework.Prediction

/-- The residue of the address of a branch, and whether it is taken. -/
def outcomeOf (size : ℕ) (line : String) : Option (ℕ × Bool) :=
  match parseRecord line with
  | .ok record =>
    if record.tnNotBranch = "-" then none
    else some ((record.instructionAddress.toInt % size).toNat, record.tnNotBranch = "T")
  | .error _ => none

/-- The outcomes of the branches with a residue, in order. -/
def outcomes (size : ℕ) (lines : List String) (i : ℕ) : List Bool :=
  ((lines.filterMap (outcomeOf size)).filter fun outcome => outcome.1 = i).map Prod.snd

/-- The residues that occur. -/
def residues (size : ℕ) (lines : List String) : Finset ℕ :=
  ((lines.filterMap (outcomeOf size)).map Prod.fst).toFinset

/-- The branches with a residue at which the loop body counts a misprediction. -/
def mispredictionsOf (size : ℕ) (geometry : Geometry) (i : ℕ) :
    State geometry.pbSize geometry.btbSize → List String → ℕ
  | _, [] => 0
  | s, line :: rest =>
    match step geometry.pbOffsetLength geometry.btbOffsetLength s line with
    | .ok s' =>
      (if (outcomeOf size line).any (fun outcome => outcome.1 = i) ∧
          s'.counters.mispredictions ≠ s.counters.mispredictions then 1 else 0) +
        mispredictionsOf size geometry i s' rest
    | .error _ => 0

/-- With the branches of a trace split by their residues, each part accounts for at most twice its
runs, less one, and the report for at most the sum. -/
structure BoundedByRuns (size : ℕ) (lines : List String) (run : Run) : Prop where
  part : ∀ i, outcomes size lines i ≠ [] →
    mispredictionsOf size run.geometry i
        (State.initial run.geometry.pbSize run.geometry.btbSize) lines ≤
      2 * runs (outcomes size lines i) - 1
  report : run.report.mispredictions.toInt ≤
    ((∑ i ∈ residues size lines, (2 * runs (outcomes size lines i) - 1) : ℕ) : ℤ)

/-- The counters that an offset tells apart. -/
def indexed (pbSize : ℕ) : ℕ := 2 ^ Nat.log2 pbSize

/-- A line whose operation is `T`, `N` or `-`, as far as it can be read. -/
def Operates (line : String) : Prop :=
  ∀ record, parseRecord line = .ok record →
    record.tnNotBranch = "T" ∨ record.tnNotBranch = "N" ∨ record.tnNotBranch = "-"

instance (line : String) : Decidable (Operates line) :=
  match hrecord : parseRecord line with
  | .ok record => decidable_of_iff
      (record.tnNotBranch = "T" ∨ record.tnNotBranch = "N" ∨ record.tnNotBranch = "-")
      (by simp [Operates, hrecord])
  | .error _ => isTrue (by simp [Operates, hrecord])

/-- The low digits of an address are its residue. -/
theorem toInt_emod_two_pow (x : Int64) (e : ℕ) (he : e ≤ 64) :
    (x.toInt % (2 ^ e : ℕ)).toNat = unsignedLong x % 2 ^ e := by
  have hcond := BitVec.toInt_eq_toNat_cond x.toBitVec
  change x.toInt = if 2 * unsignedLong x < 2 ^ 64 then (unsignedLong x : ℤ)
    else (unsignedLong x : ℤ) - (2 ^ 64 : ℕ) at hcond
  obtain ⟨k, hk⟩ : ((2 ^ e : ℕ) : ℤ) ∣ ((2 ^ 64 : ℕ) : ℤ) :=
    Int.natCast_dvd_natCast.mpr (Nat.pow_dvd_pow 2 he)
  have hmod : x.toInt % (2 ^ e : ℕ) = (unsignedLong x : ℤ) % (2 ^ e : ℕ) := by
    rw [hcond]
    split
    · rfl
    · rw [hk, Int.sub_mul_emod_self_left]
  rw [hmod]
  exact_mod_cast Int.toNat_natCast _

/-- An index in bounds. -/
theorem arrayIndex_eq_ok {length : ℕ} {i : Int32} {index : Fin length}
    (h : arrayIndex length i = .ok index) : index.val = i.toInt.toNat := by
  rw [arrayIndex] at h
  split at h
  · obtain rfl := Except.ok.inj h
    rfl
  · cases h

/-- A look-up leaves the mispredictions alone. -/
theorem countLookUp_eq_ok {btbSize : ℕ} {btbBuffer : Fin btbSize → Option Target}
    {btbIndex : Int32} {tag : String} {taken : Bool} {counters looked : Counters}
    (h : countLookUp btbBuffer btbIndex tag taken counters = .ok looked) :
    looked.mispredictions = counters.mispredictions := by
  unfold countLookUp at h
  split at h
  · obtain ⟨found, -, h⟩ := bind_eq_ok h
    split at h <;> obtain rfl := Except.ok.inj h <;> rfl
  · obtain rfl := Except.ok.inj h
    rfl

/-- What a branch does to the counters of a simulation, from the counter of its residue. -/
structure Counts {pbSize btbSize : ℕ} (s s' : State pbSize btbSize) (i : Fin pbSize)
    (taken : Bool) : Prop where
  pbBuffer : ∀ j, s'.pbBuffer j =
    if j = i then pbNextState (outcomeText taken) (s.pbBuffer i) else s.pbBuffer j
  mispredictions : ∀ c ≤ 3, s.pbBuffer i = Int32.ofNat c → s'.counters.mispredictions =
    s.counters.mispredictions + if mispredicted c taken then 1 else 0

/-- A branch that is processed counts its outcome. -/
theorem branch_counts {pbSize btbSize : ℕ} {s s' : State pbSize btbSize} {record : Record}
    {decoded : DecodedBranch} {pbEntry : Fin pbSize} {taken : Bool}
    (hop : record.tnNotBranch = outcomeText taken)
    (h : branch s record decoded pbEntry = .ok s') : Counts s s' pbEntry taken := by
  rw [branch] at h
  obtain ⟨looked, hlooked, h⟩ := bind_eq_ok h
  obtain ⟨targets, -, h⟩ := bind_eq_ok h
  obtain rfl := Except.ok.inj h
  have hsame := countLookUp_eq_ok hlooked
  constructor
  · intro j
    have hbranch : outcomeText taken = "T" ∨ outcomeText taken = "N" := by
      cases taken <;> simp [outcomeText]
    simp only [State.afterBranch, hop, hbranch, and_true]
  · intro c hc hval
    obtain ⟨-, hmispredictions, -⟩ := afterBranch_counters s record decoded pbEntry looked targets
      taken c hc hop hval
    rw [hmispredictions, hsame]
    rfl

section Run

variable {pbBufferSize btbBufferSize : Int32} {geometry : Geometry}

/-- The set-up fixes the length of the offset by the size of the prediction buffer. -/
theorem setUp_eq_ok (h : setUp pbBufferSize btbBufferSize = .ok geometry) :
    (geometry.pbSize : ℤ) = pbBufferSize.toInt ∧
      geometry.pbOffsetLength = intLog2 pbBufferSize := by
  rw [setUp] at h
  obtain ⟨pbSize, hpbSize, h⟩ := bind_eq_ok h
  obtain ⟨btbSize, -, h⟩ := bind_eq_ok h
  obtain rfl := Except.ok.inj h
  rw [newArrayLength] at hpbSize
  split at hpbSize
  · rename_i hnonneg
    obtain rfl := Except.ok.inj hpbSize
    exact ⟨Int.toNat_of_nonneg hnonneg, rfl⟩
  · cases hpbSize

/-- The entry of a branch that is processed is the residue of its address. -/
theorem pbEntry_eq (h : setUp pbBufferSize btbBufferSize = .ok geometry) (x : Int64)
    {text : String} {pbIndex : Int32} {pbEntry : Fin geometry.pbSize}
    (htext : substring (toBinaryString x) (stringLength (toBinaryString x) - geometry.pbOffsetLength)
      (stringLength (toBinaryString x)) = .ok text) (hindex : parseInt text 2 = .ok pbIndex)
    (hentry : arrayIndex geometry.pbSize pbIndex = .ok pbEntry) :
    pbEntry.val = (x.toInt % (indexed geometry.pbSize : ℕ)).toNat := by
  obtain ⟨hsize, hoffset⟩ := setUp_eq_ok h
  have hpos := pbEntry.pos
  obtain ⟨hlog, hlog31⟩ := toInt_intLog2 pbBufferSize (by omega)
  have hsizeNat : pbBufferSize.toInt.toNat = geometry.pbSize := by omega
  rw [hsizeNat] at hlog hlog31
  rw [← hoffset] at hlog
  rw [indexed, toInt_emod_two_pow x _ (by omega)]
  rcases Nat.lt_or_ge (toBinaryString x).length (Nat.log2 geometry.pbSize) with hshort | hlong
  · rw [substring_offset_error x _ _ hlog31 hlog hshort] at htext
    cases htext
  · obtain ⟨digits, hdigits, -, hvalue⟩ := substring_offset_digits x _ _ hlog31 hlog hlong
    obtain rfl := Except.ok.inj (hdigits.symm.trans htext)
    rw [parseInt_ofList 2 digits _ hvalue] at hindex
    split at hindex
    · rename_i hfits
      obtain rfl := Except.ok.inj hindex
      rw [arrayIndex_eq_ok hentry, Int32.toInt_ofNat_of_lt hfits.2, Int.toNat_natCast]
    · cases hindex

/-- A line that is processed is skipped, or counts its outcome at its residue. -/
theorem step_counts (h : setUp pbBufferSize btbBufferSize = .ok geometry)
    {s s' : State geometry.pbSize geometry.btbSize} {line : String} (hline : Operates line)
    (hstep : step geometry.pbOffsetLength geometry.btbOffsetLength s line = .ok s') :
    (outcomeOf (indexed geometry.pbSize) line = none ∧ s' = s) ∨
      ∃ (pbEntry : Fin geometry.pbSize) (taken : Bool),
        outcomeOf (indexed geometry.pbSize) line = some (pbEntry.val, taken) ∧
          Counts s s' pbEntry taken := by
  rw [step] at hstep
  obtain ⟨record, hrecord, hstep⟩ := bind_eq_ok hstep
  obtain ⟨pbOffset, hpbOffset, hstep⟩ := bind_eq_ok hstep
  obtain ⟨btbOffset, -, hstep⟩ := bind_eq_ok hstep
  by_cases hskip : record.tnNotBranch = "-"
  · rw [if_pos hskip] at hstep
    exact Or.inl ⟨by simp [outcomeOf, hrecord, hskip], (Except.ok.inj hstep).symm⟩
  · rw [if_neg hskip] at hstep
    obtain ⟨pbIndex, hpbIndex, hstep⟩ := bind_eq_ok hstep
    obtain ⟨pbEntry, hpbEntry, hstep⟩ := bind_eq_ok hstep
    obtain ⟨btbIndex, -, hstep⟩ := bind_eq_ok hstep
    obtain ⟨tagBinary, -, hstep⟩ := bind_eq_ok hstep
    obtain ⟨tag, -, hstep⟩ := bind_eq_ok hstep
    have hop : record.tnNotBranch = outcomeText (record.tnNotBranch = "T") := by
      rcases hline record hrecord with hop | hop | hop
      · rw [hop]
        rfl
      · rw [hop]
        rfl
      · exact absurd hop hskip
    refine Or.inr ⟨pbEntry, record.tnNotBranch = "T", ?_, branch_counts hop hstep⟩
    rw [pbEntry_eq h record.instructionAddress hpbOffset hpbIndex hpbEntry]
    simp only [outcomeOf, hrecord, if_neg hskip]

/-- A line without a branch adds no outcome. -/
theorem outcomes_cons_none {size : ℕ} {line : String} (h : outcomeOf size line = none)
    (rest : List String) (i : ℕ) : outcomes size (line :: rest) i = outcomes size rest i := by
  simp [outcomes, h]

/-- A branch adds its outcome to those of its residue. -/
theorem outcomes_cons_some {size entry : ℕ} {taken : Bool} {line : String}
    (h : outcomeOf size line = some (entry, taken)) (rest : List String) (i : ℕ) :
    outcomes size (line :: rest) i =
      if i = entry then taken :: outcomes size rest i else outcomes size rest i := by
  by_cases hi : i = entry
  · subst hi
    simp [outcomes, h]
  · have hne : entry ≠ i := fun heq => hi heq.symm
    simp [outcomes, h, hi, hne]

/-- The counters of a state have given values. -/
def Shows (s : State geometry.pbSize geometry.btbSize) (c : ℕ → ℕ) : Prop :=
  ∀ j : Fin geometry.pbSize, c j ≤ 3 ∧ s.pbBuffer j = Int32.ofNat (c j)

/-- A branch moves the counter of its residue. -/
theorem Counts.shows {s s' : State geometry.pbSize geometry.btbSize} {pbEntry : Fin geometry.pbSize}
    {taken : Bool} (h : Counts s s' pbEntry taken) {c : ℕ → ℕ} (hc : Shows s c) :
    Shows s' (Function.update c pbEntry (saturate (c pbEntry) taken)) := by
  intro j
  obtain ⟨hle, hval⟩ := hc pbEntry
  rw [h.pbBuffer j]
  by_cases hj : j = pbEntry
  · subst hj
    rw [if_pos rfl, Function.update_self, hval, pbNextState_ofNat _ hle]
    exact ⟨saturate_le hle taken, rfl⟩
  · rw [if_neg hj, Function.update_of_ne (fun heq => hj (Fin.ext heq))]
    exact hc j

/-- What an outcome adds to the mispredictions of a residue. -/
theorem mispredictions_cons {size entry : ℕ} {taken : Bool} {line : String}
    (h : outcomeOf size line = some (entry, taken)) (rest : List String) (c : ℕ → ℕ) (i : ℕ) :
    mispredictions (c i) (outcomes size (line :: rest) i) =
      (if i = entry then if mispredicted (c entry) taken then 1 else 0 else 0) +
        mispredictions (Function.update c entry (saturate (c entry) taken) i)
          (outcomes size rest i) := by
  rw [outcomes_cons_some h]
  by_cases hi : i = entry
  · subst hi
    rw [if_pos rfl, if_pos rfl, Function.update_self, mispredictions]
  · rw [if_neg hi, if_neg hi, Function.update_of_ne hi, Nat.zero_add]

/-- The loop body counts as mispredictions of a residue what its counter mispredicts, and adds up
those of all residues. -/
theorem readLines_counts (h : setUp pbBufferSize btbBufferSize = .ok geometry)
    (lines : List String) (hops : ∀ line ∈ lines, Operates line)
    (s s' : State geometry.pbSize geometry.btbSize) (number : ℕ) (c : ℕ → ℕ) (hc : Shows s c)
    (hrun : readLines (step geometry.pbOffsetLength geometry.btbOffsetLength) s number lines =
      .ok s') :
    (∀ i, mispredictionsOf (indexed geometry.pbSize) geometry i s lines =
        mispredictions (c i) (outcomes (indexed geometry.pbSize) lines i)) ∧
      s'.counters.mispredictions = s.counters.mispredictions +
        Int32.ofNat (∑ i ∈ Finset.range geometry.pbSize,
          mispredictions (c i) (outcomes (indexed geometry.pbSize) lines i)) := by
  induction lines generalizing s number c with
  | nil =>
    obtain rfl := Except.ok.inj hrun
    refine ⟨fun i => rfl, ?_⟩
    simp [outcomes, mispredictions]
  | cons line rest ih =>
    have hrest (other : String) (hother : other ∈ rest) : Operates other :=
      hops other (List.mem_cons_of_mem line hother)
    simp only [readLines] at hrun
    cases hstep : step geometry.pbOffsetLength geometry.btbOffsetLength s line with
    | error cause =>
      rw [hstep] at hrun
      cases hrun
    | ok s₁ =>
      rw [hstep] at hrun
      rcases step_counts h (hops line (by simp)) hstep with ⟨hnone, rfl⟩ | ⟨entry, taken, hsome, hcounts⟩
      · obtain ⟨hparts, htotal⟩ := ih hrest s₁ (number + 1) c hc hrun
        refine ⟨fun i => ?_, ?_⟩
        · simp only [mispredictionsOf, hstep, hnone, outcomes_cons_none hnone, hparts i]
          simp
        · simpa only [outcomes_cons_none hnone] using htotal
      · obtain ⟨hparts, htotal⟩ := ih hrest s₁ (number + 1) _ (hcounts.shows hc) hrun
        have hadd := hcounts.mispredictions _ (hc entry).1 (hc entry).2
        refine ⟨fun i => ?_, ?_⟩
        · rw [mispredictions_cons hsome]
          simp only [mispredictionsOf, hstep, hsome, hparts i, hadd, Option.any_some,
            decide_eq_true_eq]
          congr 1
          by_cases hi : i = entry
          · subst hi
            by_cases hm : mispredicted (c entry) taken = true <;> simp [hm]
          · have hne : (entry : ℕ) ≠ i := fun heq => hi heq.symm
            simp [hi, hne]
        · simp only [mispredictions_cons hsome, Finset.sum_add_distrib, Finset.sum_ite_eq',
            Finset.mem_range, entry.isLt, if_true]
          rw [htotal, hadd, Int32.add_assoc, Int32.ofNat_add]
          congr 2
          split <;> rfl

end Run

/-- The residues that occur are those with an outcome. -/
theorem mem_residues_iff (size : ℕ) (lines : List String) (i : ℕ) :
    i ∈ residues size lines ↔ outcomes size lines i ≠ [] := by
  simp only [residues, outcomes, List.mem_toFinset, List.mem_map, ne_eq, List.map_eq_nil_iff,
    List.filter_eq_nil_iff, decide_eq_true_eq, not_forall, not_not, exists_prop]

/-- A number is at least what is left of it as an `int`. -/
theorem toInt_ofNat_le (n : ℕ) : (Int32.ofNat n).toInt ≤ n := by
  have hvalue : (Int32.ofNat n).toInt = (n : ℤ).bmod (2 ^ 32) := Int32.toInt_ofNat'
  rw [Int.bmod_def] at hvalue
  omega

/-- A simulation that ends has read its trace to the end. -/
theorem simulate_eq_ok {stream : InputStream} {pbBufferSize btbBufferSize : Int32} {verbose : Bool}
    {run : Run} (h : simulate stream pbBufferSize btbBufferSize verbose = .ok run) :
    setUp pbBufferSize btbBufferSize = .ok run.geometry ∧
      readLines (step run.geometry.pbOffsetLength run.geometry.btbOffsetLength)
        (State.initial run.geometry.pbSize run.geometry.btbSize) 0 stream.lines =
          .ok run.final := by
  rw [simulate] at h
  split at h
  · cases h
  · rename_i geometry hsetUp
    split at h
    · cases h
    · rename_i final hloop
      obtain rfl := Except.ok.inj h
      exact ⟨hsetUp, (readLoop_eq_ok hloop).1⟩

/-- In every simulation that ends the mispredictions are bounded by the runs of the outcomes, with
the branches split by the digits that index the counters; for a power of two of counters these
digits are the address modulo their number. -/
theorem simulate_boundedByRuns (stream : InputStream) (pbBufferSize btbBufferSize : Int32)
    (verbose : Bool) (run : Run)
    (hrun : simulate stream pbBufferSize btbBufferSize verbose = .ok run)
    (hops : ∀ line ∈ stream.lines, Operates line) :
    BoundedByRuns (indexed run.geometry.pbSize) stream.lines run ∧
      ∀ n : ℕ, pbBufferSize.toInt = 2 ^ n →
        ((indexed run.geometry.pbSize : ℕ) : ℤ) = pbBufferSize.toInt := by
  obtain ⟨hsetUp, hlines⟩ := simulate_eq_ok hrun
  obtain ⟨hparts, htotal⟩ := readLines_counts hsetUp stream.lines hops _ _ 0 (fun _ => 1)
    (fun j => ⟨by simp, rfl⟩) hlines
  refine ⟨⟨?_, ?_⟩, ?_⟩
  · intro i hne
    rw [hparts i]
    exact Nat.le_sub_of_add_le (mispredictions_le_runs _ hne)
  · have hsum : ∑ i ∈ Finset.range run.geometry.pbSize,
        mispredictions 1 (outcomes (indexed run.geometry.pbSize) stream.lines i) ≤
          ∑ i ∈ residues (indexed run.geometry.pbSize) stream.lines,
            (2 * runs (outcomes (indexed run.geometry.pbSize) stream.lines i) - 1) := by
      refine (Finset.sum_le_sum_of_ne_zero ?_).trans (Finset.sum_le_sum ?_)
      · intro i _ hcounted
        rw [mem_residues_iff]
        intro hnone
        exact hcounted (by rw [hnone, mispredictions])
      · intro i hi
        exact Nat.le_sub_of_add_le (mispredictions_le_runs _ ((mem_residues_iff _ _ i).mp hi))
    change run.final.counters.mispredictions.toInt ≤ _
    rw [htotal, State.initial, Counters.zero, Int32.zero_add]
    exact (toInt_ofNat_le _).trans (by exact_mod_cast hsum)
  · intro n hn
    obtain ⟨hsize, -⟩ := setUp_eq_ok hsetUp
    have hnat : run.geometry.pbSize = 2 ^ n := by
      rw [hn] at hsize
      exact_mod_cast hsize
    rw [← hsize, hnat, indexed, Nat.log2_two_pow]

/-- Four counters, and branches that share one of them. -/
theorem simulate_boundedByRuns_shared :
    let lines := ["1 4 0 0 0 0 T 0 0 0 0 10", "2 8 0 0 0 0 T 0 0 0 0 4", "3 8 0 0 0 0 - 0 0 0 0 0",
      "4 4 0 0 0 0 N 0 0 0 0 10", "5 7 0 0 0 0 T 0 0 0 0 8"]
    ∃ run, simulate (.ofLines lines) 4 2 false = .ok run ∧
      BoundedByRuns (indexed run.geometry.pbSize) lines run ∧
      ∀ n : ℕ, Int32.toInt 4 = 2 ^ n →
        ((indexed run.geometry.pbSize : ℕ) : ℤ) = Int32.toInt 4 := by
  intro lines
  have hok : (simulate (.ofLines lines) 4 2 false).toOption.isSome = true := by decide +kernel
  cases hrun : simulate (.ofLines lines) 4 2 false with
  | error abort =>
    rw [hrun] at hok
    cases hok
  | ok run => exact ⟨run, rfl, simulate_boundedByRuns _ 4 2 false run hrun (by decide)⟩

/-- Three counters: the addresses 4 and 6 share a counter, but not their residue modulo 3. Each
residue has one run of outcomes, and all four branches are mispredicted. -/
theorem not_boundedByRuns_three :
    let lines := ["1 4 0 0 0 0 T 0 0 0 0 0", "2 6 0 0 0 0 N 0 0 0 0 0", "3 4 0 0 0 0 T 0 0 0 0 0",
      "4 6 0 0 0 0 N 0 0 0 0 0"]
    (∀ line ∈ lines, Operates line) ∧
      ∃ run, simulate (.ofLines lines) 3 2 false = .ok run ∧ ¬BoundedByRuns 3 lines run := by
  intro lines
  have hcount : (simulate (.ofLines lines) 3 2 false).toOption.map
      (fun run => run.final.counters.mispredictions) = some 4 := by decide +kernel
  have hsum : ∑ i ∈ residues 3 lines, (2 * runs (outcomes 3 lines i) - 1) = 2 := by decide +kernel
  refine ⟨by decide, ?_⟩
  cases hrun : simulate (.ofLines lines) 3 2 false with
  | error abort =>
    rw [hrun] at hcount
    cases hcount
  | ok run =>
    rw [hrun] at hcount
    have hfour : run.report.mispredictions = 4 := Option.some.inj hcount
    refine ⟨run, rfl, ?_⟩
    rintro ⟨-, hreport⟩
    rw [hfour, hsum] at hreport
    exact absurd hreport (by decide)

end Coursework.BranchPrediction.Sys2
