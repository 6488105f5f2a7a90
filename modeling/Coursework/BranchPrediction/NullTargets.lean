import Coursework.BranchPrediction.Decode
import Coursework.Java.ReadLoop
import Coursework.Java.Tokens

/-!
# When a null branch target is dereferenced

With at most as many targets as counters, the index of a counter determines that of a
target, and a counter only comes to predict taken branches after a taken branch, which
filled the target. With more targets than counters two branches can share a counter and
not a target, and a trace of two lines dereferences null.
-/

namespace Coursework.BranchPrediction.Sys2

open Coursework.Java

/-- The values of a two-bit counter. -/
def IsCounter (val : Int32) : Prop := val = 0 ∨ val = 1 ∨ val = 2 ∨ val = 3

/-- Every counter is in range, and one that predicts taken branches has a target. -/
structure TargetsFilled {n m : ℕ} (s : State (2 ^ n) (2 ^ m)) : Prop where
  range : ∀ i, IsCounter (s.pbBuffer i)
  filled : ∀ i j, j.val = i.val % 2 ^ m → takenPrediction (s.pbBuffer i) = true →
    s.btbBuffer j ≠ none

/-- Before the first line no counter predicts taken branches. -/
theorem targetsFilled_initial (n m : ℕ) : TargetsFilled (State.initial (2 ^ n) (2 ^ m)) where
  range _ := Or.inr (Or.inl rfl)
  filled i j _ htaken := by
    have hfalse : takenPrediction 1 = false := by decide
    exact absurd (htaken.symm.trans hfalse) (by decide)

/-- A counter stays in range. -/
theorem isCounter_pbNextState (tnNotBranch : String) (val : Int32) (h : IsCounter val) :
    IsCounter (pbNextState tnNotBranch val) := by
  unfold pbNextState
  rcases h with rfl | rfl | rfl | rfl <;> split_ifs <;> simp [IsCounter] <;> decide

/-- A counter that still predicts taken branches after counting down did so before. -/
theorem takenPrediction_of_countDown (val : Int32) (h : IsCounter val)
    (hnext : takenPrediction (predictorState (val - 1)) = true) : takenPrediction val = true := by
  rcases h with rfl | rfl | rfl | rfl
  · exact absurd hnext (by decide)
  · exact absurd hnext (by decide)
  · rfl
  · rfl

/-- A branch whose indices agree keeps the targets filled. -/
theorem targetsFilled_afterBranch {n m : ℕ} (s : State (2 ^ n) (2 ^ m)) (h : TargetsFilled s)
    (record : Record) (decoded : DecodedBranch) (pbEntry : Fin (2 ^ n)) (btbEntry : Fin (2 ^ m))
    (hentry : btbEntry.val = pbEntry.val % 2 ^ m) (looked : Counters) (tag : String) :
    TargetsFilled (s.afterBranch record decoded pbEntry looked
      (updatedTargets s.btbBuffer record.tnNotBranch btbEntry tag)) where
  range i := by
    simp only [State.afterBranch]
    split_ifs
    · exact isCounter_pbNextState _ _ (h.range pbEntry)
    · exact h.range i
  filled i j hij htaken := by
    simp only [State.afterBranch] at htaken ⊢
    unfold updatedTargets
    by_cases htakenBranch : record.tnNotBranch = "T"
    · rw [if_pos htakenBranch, setTarget]
      by_cases hj : j = btbEntry
      · simp [hj]
      · have hi : i ≠ pbEntry := by
          rintro rfl
          exact hj (Fin.ext (hij.trans hentry.symm))
        rw [if_neg hj]
        rw [if_neg fun hboth => hi hboth.1] at htaken
        exact h.filled i j hij htaken
    · rw [if_neg htakenBranch]
      by_cases hi : i = pbEntry ∧ (record.tnNotBranch = "T" ∨ record.tnNotBranch = "N")
      · obtain ⟨rfl, hop⟩ := hi
        have hnot : record.tnNotBranch = "N" := by simpa [htakenBranch] using hop
        rw [if_pos ⟨rfl, hop⟩, pbNextState, if_neg htakenBranch, if_pos hnot] at htaken
        exact h.filled i j hij (takenPrediction_of_countDown _ (h.range i) htaken)
      · rw [if_neg hi] at htaken
        exact h.filled i j hij htaken

/-- A branch whose indices agree does not dereference null. -/
theorem branch_avoids_null {n m : ℕ} (s : State (2 ^ n) (2 ^ m)) (h : TargetsFilled s)
    (record : Record) (decoded : DecodedBranch) (pbEntry : Fin (2 ^ n)) (btbEntry : Fin (2 ^ m))
    (hentry : btbEntry.val = pbEntry.val % 2 ^ m)
    (hindex : arrayIndex (2 ^ m) decoded.btbIndex = .ok btbEntry) :
    Avoids .nullPointer (branch s record decoded pbEntry) TargetsFilled := by
  have hafter (looked : Counters) := targetsFilled_afterBranch s h record decoded pbEntry btbEntry
    hentry looked decoded.btbCurBranchTag
  rw [branch_eq s record decoded pbEntry btbEntry hindex]
  by_cases htaken : takenPrediction (s.pbBuffer pbEntry) = true
  · rw [if_pos htaken]
    cases htarget : s.btbBuffer btbEntry with
    | none => exact absurd htarget (h.filled pbEntry btbEntry hentry htaken)
    | some target => exact hafter _
  · rw [if_neg htaken]
    exact hafter _

/-- A parsed number or a text error, but no null pointer. -/
theorem parseLong_avoids_null (text : String) (radix : ℕ) :
    Avoids .nullPointer (parseLong text radix) (fun _ => True) := by
  unfold parseLong
  split
  · split_ifs <;> simp [Avoids]
  · simp [Avoids]

/-- A parsed number or a text error, but no null pointer. -/
theorem parseInt_avoids_null (text : String) (radix : ℕ) :
    Avoids .nullPointer (parseInt text radix) (fun _ => True) := by
  unfold parseInt
  split
  · split_ifs <;> simp [Avoids]
  · simp [Avoids]

/-- An element or an index error, but no null pointer. -/
theorem arrayGet_avoids_null {α : Type} (array : List α) (i : ℕ) :
    Avoids .nullPointer (arrayGet array i) (fun _ => True) := by
  unfold arrayGet
  split <;> simp [Avoids]

/-- A piece of text or an index error, but no null pointer. -/
theorem substring_avoids_null (s : String) (beginIndex endIndex : Int32) :
    Avoids .nullPointer (substring s beginIndex endIndex) (fun _ => True) := by
  unfold substring
  split_ifs <;> simp [Avoids]

/-- Reading a line does not dereference null. -/
theorem parseRecord_avoids_null (line : String) :
    Avoids .nullPointer (parseRecord line) (fun _ => True) := by
  unfold parseRecord
  refine (arrayGet_avoids_null _ 1).bind fun pc _ => ?_
  refine (parseLong_avoids_null pc 16).bind fun _ _ => ?_
  refine (arrayGet_avoids_null _ 6).bind fun _ _ => ?_
  refine (arrayGet_avoids_null _ 11).bind fun target _ => ?_
  exact (parseLong_avoids_null target 16).bind fun _ _ => trivial

/-- With at most as many targets as counters no line dereferences null. -/
theorem step_avoids_null (n m : ℕ) (hn31 : n < 31) (hm : 1 ≤ m) (hmn : m ≤ n)
    (pbOffsetLength btbOffsetLength : Int32) (hpb : pbOffsetLength.toInt = n)
    (hbtb : btbOffsetLength.toInt = m) (s : State (2 ^ n) (2 ^ m)) (line : String)
    (h : TargetsFilled s) :
    Avoids .nullPointer (step pbOffsetLength btbOffsetLength s line) TargetsFilled := by
  unfold step
  refine (parseRecord_avoids_null line).bind fun record _ => ?_
  rcases substring_offset record.instructionAddress pbOffsetLength n (by omega) hn31 hpb with
    ⟨pbText, hpbText, hpbIndex⟩ | hshort
  · rcases substring_offset record.instructionAddress btbOffsetLength m hm (by omega) hbtb with
      ⟨btbText, hbtbText, hbtbIndex⟩ | hshort
    · simp only [hpbText, hbtbText, ok_bind]
      by_cases hskip : record.tnNotBranch = "-"
      · rw [if_pos hskip]
        exact h
      · have hpbFits : 2 ^ n < 2 ^ 31 := Nat.pow_lt_pow_right (by decide) hn31
        have hbtbFits : 2 ^ m < 2 ^ 31 := Nat.pow_lt_pow_right (by decide) (by omega)
        simp only [if_neg hskip, hpbIndex, hbtbIndex, ok_bind,
          arrayIndex_ofNat_mod (2 ^ n) _ (by positivity) hpbFits]
        refine (substring_avoids_null _ _ _).bind fun tagBinary _ => ?_
        refine (parseInt_avoids_null tagBinary 2).bind fun tag _ => ?_
        apply branch_avoids_null s h record _ _
          ⟨unsignedLong record.instructionAddress % 2 ^ m, Nat.mod_lt _ (by positivity)⟩
        · exact (Nat.mod_mod_of_dvd _ (Nat.pow_dvd_pow 2 hmn)).symm
        · exact arrayIndex_ofNat_mod (2 ^ m) _ (by positivity) hbtbFits
    · simp [hpbText, hshort, Avoids]
  · simp [hshort, Avoids]

/-- The line of a branch with an address and an outcome, and a target at zero. -/
def branchLine (pc : ℕ) (outcome : Char) : String :=
  String.ofList (joinTokens [['1'], Nat.toDigits 16 pc, ['0'], ['0'], ['0'], ['0'], [outcome],
    ['0'], ['0'], ['0'], ['0'], ['0']])

/-- The line of a branch is read back. -/
theorem parseRecord_branchLine (pc : ℕ) (hpc : pc < 2 ^ 63) (outcome : Char)
    (houtcome : isSpace outcome = false) :
    parseRecord (branchLine pc outcome) =
      .ok ⟨Int64.ofNat pc, String.ofList [outcome], Int64.ofNat 0⟩ := by
  have hsingle (ch : Char) (h : isSpace ch = false) : IsToken [ch] := ⟨by simp, by simpa using h⟩
  have htokens : ∀ token ∈ [['1'], Nat.toDigits 16 pc, ['0'], ['0'], ['0'], ['0'], [outcome],
      ['0'], ['0'], ['0'], ['0'], ['0']], IsToken token := by
    have hone := hsingle '1' (by decide)
    have hzero := hsingle '0' (by decide)
    simp [hone, hzero, isToken_toDigits pc, hsingle outcome houtcome]
  have hzero : parseLong (String.ofList ['0']) 16 = .ok (Int64.ofNat 0) :=
    parseLong_toDigits 0 (by decide)
  simp [parseRecord, branchLine, split_joinTokens _ _ _ htokens, arrayGet,
    parseLong_toDigits pc hpc, hzero]

/-- The record of a taken branch. -/
def takenRecord (pc : ℕ) : Record := ⟨Int64.ofNat pc, "T", Int64.ofNat 0⟩

/-- The address of a small instruction address as a `long`. -/
theorem toInt_ofNat_of_le (pc : ℕ) (hpc : pc < 2 ^ 62) : (Int64.ofNat pc).toInt = pc :=
  Int64.toInt_ofNat_of_lt (by omega)

/-- The line of a taken branch is decodable. -/
theorem decodableLine_taken (n m pc : ℕ) (hpc : pc < 2 ^ 62) (hpb : 2 ^ n ≤ pc) (hbtb : 2 ^ m ≤ pc)
    (htag : pc / 2 ^ m < 2 ^ 31) : DecodableLine (2 ^ n) (2 ^ m) (branchLine pc 'T') := by
  refine ⟨takenRecord pc, parseRecord_branchLine pc (by omega) 'T' (by decide), Or.inl rfl, ?_⟩
  simp only [takenRecord, toInt_ofNat_of_le pc hpc]
  exact ⟨by exact_mod_cast hpb, by exact_mod_cast hbtb, by exact_mod_cast htag⟩

/-- The line of a taken branch is processed as its branch. -/
theorem step_taken (n m : ℕ) (hn : 1 ≤ n) (hn31 : n < 31) (hm : 1 ≤ m) (hm31 : m < 31)
    (pbOffsetLength btbOffsetLength : Int32) (hpbLength : pbOffsetLength.toInt = n)
    (hbtbLength : btbOffsetLength.toInt = m) (s : State (2 ^ n) (2 ^ m)) (pc : ℕ)
    (hpc : pc < 2 ^ 62) (hpb : 2 ^ n ≤ pc) (hbtb : 2 ^ m ≤ pc) (htag : pc / 2 ^ m < 2 ^ 31) :
    step pbOffsetLength btbOffsetLength s (branchLine pc 'T') =
      branch s (takenRecord pc) (decodedBranch n m pc)
        ⟨pc % 2 ^ n, Nat.mod_lt pc (Nat.two_pow_pos n)⟩ := by
  have hrecord : parseRecord (branchLine pc 'T') = .ok (takenRecord pc) :=
    parseRecord_branchLine pc (by omega) 'T' (by decide)
  rw [step_of_decodable n m hn hn31 hm hm31 pbOffsetLength btbOffsetLength hpbLength hbtbLength s _
    _ hrecord pc (toInt_ofNat_of_le pc hpc) hpb hbtb htag]
  exact if_neg (show ("T" : String) ≠ "-" by decide)

/-- With more targets than counters two branches share a counter and not a target. -/
theorem exists_null_target (pbBufferSize btbBufferSize : Int32) (n m : ℕ)
    (hsizes : BufferSizes pbBufferSize btbBufferSize n m) (hnm : n < m) (verbose : Bool) :
    ∃ trace, (∀ line ∈ trace, DecodableLine (2 ^ n) (2 ^ m) line) ∧
      simulate (.ofLines trace) pbBufferSize btbBufferSize verbose =
        .error ⟨.line 1, .nullPointer⟩ := by
  have hn := hsizes.pbIndex
  have hm31 := exponent_lt _ _ hsizes.btb
  have hnle : 2 ^ n < 2 ^ m := Nat.pow_lt_pow_right (by decide) hnm
  have hmle : 2 ^ m ≤ 2 ^ 30 := Nat.pow_le_pow_right (by decide) (by omega)
  have hnpos : 0 < 2 ^ n := by positivity
  have hmpos : 0 < 2 ^ m := by positivity
  -- both addresses go to counter 0, the first to target 0 and the second to target `2 ^ n`
  have hfirstPb : 2 ^ m % 2 ^ n = 0 := Nat.mod_eq_zero_of_dvd (Nat.pow_dvd_pow 2 hnm.le)
  have hsecondPb : (2 ^ m + 2 ^ n) % 2 ^ n = 0 := by rw [Nat.add_mod_right, hfirstPb]
  have hsecondBtb : (2 ^ m + 2 ^ n) % 2 ^ m = 2 ^ n := by
    rw [Nat.add_mod_left, Nat.mod_eq_of_lt hnle]
  have hfirstTag : 2 ^ m / 2 ^ m < 2 ^ 31 := by
    rw [Nat.div_self hmpos]
    decide
  have hsecondTag : (2 ^ m + 2 ^ n) / 2 ^ m < 2 ^ 31 :=
    (Nat.div_le_self _ _).trans_lt (by omega)
  have hindex (v : ℕ) : arrayIndex (2 ^ m) (decodedBranch n m v).btbIndex =
      .ok ⟨v % 2 ^ m, Nat.mod_lt v hmpos⟩ :=
    arrayIndex_ofNat_mod (2 ^ m) v hmpos (by omega)
  obtain ⟨pbOffsetLength, btbOffsetLength, hpbLength, hbtbLength, hsetUp⟩ := hsizes.setUp_eq
  have hstep (s : State (2 ^ n) (2 ^ m)) (pc : ℕ) := step_taken n m hn (by omega) hsizes.btbIndex
    hm31 pbOffsetLength btbOffsetLength hpbLength hbtbLength s pc
  obtain ⟨s, hfirst, hcounter, htarget⟩ : ∃ s : State (2 ^ n) (2 ^ m),
      step pbOffsetLength btbOffsetLength (State.initial (2 ^ n) (2 ^ m))
        (branchLine (2 ^ m) 'T') = .ok s ∧
      takenPrediction (s.pbBuffer ⟨(2 ^ m + 2 ^ n) % 2 ^ n, Nat.mod_lt _ hnpos⟩) = true ∧
      s.btbBuffer ⟨(2 ^ m + 2 ^ n) % 2 ^ m, Nat.mod_lt _ hmpos⟩ = none := by
    rw [hstep _ _ (by omega) hnle.le le_rfl hfirstTag, branch_eq _ _ _ _ _ (hindex _)]
    refine ⟨_, if_neg (show ¬takenPrediction 1 = true by decide), ?_, ?_⟩
    · simp [State.afterBranch, hfirstPb, hsecondPb, takenRecord, State.initial]
      decide
    · simp [State.afterBranch, hsecondBtb, updatedTargets, setTarget, takenRecord, State.initial]
  have hsecond : step pbOffsetLength btbOffsetLength s (branchLine (2 ^ m + 2 ^ n) 'T') =
      .error .nullPointer := by
    rw [hstep _ _ (by omega) (by omega) (by omega) hsecondTag, branch_eq _ _ _ _ _ (hindex _),
      if_pos hcounter, htarget]
  refine ⟨[branchLine (2 ^ m) 'T', branchLine (2 ^ m + 2 ^ n) 'T'], ?_, ?_⟩
  · intro line hline
    rcases List.mem_pair.mp hline with rfl | rfl
    · exact decodableLine_taken n m _ (by omega) hnle.le le_rfl hfirstTag
    · exact decodableLine_taken n m _ (by omega) (by omega) (by omega) hsecondTag
  · simp only [simulate, hsetUp, readLoop, InputStream.ofLines, readLines, hfirst, hsecond]

/-- With at most as many targets as counters no stream makes the simulation dereference null. -/
theorem simulate_avoids_null (pbBufferSize btbBufferSize : Int32) (n m : ℕ)
    (hsizes : BufferSizes pbBufferSize btbBufferSize n m) (hmn : m ≤ n) (verbose : Bool)
    (stream : InputStream) (abort : Abort)
    (habort : simulate stream pbBufferSize btbBufferSize verbose = .error abort) :
    abort.cause ≠ .nullPointer := by
  obtain ⟨pbOffsetLength, btbOffsetLength, hpbLength, hbtbLength, hsetUp⟩ := hsizes.setUp_eq
  have hrun := readLoop_invariant (step pbOffsetLength btbOffsetLength) TargetsFilled
    .nullPointer (by decide)
    (fun s line hs => step_avoids_null n m (exponent_lt _ _ hsizes.pb) hsizes.btbIndex hmn
      pbOffsetLength btbOffsetLength hpbLength hbtbLength s line hs)
    (State.initial (2 ^ n) (2 ^ m)) stream (targetsFilled_initial n m)
  simp only [simulate, hsetUp] at habort
  cases hloop : readLoop (step pbOffsetLength btbOffsetLength) (State.initial (2 ^ n) (2 ^ m))
      stream with
  | ok final => simp [hloop] at habort
  | error other =>
    rw [hloop] at hrun
    simp only [hloop, Except.error.injEq] at habort
    exact habort ▸ hrun

/-- Powers of two are compared by their exponents. -/
theorem BufferSizes.lt_iff {pbBufferSize btbBufferSize : Int32} {n m : ℕ}
    (h : BufferSizes pbBufferSize btbBufferSize n m) : pbBufferSize < btbBufferSize ↔ n < m := by
  rw [Int32.lt_iff_toInt_lt, h.pb, h.btb]
  exact pow_lt_pow_iff_right₀ (by decide)

/-- Some decodable trace makes the simulation dereference a null target exactly when there are more
targets than counters; otherwise no input stream at all does. -/
theorem null_target_iff (pbBufferSize btbBufferSize : Int32) (n m : ℕ)
    (hsizes : BufferSizes pbBufferSize btbBufferSize n m) (verbose : Bool) :
    ((∃ trace abort, (∀ line ∈ trace, DecodableLine (2 ^ n) (2 ^ m) line) ∧
        simulate (.ofLines trace) pbBufferSize btbBufferSize verbose = .error abort ∧
        abort.cause = .nullPointer) ↔ pbBufferSize < btbBufferSize) ∧
      (¬pbBufferSize < btbBufferSize → ∀ stream abort,
        simulate stream pbBufferSize btbBufferSize verbose = .error abort →
          abort.cause ≠ .nullPointer) := by
  rw [hsizes.lt_iff]
  refine ⟨⟨?_, ?_⟩, ?_⟩
  · intro h
    obtain ⟨trace, abort, _, habort, hcause⟩ := h
    by_contra hle
    exact simulate_avoids_null _ _ n m hsizes (by omega) verbose _ abort habort hcause
  · intro hnm
    obtain ⟨trace, hdecodable, habort⟩ := exists_null_target _ _ n m hsizes hnm verbose
    exact ⟨trace, _, hdecodable, habort, rfl⟩
  · intro hle stream abort habort
    exact simulate_avoids_null _ _ n m hsizes (by omega) verbose stream abort habort

/-- Two counters and four targets, and four counters and two targets. -/
theorem null_target_iff_two_four :
    (((∃ trace abort, (∀ line ∈ trace, DecodableLine 2 4 line) ∧
        simulate (.ofLines trace) 2 4 false = .error abort ∧ abort.cause = .nullPointer) ↔
          (2 : Int32) < 4) ∧
      (¬(2 : Int32) < 4 → ∀ stream abort, simulate stream 2 4 false = .error abort →
        abort.cause ≠ .nullPointer)) ∧
    ((∃ trace abort, (∀ line ∈ trace, DecodableLine 4 2 line) ∧
        simulate (.ofLines trace) 4 2 false = .error abort ∧ abort.cause = .nullPointer) ↔
          (4 : Int32) < 2) ∧
      (¬(4 : Int32) < 2 → ∀ stream abort, simulate stream 4 2 false = .error abort →
        abort.cause ≠ .nullPointer) :=
  ⟨null_target_iff 2 4 1 2 ⟨by decide, by decide, by decide, by decide⟩ false,
    null_target_iff 4 2 2 1 ⟨by decide, by decide, by decide, by decide⟩ false⟩

end Coursework.BranchPrediction.Sys2
