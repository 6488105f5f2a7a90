import Coursework.BranchPrediction.Mispredictions
import Coursework.BranchPrediction.StaticPrediction
import Coursework.Prediction.Hindsight
import Mathlib.Algebra.BigOperators.Ring.Finset

/-!
# The two predictors on one trace

On a trace that the predictor with counters reads to its end the static one counts the same
branches. The counters mispredict at most twice as often as any prediction that is fixed for
each counter, also one chosen after the trace, and in particular as the static rule, if no two
branches of different directions share a counter.
-/

namespace Coursework.BranchPrediction

open Coursework.Java
open Coursework.Prediction

namespace Sys2

/-- The branches whose outcome is not the one predicted for their residue. -/
def missedBy (size : ℕ) (predict : ℕ → Bool) (lines : List String) : ℕ :=
  (lines.filterMap (outcomeOf size)).countP fun outcome => outcome.2 != predict outcome.1

/-- The outcomes of a residue that are not the predicted one are counted over all residues. -/
theorem sum_count_outcomes (size : ℕ) (predict : ℕ → Bool) (lines : List String)
    (indices : Finset ℕ) (hall : residues size lines ⊆ indices) :
    ∑ i ∈ indices, (outcomes size lines i).count (!predict i) = missedBy size predict lines := by
  induction lines with
  | nil => simp [outcomes, missedBy]
  | cons line rest ih =>
    cases hline : outcomeOf size line with
    | none =>
      simp only [residues, List.filterMap_cons, hline] at hall
      simp only [outcomes_cons_none hline, missedBy, List.filterMap_cons, hline]
      exact ih hall
    | some outcome =>
      obtain ⟨entry, taken⟩ := outcome
      simp only [residues, List.filterMap_cons, hline, List.map_cons, List.toFinset_cons,
        Finset.insert_subset_iff] at hall
      obtain ⟨hentry, hrest⟩ := hall
      have hcount : ∀ i ∈ indices, (outcomes size (line :: rest) i).count (!predict i) =
          (outcomes size rest i).count (!predict i) +
            if i = entry then if taken != predict entry then 1 else 0 else 0 := by
        intro i _
        rw [outcomes_cons_some hline]
        by_cases hi : i = entry
        · subst hi
          rw [if_pos rfl, if_pos rfl, List.count_cons]
          cases taken <;> cases predict i <;> rfl
        · rw [if_neg hi, if_neg hi, add_zero]
      rw [Finset.sum_congr rfl hcount, Finset.sum_add_distrib, ih hrest, Finset.sum_ite_eq',
        if_pos hentry, missedBy, missedBy]
      simp only [List.filterMap_cons, hline, List.countP_cons]

/-- The mispredictions of a simulation that ends are those of the counters that occur. -/
theorem report_le_sum {stream : InputStream} {pbBufferSize btbBufferSize : Int32}
    {verbose : Bool} {run : Run}
    (hrun : simulate stream pbBufferSize btbBufferSize verbose = .ok run)
    (hops : ∀ line ∈ stream.lines, Operates line) :
    run.report.mispredictions.toInt ≤
      ((∑ i ∈ residues (indexed run.geometry.pbSize) stream.lines,
        mispredictions 1 (outcomes (indexed run.geometry.pbSize) stream.lines i) : ℕ) : ℤ) := by
  obtain ⟨hsetUp, hlines⟩ := simulate_eq_ok hrun
  obtain ⟨-, htotal⟩ := readLines_counts hsetUp stream.lines hops _ _ 0 (fun _ => 1)
    (fun j => ⟨by simp, rfl⟩) hlines
  have hsum : ∑ i ∈ Finset.range run.geometry.pbSize,
      mispredictions 1 (outcomes (indexed run.geometry.pbSize) stream.lines i) ≤
        ∑ i ∈ residues (indexed run.geometry.pbSize) stream.lines,
          mispredictions 1 (outcomes (indexed run.geometry.pbSize) stream.lines i) := by
    apply Finset.sum_le_sum_of_ne_zero
    intro i _ hcounted
    rw [mem_residues_iff]
    intro hnone
    exact hcounted (by rw [hnone, mispredictions])
  change run.final.counters.mispredictions.toInt ≤ _
  rw [htotal, State.initial, Counters.zero, Int32.zero_add]
  exact (toInt_ofNat_le _).trans (by exact_mod_cast hsum)

/-- In every simulation that ends the reported mispredictions are at most twice those of any
prediction that is fixed for each counter, and one more for each counter that occurs and is
predicted taken. -/
theorem simulate_hindsight (stream : InputStream) (pbBufferSize btbBufferSize : Int32)
    (verbose : Bool) (run : Run)
    (hrun : simulate stream pbBufferSize btbBufferSize verbose = .ok run)
    (hops : ∀ line ∈ stream.lines, Operates line) (predict : ℕ → Bool) :
    run.report.mispredictions.toInt ≤
      ((2 * missedBy (indexed run.geometry.pbSize) predict stream.lines +
        ((residues (indexed run.geometry.pbSize) stream.lines).filter
          fun i => predict i = true).card : ℕ) : ℤ) := by
  apply (report_le_sum hrun hops).trans
  rw [Int.ofNat_le, ← sum_count_outcomes _ predict stream.lines _ (Finset.Subset.refl _),
    Finset.mul_sum, Finset.card_filter, ← Finset.sum_add_distrib]
  apply Finset.sum_le_sum
  intro i _
  rw [add_comm]
  exact mispredictions_le_static (predict i) _

/-- A branch that is alternately taken and not, and mispredicted each time: twice as often as by the
prediction that it is never taken. -/
theorem simulate_hindsight_alternating :
    let lines := ["1 4 0 0 0 0 T 0 0 0 0 10", "2 4 0 0 0 0 N 0 0 0 0 10",
      "3 4 0 0 0 0 T 0 0 0 0 10", "4 4 0 0 0 0 N 0 0 0 0 10"]
    ∃ run, simulate (.ofLines lines) 4 2 false = .ok run ∧
      run.report.mispredictions = 4 ∧ missedBy 4 (fun _ => false) lines = 2 ∧
      run.report.mispredictions.toInt ≤
        ((2 * missedBy (indexed run.geometry.pbSize) (fun _ => false) lines +
          ((residues (indexed run.geometry.pbSize) lines).filter
            fun _ => false = true).card : ℕ) : ℤ) := by
  intro lines
  have hcount : (simulate (.ofLines lines) 4 2 false).toOption.map
      (fun run => run.report.mispredictions) = some 4 := by decide +kernel
  cases hrun : simulate (.ofLines lines) 4 2 false with
  | error abort =>
    rw [hrun] at hcount
    cases hcount
  | ok run =>
    rw [hrun] at hcount
    exact ⟨run, rfl, Option.some.inj hcount, by decide +kernel,
      simulate_hindsight _ 4 2 false run hrun (by decide) fun _ => false⟩

end Sys2

/-- The counters that both programs keep have the same values. -/
structure SameBranches (dynamic : Sys2.Counters) (static : Sys1.Counters) : Prop where
  branches : static.branches = dynamic.branches
  forwardBranches : static.forwardBranches = dynamic.forwardBranches
  forwardTakenBranches : static.forwardTakenBranches = dynamic.forwardTakenBranches
  backwardBranches : static.backwardBranches = dynamic.backwardBranches
  backwardTakenBranches : static.backwardTakenBranches = dynamic.backwardTakenBranches

/-- A look-up leaves the counters of the directions alone. -/
theorem SameBranches.countLookUp {btbSize : ℕ} {btbBuffer : Fin btbSize → Option Sys2.Target}
    {btbIndex : Int32} {tag : String} {taken : Bool} {counters looked : Sys2.Counters}
    {static : Sys1.Counters} (h : SameBranches counters static)
    (hlooked : Sys2.countLookUp btbBuffer btbIndex tag taken counters = .ok looked) :
    SameBranches looked static := by
  unfold Sys2.countLookUp at hlooked
  split at hlooked
  · obtain ⟨found, -, hfound⟩ := bind_eq_ok hlooked
    split at hfound <;> obtain rfl := Except.ok.inj hfound <;> exact ⟨h.1, h.2, h.3, h.4, h.5⟩
  · obtain rfl := Except.ok.inj hlooked
    exact h

/-- Counting the outcome leaves the counters of the directions alone. -/
theorem SameBranches.countOutcome {counters : Sys2.Counters} {static : Sys1.Counters}
    (h : SameBranches counters static) (tnNotBranch : String) (pbCurState : Int32) :
    SameBranches (Sys2.countOutcome tnNotBranch pbCurState counters) static := by
  unfold Sys2.countOutcome
  split_ifs
  · exact ⟨h.1, h.2, h.3, h.4, h.5⟩
  · exact ⟨h.1, h.2, h.3, h.4, h.5⟩
  · exact h

/-- Both programs count the direction of a branch in the same way. -/
theorem SameBranches.countDirection {counters : Sys2.Counters} {static : Sys1.Counters}
    (tnNotBranch : String) (distance : Int64)
    (h : SameBranches counters { static with branches := static.branches + 1 }) :
    SameBranches (Sys2.countDirection tnNotBranch distance counters)
      (Sys1.countBranch static tnNotBranch distance) := by
  unfold Sys2.countDirection Sys1.countBranch
  by_cases hforward : distance > 0
  · rw [if_pos hforward, if_pos hforward]
    refine ⟨h.branches, ?_, ?_, h.backwardBranches, h.backwardTakenBranches⟩
    · exact congrArg (· + 1) h.forwardBranches
    · simp only [Sys1.Counters.forward, ← h.forwardTakenBranches]
  · rw [if_neg hforward, if_neg hforward]
    by_cases hbackward : distance < 0
    · rw [if_pos hbackward, if_pos hbackward]
      refine ⟨h.branches, h.forwardBranches, h.forwardTakenBranches, ?_, ?_⟩
      · exact congrArg (· + 1) h.backwardBranches
      · simp only [Sys1.Counters.backward, ← h.backwardTakenBranches]
    · rw [if_neg hbackward, if_neg hbackward]
      exact h

/-- A line that the predictor with counters processes is counted alike by the static one. -/
theorem SameBranches.step {pbSize btbSize : ℕ} {pbOffsetLength btbOffsetLength : Int32}
    {s s' : Sys2.State pbSize btbSize} {static : Sys1.Counters} {line : String}
    (h : SameBranches s.counters static)
    (hstep : Sys2.step pbOffsetLength btbOffsetLength s line = .ok s') :
    ∃ static', Sys1.step static line = .ok static' ∧ SameBranches s'.counters static' := by
  rw [Sys2.step] at hstep
  obtain ⟨record, hrecord, hstep⟩ := bind_eq_ok hstep
  obtain ⟨pbOffset, -, hstep⟩ := bind_eq_ok hstep
  obtain ⟨btbOffset, -, hstep⟩ := bind_eq_ok hstep
  rw [Sys1.step, hrecord, ok_bind]
  by_cases hskip : record.tnNotBranch = "-"
  · rw [if_pos hskip] at hstep ⊢
    obtain rfl := Except.ok.inj hstep
    exact ⟨static, rfl, h⟩
  · rw [if_neg hskip] at hstep ⊢
    obtain ⟨pbIndex, -, hstep⟩ := bind_eq_ok hstep
    obtain ⟨pbEntry, -, hstep⟩ := bind_eq_ok hstep
    obtain ⟨btbIndex, -, hstep⟩ := bind_eq_ok hstep
    obtain ⟨tagBinary, -, hstep⟩ := bind_eq_ok hstep
    obtain ⟨tag, -, hstep⟩ := bind_eq_ok hstep
    rw [Sys2.branch] at hstep
    obtain ⟨looked, hlooked, hstep⟩ := bind_eq_ok hstep
    obtain ⟨targets, -, hstep⟩ := bind_eq_ok hstep
    obtain rfl := Except.ok.inj hstep
    refine ⟨_, rfl, SameBranches.countDirection _ _ (SameBranches.countOutcome ?_ _ _)⟩
    have hcounted : SameBranches { s.counters with branches := s.counters.branches + 1 }
        { static with branches := static.branches + 1 } :=
      ⟨congrArg (· + 1) h.1, h.2, h.3, h.4, h.5⟩
    obtain ⟨h₁, h₂, h₃, h₄, h₅⟩ := hcounted.countLookUp hlooked
    exact ⟨h₁, h₂, h₃, h₄, h₅⟩

/-- If the simulation with counters ends, so does the static one on the same trace, and both report
the same numbers of branches, forward and backward, and of taken ones among them. -/
theorem simulate_sameBranches (stream : InputStream) (pbBufferSize btbBufferSize : Int32)
    (verbose : Bool) (run : Sys2.Run)
    (hrun : Sys2.simulate stream pbBufferSize btbBufferSize verbose = .ok run) :
    ∃ counters, Sys1.simulate stream = .ok counters ∧
      SameBranches run.final.counters counters := by
  rw [Sys2.simulate] at hrun
  split at hrun
  · cases hrun
  · rename_i geometry hsetUp
    split at hrun
    · cases hrun
    · rename_i final hloop
      obtain rfl := Except.ok.inj hrun
      apply readLoop_simulates (fun s counters => SameBranches s.counters counters) _ _ hloop
      · intro s counters s' line h hstep
        exact h.step hstep
      · exact ⟨rfl, rfl, rfl, rfl, rfl⟩

/-- A forward and a backward branch, of which the latter is taken. -/
theorem simulate_sameBranches_two :
    let lines := ["1 4 0 0 0 0 N 0 0 0 0 10", "2 8 0 0 0 0 T 0 0 0 0 4"]
    ∃ run counters, Sys2.simulate (.ofLines lines) 4 2 false = .ok run ∧
      Sys1.simulate (.ofLines lines) = .ok counters ∧ counters.backwardTakenBranches = 1 ∧
      SameBranches run.final.counters counters := by
  intro lines
  have hcount : (Sys2.simulate (.ofLines lines) 4 2 false).toOption.map
      (fun run => run.final.counters.backwardTakenBranches) = some 1 := by decide +kernel
  cases hrun : Sys2.simulate (.ofLines lines) 4 2 false with
  | error abort =>
    rw [hrun] at hcount
    cases hcount
  | ok run =>
    rw [hrun] at hcount
    obtain ⟨counters, hstatic, hsame⟩ := simulate_sameBranches _ 4 2 false run hrun
    exact ⟨run, counters, rfl, hstatic,
      hsame.backwardTakenBranches.trans (Option.some.inj hcount), hsame⟩

/-- The branches of each counter go all forward, to be predicted not taken, or all backward. -/
def Separated (size : ℕ) (predict : ℕ → Bool) (lines : List String) : Prop :=
  ∀ line ∈ lines, ∀ record, Sys2.parseRecord line = .ok record → record.tnNotBranch ≠ "-" →
    predict (record.instructionAddress.toInt % size).toNat =
      Sys1.staticPrediction record.instructionAddress record.targetAddressTakenBranch

/-- Then the static rule differs from the outcomes that the predictions for the counters miss. -/
theorem Separated.missedBy_eq {size : ℕ} {predict : ℕ → Bool} {lines : List String}
    (h : Separated size predict lines) (hlines : ∀ line ∈ lines, Sys1.WellFormedLine line) :
    Sys2.missedBy size predict lines =
      lines.countP (Sys1.differs Sys1.staticPrediction) := by
  induction lines with
  | nil => rfl
  | cons line rest ih =>
    have hrest := ih (fun other hother => h other (List.mem_cons_of_mem line hother))
      (fun other hother => hlines other (List.mem_cons_of_mem line hother))
    obtain ⟨record, hrecord, -⟩ := hlines line List.mem_cons_self
    rw [Sys2.missedBy] at hrest ⊢
    rw [List.countP_cons]
    by_cases hskip : record.tnNotBranch = "-"
    · have hnone : Sys2.outcomeOf size line = none := by simp [Sys2.outcomeOf, hrecord, hskip]
      have hsame : Sys1.differs Sys1.staticPrediction line = false := by
        simp [Sys1.differs, hrecord, hskip]
      rw [List.filterMap_cons, hnone, hrest, hsame]
      rfl
    · have hsome : Sys2.outcomeOf size line =
          some ((record.instructionAddress.toInt % size).toNat,
            decide (record.tnNotBranch = "T")) := by
        simp [Sys2.outcomeOf, hrecord, hskip]
      rw [List.filterMap_cons, hsome, List.countP_cons, hrest,
        Sys1.differs_static hrecord hskip, ← h line List.mem_cons_self record hrecord hskip]
      cases predict (record.instructionAddress.toInt % size).toNat <;>
        cases decide (record.tnNotBranch = "T") <;> rfl

/-- On a trace in which no two branches of different directions share a counter, the counters
mispredict at most twice as often as the static rule, and once more for each counter of backward
branches. -/
theorem simulate_le_static (lines : List String) (hlines : ∀ line ∈ lines, Sys1.WellFormedLine line)
    (hself : ∀ line ∈ lines, ¬Sys1.SelfBranch line)
    (hfits : lines.countP (Sys1.differs Sys1.staticPrediction) < 2 ^ 31)
    (pbBufferSize btbBufferSize : Int32) (verbose : Bool) (run : Sys2.Run)
    (hrun : Sys2.simulate (.ofLines lines) pbBufferSize btbBufferSize verbose = .ok run)
    (predict : ℕ → Bool)
    (hseparated : Separated (Sys2.indexed run.geometry.pbSize) predict lines) :
    ∃ counters, Sys1.simulate (.ofLines lines) = .ok counters ∧
      run.report.mispredictions.toInt ≤ 2 * counters.mispredictions.toInt +
        ((Sys2.residues (Sys2.indexed run.geometry.pbSize) lines).filter
          fun i => predict i = true).card := by
  obtain ⟨counters, hstatic, haccounts⟩ := Sys1.simulate_accounts lines hlines hself
  have hops : ∀ line ∈ lines, Sys2.Operates line := by
    intro line hline record hrecord
    obtain ⟨record', hrecord', hop, -⟩ := hlines line hline
    obtain rfl := Except.ok.inj (hrecord.symm.trans hrecord')
    exact hop
  have hbound := Sys2.simulate_hindsight _ _ _ _ run hrun hops predict
  change _ ≤ ((2 * Sys2.missedBy _ predict lines + _ : ℕ) : ℤ) at hbound
  rw [hseparated.missedBy_eq hlines, Nat.cast_add, Nat.cast_mul, Nat.cast_ofNat] at hbound
  refine ⟨counters, hstatic, ?_⟩
  rw [haccounts.static, Int32.toInt_ofNat_of_lt hfits]
  exact hbound

/-- A backward branch that is taken twice: its counter mispredicts once, the static rule never. -/
theorem simulate_le_static_backward :
    let lines := ["1 8 0 0 0 0 T 0 0 0 0 4", "2 8 0 0 0 0 T 0 0 0 0 4"]
    ∃ run counters, Sys2.simulate (.ofLines lines) 4 2 false = .ok run ∧
      Sys1.simulate (.ofLines lines) = .ok counters ∧
      run.report.mispredictions.toInt ≤ 2 * counters.mispredictions.toInt +
        ((Sys2.residues (Sys2.indexed run.geometry.pbSize) lines).filter
          fun _ => true = true).card := by
  intro lines
  have hok : (Sys2.simulate (.ofLines lines) 4 2 false).toOption.isSome = true := by decide +kernel
  cases hrun : Sys2.simulate (.ofLines lines) 4 2 false with
  | error abort =>
    rw [hrun] at hok
    cases hok
  | ok run =>
    have hrecords : ∀ line ∈ lines, (Sys2.parseRecord line).toOption = some ⟨8, "T", 4⟩ := by decide
    have hrecord : ∀ line ∈ lines, ∀ record, Sys2.parseRecord line = .ok record →
        record = ⟨8, "T", 4⟩ := by
      intro line hline record hparse
      have hsome := hrecords line hline
      rw [hparse] at hsome
      exact Option.some.inj hsome
    obtain ⟨counters, hstatic, hle⟩ := simulate_le_static lines (by decide)
      (by
        rintro line hline ⟨record, hparse, -, hself⟩
        obtain rfl := hrecord line hline record hparse
        exact absurd hself (by decide))
      (by decide +kernel) 4 2 false run hrun (fun _ => true) (by
        intro line hline record hparse _
        obtain rfl := hrecord line hline record hparse
        rfl)
    exact ⟨run, counters, rfl, hstatic, hle⟩

end Coursework.BranchPrediction
