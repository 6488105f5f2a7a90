import Coursework.BranchPrediction.Sys1
import Coursework.Java.Radix
import Coursework.Java.ReadLoop

/-!
# What the static predictor counts

As long as no branch goes to itself, every branch has a direction, and the mispredictions
are the branches whose outcome differs from the static rule. After the first branch to
itself there is one branch more than there are directions.
-/

namespace Coursework.BranchPrediction.Sys1

open Coursework.Java
open Coursework.BranchPrediction.Sys2 (Record parseRecord)

/-- A line that can be read, whose operation is `T`, `N` or `-`, and whose addresses are not
negative. -/
def WellFormedLine (line : String) : Prop :=
  ∃ record, parseRecord line = .ok record ∧
    (record.tnNotBranch = "T" ∨ record.tnNotBranch = "N" ∨ record.tnNotBranch = "-") ∧
    0 ≤ record.instructionAddress.toInt ∧ 0 ≤ record.targetAddressTakenBranch.toInt

instance (line : String) : Decidable (WellFormedLine line) :=
  match hrecord : parseRecord line with
  | .ok record => decidable_of_iff
      ((record.tnNotBranch = "T" ∨ record.tnNotBranch = "N" ∨ record.tnNotBranch = "-") ∧
        0 ≤ record.instructionAddress.toInt ∧ 0 ≤ record.targetAddressTakenBranch.toInt)
      (by simp [WellFormedLine, hrecord])
  | .error _ => isFalse (by simp [WellFormedLine, hrecord])

/-- A line with a branch to itself. -/
def SelfBranch (line : String) : Prop :=
  ∃ record, parseRecord line = .ok record ∧ record.tnNotBranch ≠ "-" ∧
    record.targetAddressTakenBranch = record.instructionAddress

/-- The static rule: a branch is predicted to be taken if it goes backward. -/
def staticPrediction (instructionAddress targetAddress : Int64) : Bool :=
  targetAddress < instructionAddress

/-- A line with a branch whose outcome differs from a prediction by its two addresses. -/
def differs (predict : Int64 → Int64 → Bool) (line : String) : Bool :=
  match parseRecord line with
  | .ok record => record.tnNotBranch ≠ "-" ∧
      predict record.instructionAddress record.targetAddressTakenBranch ≠
        decide (record.tnNotBranch = "T")
  | .error _ => false

/-- Every branch is counted in one direction, the mispredictions are the forward branches that are
taken and the backward ones that are not, and some prediction by the addresses explains them. -/
structure Classified (lines : List String) (counters : Counters) : Prop where
  directions : counters.forwardBranches + counters.backwardBranches = counters.branches
  mispredictions : counters.mispredictions = counters.forwardTakenBranches +
    (counters.backwardBranches - counters.backwardTakenBranches)
  prediction : ∃ predict : Int64 → Int64 → Bool,
    counters.mispredictions.toInt = lines.countP (differs predict)

/-- The difference of two addresses that are not negative does not wrap around. -/
theorem toInt_distance (x y : Int64) (hx : 0 ≤ x.toInt) (hy : 0 ≤ y.toInt) :
    (y - x).toInt = y.toInt - x.toInt := by
  have hxlt := x.toInt_lt
  have hylt := y.toInt_lt
  rw [Int64.toInt_sub]
  exact Int.bmod_eq_of_le (by omega) (by omega)

/-- The counters account for the lines read so far, none of which has a branch to itself. -/
structure Accounts (lines : List String) (counters : Counters) : Prop where
  directions : counters.forwardBranches + counters.backwardBranches = counters.branches
  mispredictions : counters.mispredictions = counters.forwardTakenBranches +
    (counters.backwardBranches - counters.backwardTakenBranches)
  static : counters.mispredictions = Int32.ofNat (lines.countP (differs staticPrediction))

/-- The sign of the distance tells the direction of a branch. -/
theorem distance_pos_iff {x y : Int64} (hx : 0 ≤ x.toInt) (hy : 0 ≤ y.toInt) :
    (y - x > 0 ↔ x.toInt < y.toInt) ∧ (y - x < 0 ↔ y.toInt < x.toInt) := by
  rw [gt_iff_lt, Int64.lt_iff_toInt_lt, Int64.lt_iff_toInt_lt, toInt_distance x y hx hy,
    Int64.toInt_zero]
  omega

/-- A branch to itself is counted, and nothing else. -/
theorem countBranch_self (counters : Counters) (tnNotBranch : String) (x : Int64) :
    countBranch counters tnNotBranch (x - x) =
      { counters with branches := counters.branches + 1 } := by
  simp [countBranch]

/-- Whether a branch differs from the static rule, by its direction and outcome. -/
theorem differs_static {line : String} {record : Record} (hrecord : parseRecord line = .ok record)
    (hop : record.tnNotBranch ≠ "-") :
    differs staticPrediction line = (staticPrediction record.instructionAddress
      record.targetAddressTakenBranch != decide (record.tnNotBranch = "T")) := by
  simp only [differs, hrecord]
  by_cases htaken : record.tnNotBranch = "T" <;>
    cases staticPrediction record.instructionAddress record.targetAddressTakenBranch <;>
      simp [hop, htaken]

/-- A branch forward is accounted for. -/
theorem Accounts.forward {lines : List String} {counters : Counters} (h : Accounts lines counters)
    (line tnNotBranch : String)
    (hdiffers : differs staticPrediction line = decide (tnNotBranch = "T")) :
    Accounts (lines ++ [line])
      (Counters.forward { counters with branches := counters.branches + 1 } tnNotBranch) := by
  obtain ⟨hdirections, hmispredictions, hstatic⟩ := h
  by_cases htaken : tnNotBranch = "T"
  · refine ⟨?_, ?_, ?_⟩
    · simp only [Counters.forward]
      grind
    · simp only [Counters.forward, if_pos htaken]
      grind
    · simp only [Counters.forward, if_pos htaken, List.countP_append, List.countP_singleton,
        hdiffers, decide_eq_true htaken, if_true, Int32.ofNat_add, hstatic]
      rfl
  · refine ⟨?_, ?_, ?_⟩
    · simp only [Counters.forward]
      grind
    · simp only [Counters.forward, if_neg htaken]
      exact hmispredictions
    · simp only [Counters.forward, if_neg htaken, List.countP_append, List.countP_singleton,
        hdiffers, decide_eq_false htaken, hstatic]
      rfl

/-- A branch backward is accounted for. -/
theorem Accounts.backward {lines : List String} {counters : Counters} (h : Accounts lines counters)
    (line tnNotBranch : String) (hop : tnNotBranch = "T" ∨ tnNotBranch = "N")
    (hdiffers : differs staticPrediction line = decide (tnNotBranch = "N")) :
    Accounts (lines ++ [line])
      (Counters.backward { counters with branches := counters.branches + 1 } tnNotBranch) := by
  obtain ⟨hdirections, hmispredictions, hstatic⟩ := h
  rcases hop with rfl | rfl
  · refine ⟨?_, ?_, ?_⟩
    · simp only [Counters.backward]
      grind
    · simp only [Counters.backward, if_true, if_neg (show ("T" : String) ≠ "N" by decide)]
      grind
    · simp only [Counters.backward, if_neg (show ("T" : String) ≠ "N" by decide),
        List.countP_append, List.countP_singleton, hdiffers, hstatic]
      rfl
  · refine ⟨?_, ?_, ?_⟩
    · simp only [Counters.backward]
      grind
    · simp only [Counters.backward, if_true, if_neg (show ("N" : String) ≠ "T" by decide)]
      grind
    · simp only [Counters.backward, if_true, List.countP_append, List.countP_singleton, hdiffers,
        hstatic, decide_true, Int32.ofNat_add]
      rfl

/-- A branch to another address is accounted for. -/
theorem Accounts.countBranch {lines : List String} {counters : Counters}
    (h : Accounts lines counters) (line : String) (record : Record)
    (hrecord : parseRecord line = .ok record)
    (hop : record.tnNotBranch = "T" ∨ record.tnNotBranch = "N")
    (hx : 0 ≤ record.instructionAddress.toInt) (hy : 0 ≤ record.targetAddressTakenBranch.toInt)
    (hne : record.targetAddressTakenBranch ≠ record.instructionAddress) :
    Accounts (lines ++ [line]) (countBranch counters record.tnNotBranch
      (record.targetAddressTakenBranch - record.instructionAddress)) := by
  obtain ⟨hforward, hbackward⟩ := distance_pos_iff hx hy
  have hneInt : record.targetAddressTakenBranch.toInt ≠ record.instructionAddress.toInt :=
    fun heq => hne (Int64.toInt_inj.mp heq)
  have hbranch : record.tnNotBranch ≠ "-" := by
    rcases hop with hop | hop <;> rw [hop] <;> decide
  have hdiffers := differs_static hrecord hbranch
  unfold Sys1.countBranch
  rcases Int.lt_or_gt_of_ne hneInt with hlt | hgt
  · rw [if_neg (by rw [hforward]; omega), if_pos (hbackward.mpr hlt)]
    refine h.backward line record.tnNotBranch hop (hdiffers.trans ?_)
    rw [staticPrediction, decide_eq_true (Int64.lt_iff_toInt_lt.mpr hlt)]
    rcases hop with hop | hop <;> rw [hop] <;> decide
  · rw [if_pos (hforward.mpr hgt)]
    refine h.forward line record.tnNotBranch (hdiffers.trans ?_)
    rw [staticPrediction, decide_eq_false (by rw [Int64.lt_iff_toInt_lt]; omega), Bool.false_bne]

/-- A line with a branch to itself. -/
theorem step_self (counters : Counters) {line : String} (h : SelfBranch line) :
    step counters line = .ok { counters with branches := counters.branches + 1 } := by
  obtain ⟨record, hrecord, hop, hself⟩ := h
  rw [step, hrecord, ok_bind, if_neg hop, hself, countBranch_self, pure_eq_ok]

/-- Any other line is accounted for. -/
theorem step_accounts {lines : List String} {counters : Counters} (h : Accounts lines counters)
    {line : String} (hline : WellFormedLine line) (hself : ¬SelfBranch line) :
    ∃ counters', step counters line = .ok counters' ∧ Accounts (lines ++ [line]) counters' := by
  obtain ⟨record, hrecord, hop, hx, hy⟩ := hline
  by_cases hskip : record.tnNotBranch = "-"
  · refine ⟨counters, ?_, h.directions, h.mispredictions, ?_⟩
    · rw [step, hrecord, ok_bind, if_pos hskip, pure_eq_ok]
    · have hnot : differs staticPrediction line = false := by simp [differs, hrecord, hskip]
      rw [h.static, List.countP_append, List.countP_singleton, hnot]
      rfl
  · have hne : record.targetAddressTakenBranch ≠ record.instructionAddress :=
      fun heq => hself ⟨record, hrecord, hskip, heq⟩
    refine ⟨_, ?_, h.countBranch line record hrecord ?_ hx hy hne⟩
    · rw [step, hrecord, ok_bind, if_neg hskip, pure_eq_ok]
    · rcases hop with hop | hop | hop
      · exact Or.inl hop
      · exact Or.inr hop
      · exact absurd hop hskip

/-- A simulation of the lines of a trace ends with what the reading loop leaves. -/
theorem simulate_ofLines (lines : List String) :
    simulate (.ofLines lines) = readLines step .zero 0 lines := by
  rw [simulate, readLoop, InputStream.ofLines]
  cases readLines step .zero 0 lines <;> rfl

/-- One more line is one more step. -/
theorem simulate_append_singleton {front : List String} {line : String}
    {counters counters' : Counters} (hfront : simulate (.ofLines front) = .ok counters)
    (hstep : step counters line = .ok counters') :
    simulate (.ofLines (front ++ [line])) = .ok counters' := by
  rw [simulate_ofLines] at hfront ⊢
  rw [readLines_append, hfront, ok_bind]
  simp only [readLines, hstep]

/-- A trace without branches to themselves is read to its end, and accounted for. -/
theorem simulate_accounts (lines : List String) (hlines : ∀ line ∈ lines, WellFormedLine line)
    (hself : ∀ line ∈ lines, ¬SelfBranch line) :
    ∃ counters, simulate (.ofLines lines) = .ok counters ∧ Accounts lines counters := by
  induction lines using List.reverseRecOn with
  | nil => exact ⟨.zero, rfl, rfl, rfl, rfl⟩
  | append_singleton front line ih =>
    obtain ⟨counters, hfront, hcounters⟩ := ih (fun other h => hlines other (by simp [h]))
      (fun other h => hself other (by simp [h]))
    obtain ⟨counters', hstep, hcounters'⟩ := step_accounts hcounters (hlines line (by simp))
      (hself line (by simp))
    exact ⟨counters', simulate_append_singleton hfront hstep, hcounters'⟩

/-- Accounts whose mispredictions fit the counter are classified by the static rule. -/
theorem Accounts.classified {lines : List String} {counters : Counters}
    (h : Accounts lines counters) (hfits : lines.countP (differs staticPrediction) < 2 ^ 31) :
    Classified lines counters where
  directions := h.directions
  mispredictions := h.mispredictions
  prediction := ⟨staticPrediction, by rw [h.static, Int32.toInt_ofNat_of_lt hfits]⟩

/-- After a branch to itself the directions no longer add up. -/
theorem Accounts.not_classified_self {front : List String} {line : String} {counters : Counters}
    (h : Accounts front counters) :
    ¬Classified (front ++ [line]) { counters with branches := counters.branches + 1 } := by
  rintro ⟨hdirections, -, -⟩
  have hbefore := h.directions
  simp only at hdirections
  grind

/-- Mispredictions that have reached `2 ^ 31` are shown as a negative number. -/
theorem Accounts.not_classified_wrap {lines : List String} {counters : Counters}
    (h : Accounts lines counters) (hwrap : lines.countP (differs staticPrediction) = 2 ^ 31) :
    ¬Classified lines counters := by
  rintro ⟨-, -, predict, hpredict⟩
  rw [h.static, hwrap] at hpredict
  have hnegative : (Int32.ofNat (2 ^ 31)).toInt = -2 ^ 31 := by decide
  omega

/-- Every beginning of a trace is classified exactly if the trace has no branch to itself and its
mispredictions by the static rule fit the counter. -/
theorem simulate_classified_iff (lines : List String)
    (hlines : ∀ line ∈ lines, WellFormedLine line) :
    (∀ front back, lines = front ++ back →
        ∃ counters, simulate (.ofLines front) = .ok counters ∧ Classified front counters) ↔
      (∀ line ∈ lines, ¬SelfBranch line) ∧
        lines.countP (differs staticPrediction) < 2 ^ 31 := by
  constructor
  · intro hclassified
    have hprefix : ∀ front back, lines = front ++ back → (∀ line ∈ front, ¬SelfBranch line) ∧
        front.countP (differs staticPrediction) < 2 ^ 31 := by
      intro front
      induction front using List.reverseRecOn with
      | nil => exact fun _ _ => ⟨by simp, by simp⟩
      | append_singleton front line ih =>
        intro back hsplit
        have hfrontSplit : lines = front ++ line :: back := by simpa using hsplit
        obtain ⟨hself, hfits⟩ := ih (line :: back) hfrontSplit
        obtain ⟨counters, hrun, hcounters⟩ := simulate_accounts front
          (fun other h => hlines other (by simp [hfrontSplit, h])) hself
        obtain ⟨shown, hshown, hgood⟩ := hclassified (front ++ [line]) back hsplit
        have hline : ¬SelfBranch line := by
          intro hselfLine
          have hstep := simulate_append_singleton hrun (step_self counters hselfLine)
          obtain rfl := Except.ok.inj (hshown.symm.trans hstep)
          exact hcounters.not_classified_self hgood
        obtain ⟨counters', hstep, hcounters'⟩ := step_accounts hcounters
          (hlines line (by simp [hfrontSplit])) hline
        obtain rfl := Except.ok.inj (hshown.symm.trans (simulate_append_singleton hrun hstep))
        refine ⟨?_, ?_⟩
        · intro other hother
          rcases List.mem_append.mp hother with hfront | hlast
          · exact hself other hfront
          · rwa [List.mem_singleton.mp hlast]
        · have hne : (front ++ [line]).countP (differs staticPrediction) ≠ 2 ^ 31 :=
            fun hwrap => hcounters'.not_classified_wrap hwrap hgood
          have hlast : [line].countP (differs staticPrediction) ≤ 1 := List.countP_le_length
          rw [List.countP_append] at hne ⊢
          omega
    exact hprefix lines [] (List.append_nil lines).symm
  · rintro ⟨hself, hfits⟩ front back hsplit
    obtain ⟨counters, hrun, hcounters⟩ := simulate_accounts front
      (fun line h => hlines line (by simp [hsplit, h])) (fun line h => hself line (by simp [hsplit, h]))
    refine ⟨counters, hrun, hcounters.classified ?_⟩
    rw [hsplit, List.countP_append] at hfits
    omega

/-- A forward and a backward branch, and a line without a branch. -/
theorem simulate_classified_iff_two :
    let lines := ["1 10 0 0 0 0 T 0 0 0 0 20", "2 20 0 0 0 0 N 0 0 0 0 10",
      "3 14 0 0 0 0 - 0 0 0 0 14"]
    (∀ front back, lines = front ++ back →
        ∃ counters, simulate (.ofLines front) = .ok counters ∧ Classified front counters) ↔
      (∀ line ∈ lines, ¬SelfBranch line) ∧
        lines.countP (differs staticPrediction) < 2 ^ 31 :=
  simulate_classified_iff _ (by decide)

/-- A single branch to itself is counted as a branch, but in neither direction. -/
theorem simulate_self_branch :
    WellFormedLine "1 10 0 0 0 0 T 0 0 0 0 10" ∧
      ∃ counters, simulate (.ofLines ["1 10 0 0 0 0 T 0 0 0 0 10"]) = .ok counters ∧
        ¬Classified ["1 10 0 0 0 0 T 0 0 0 0 10"] counters := by
  refine ⟨by decide, ⟨1, 0, 0, 0, 0, 0⟩, rfl, ?_⟩
  rintro ⟨hdirections, -, -⟩
  exact absurd hdirections (by decide)

end Coursework.BranchPrediction.Sys1
