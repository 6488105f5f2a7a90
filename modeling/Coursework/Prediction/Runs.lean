import Coursework.Prediction.Table
import Mathlib.Data.List.Destutter

/-!
# Mispredictions of a saturating counter

A two-bit counter predicts what its upper half stands for. Within a run of equal outcomes
it mispredicts at most until it has crossed the middle, which is a matter of its value at
the beginning of the run: two steps at most, and one step in the first run, for a counter
that starts at 1.
-/

namespace Coursework.Prediction

/-- A counter from 2 on predicts the outcome `true`. -/
def mispredicted (c : ℕ) (up : Bool) : Bool := decide (2 ≤ c) != up

/-- The number of outcomes that a counter mispredicts, from a value on. -/
def mispredictions : ℕ → List Bool → ℕ
  | _, [] => 0
  | c, up :: rest =>
    (if mispredicted c up then 1 else 0) + mispredictions (saturate c up) rest

/-- The number of maximal runs of equal outcomes. -/
def runs (outcomes : List Bool) : ℕ := (outcomes.destutter (· ≠ ·)).length

/-- The mispredictions that a run of an outcome still costs, at a value of the counter. -/
def debt (up : Bool) (c : ℕ) : ℕ := if up then 2 - c else c - 1

/-- A counter stays between 0 and 3. -/
theorem saturate_le {c : ℕ} (hc : c ≤ 3) (up : Bool) : saturate c up ≤ 3 := by
  unfold saturate
  split <;> omega

/-- Each misprediction pays off one unit of the debt of its run. -/
theorem mispredicted_add_debt (c : ℕ) (up : Bool) :
    (if mispredicted c up then 1 else 0) + debt up (saturate c up) = debt up c := by
  rcases Nat.lt_or_ge c 2 with hlow | hhigh
  · have hnot : ¬2 ≤ c := Nat.not_le_of_lt hlow
    cases up <;> simp [mispredicted, debt, saturate, hnot] <;> omega
  · cases up <;> simp [mispredicted, debt, saturate, hhigh]
    omega

/-- No run costs more than two mispredictions. -/
theorem debt_le {c : ℕ} (hc : c ≤ 3) (up : Bool) : debt up c ≤ 2 := by
  unfold debt
  split <;> omega

/-- After an outcome a counter mispredicts what is left of its run, and twice for each further
run. -/
theorem mispredictions_le_debt (up : Bool) (rest : List Bool) (c : ℕ) (hc : c ≤ 3) :
    mispredictions c rest + 2 ≤ debt up c + 2 * (rest.destutter' (· ≠ ·) up).length := by
  induction rest generalizing up c with
  | nil => simp [mispredictions]
  | cons next rest ih =>
    have hnext := ih next (saturate c next) (saturate_le hc next)
    have hpaid := mispredicted_add_debt c next
    rw [mispredictions]
    by_cases hsame : up = next
    · subst hsame
      rw [List.destutter'_cons_neg _ (by simp)]
      omega
    · have hdebt := debt_le hc next
      rw [List.destutter'_cons_pos _ hsame, List.length_cons]
      omega

/-- A counter that starts at 1 mispredicts at most twice in each run, and once less in all. -/
theorem mispredictions_le_runs (outcomes : List Bool) (hne : outcomes ≠ []) :
    mispredictions 1 outcomes + 1 ≤ 2 * runs outcomes := by
  cases outcomes with
  | nil => exact absurd rfl hne
  | cons up rest =>
    have hrest := mispredictions_le_debt up rest (saturate 1 up) (saturate_le (by decide) up)
    have hpaid := mispredicted_add_debt 1 up
    have hdebt : debt up 1 ≤ 1 := by cases up <;> decide
    rw [mispredictions, runs, List.destutter_cons']
    omega

end Coursework.Prediction
