import Coursework.Prediction.Runs

/-!
# A saturating counter and one prediction for all outcomes

The debt of a counter towards one outcome pays for its mispredictions of that outcome, and
each other outcome costs at most one misprediction and one unit of debt. So a counter
mispredicts at most twice as often as the better of the two constant predictions, which is
known only when all outcomes are.
-/

namespace Coursework.Prediction

/-- An outcome that differs from a prediction costs a misprediction and a unit of debt at most. -/
theorem mispredicted_not_add_debt (c : ℕ) (predicted : Bool) :
    (if mispredicted c (!predicted) then 1 else 0) + debt predicted (saturate c (!predicted)) ≤
      debt predicted c + 2 := by
  rcases Nat.lt_or_ge c 2 with hlow | hhigh
  · have hnot : ¬2 ≤ c := Nat.not_le_of_lt hlow
    cases predicted <;> simp [mispredicted, debt, saturate, hnot] <;> omega
  · cases predicted <;> simp [mispredicted, debt, saturate, hhigh]
    omega

/-- A counter mispredicts at most its debt towards a prediction, and twice for each other outcome. -/
theorem mispredictions_le_constant (predicted : Bool) (c : ℕ) (outcomes : List Bool) :
    mispredictions c outcomes ≤ debt predicted c + 2 * outcomes.count (!predicted) := by
  induction outcomes generalizing c with
  | nil => exact Nat.zero_le _
  | cons up rest ih =>
    have hrest := ih (saturate c up)
    rw [mispredictions, List.count_cons]
    by_cases hsame : up = predicted
    · subst hsame
      have hpaid := mispredicted_add_debt c up
      simp only [beq_iff_eq, Bool.eq_not_self, if_false]
      omega
    · obtain rfl := Bool.eq_not_of_ne hsame
      have hcost := mispredicted_not_add_debt c predicted
      simp only [beq_self_eq_true, if_true]
      omega

/-- A counter that starts at 1 owes one misprediction towards taken branches, and none towards
others. -/
theorem mispredictions_le_static (predicted : Bool) (outcomes : List Bool) :
    mispredictions 1 outcomes ≤ (if predicted then 1 else 0) + 2 * outcomes.count (!predicted) := by
  have hle := mispredictions_le_constant predicted 1 outcomes
  cases predicted <;> exact hle

end Coursework.Prediction
