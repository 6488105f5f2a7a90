import Mathlib.Algebra.Order.BigOperators.Group.Finset

/-!
# Sums over the parts of a state

A step that changes one part of a state changes a sum over all parts by the summand of that
part.
-/

namespace Coursework.Transition

variable {ι : Type*} [DecidableEq ι]

/-- Changing one value changes a sum by its own summand. -/
theorem sum_update_add {α M : Type*} [AddCommMonoid M] (t : Finset ι) (f : ι → α → M)
    (values : ι → α) (i : ι) (v : α) :
    (∑ j ∈ t, f j (Function.update values i v j)) + (if i ∈ t then f i (values i) else 0) =
      (∑ j ∈ t, f j (values j)) + if i ∈ t then f i v else 0 := by
  have hrest : ∀ j ∈ t.erase i, f j (Function.update values i v j) = f j (values j) := by
    intro j hj
    rw [Function.update_of_ne (Finset.ne_of_mem_erase hj)]
  by_cases hi : i ∈ t
  · rw [if_pos hi, if_pos hi, ← Finset.sum_erase_add _ _ hi, ← Finset.sum_erase_add _ _ hi,
      Function.update_self, Finset.sum_congr rfl hrest, add_right_comm]
  · rw [Finset.erase_eq_of_notMem hi] at hrest
    rw [if_neg hi, if_neg hi, Finset.sum_congr rfl hrest]

/-- A sum that the changed value contributes the same to is unchanged. -/
theorem sum_update_of_eq {α M : Type*} [AddCommMonoid M] (t : Finset ι) (f : α → M)
    (values : ι → α) (i : ι) (v : α) (h : f v = f (values i)) :
    ∑ j ∈ t, f (Function.update values i v j) = ∑ j ∈ t, f (values j) := by
  apply Finset.sum_congr rfl
  intro j _
  by_cases hj : j = i
  · subst hj
    rw [Function.update_self, h]
  · rw [Function.update_of_ne hj]

/-- A count that the changed value raises by one. -/
theorem sum_update_succ {α : Type*} (t : Finset ι) (f : α → ℕ) (values : ι → α) (i : ι) (v : α)
    (h : f v = f (values i) + 1) :
    ∑ j ∈ t, f (Function.update values i v j) =
      (∑ j ∈ t, f (values j)) + if i ∈ t then 1 else 0 := by
  have hsum := sum_update_add t (fun _ => f) values i v
  by_cases hi : i ∈ t
  · rw [if_pos hi, if_pos hi, h] at hsum
    rw [if_pos hi]
    omega
  · rw [if_neg hi, if_neg hi, add_zero] at hsum
    rw [if_neg hi, hsum]

end Coursework.Transition
