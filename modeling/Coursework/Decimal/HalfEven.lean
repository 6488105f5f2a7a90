import Mathlib.Algebra.Order.Floor.Ring
import Mathlib.Algebra.Ring.Int.Parity
import Mathlib.Data.Rat.Floor
import Mathlib.Tactic.Linarith
import Mathlib.Tactic.NormNum
import Mathlib.Tactic.FieldSimp

/-!
# Rounding to the nearest integer, half to even

A number is rounded to an integer less than a half away, or to the even one of the two that
are a half away. For a fraction this is decided on its numerator.
-/

namespace Coursework.Decimal

variable {α : Type*} [Field α] [LinearOrder α] [IsStrictOrderedRing α] [FloorRing α]

/-- The integer nearest to a number; of two that are as near, the even one. -/
def roundHalfEven (x : α) : ℤ :=
  if Int.fract x < 1 / 2 then ⌊x⌋
  else if 1 / 2 < Int.fract x then ⌊x⌋ + 1
  else if ⌊x⌋ % 2 = 0 then ⌊x⌋ else ⌊x⌋ + 1

/-- An integer that a number is rounded to: it is less than a half away, or a half away and even. -/
def RoundsTo (x : α) (n : ℤ) : Prop := |x - n| < 1 / 2 ∨ |x - n| = 1 / 2 ∧ n % 2 = 0

/-- A number is rounded to the integer that `roundHalfEven` gives. -/
theorem roundsTo_roundHalfEven (x : α) : RoundsTo x (roundHalfEven x) := by
  have hfloor : x = ⌊x⌋ + Int.fract x := (Int.floor_add_fract x).symm
  have hnonneg : 0 ≤ Int.fract x := Int.fract_nonneg x
  have hlt : Int.fract x < 1 := Int.fract_lt_one x
  rw [RoundsTo, roundHalfEven]
  split_ifs with hbelow habove heven
  · left
    rw [abs_lt]
    constructor <;> linarith
  · left
    rw [abs_lt]
    push_cast
    constructor <;> linarith
  · right
    have hhalf : x - ⌊x⌋ = 1 / 2 := by linarith
    exact ⟨by rw [hhalf, abs_of_pos (by norm_num)], heven⟩
  · right
    have hhalf : x - (⌊x⌋ + 1 : ℤ) = -(1 / 2) := by
      push_cast
      linarith
    exact ⟨by rw [hhalf, abs_neg, abs_of_pos (by norm_num)], by omega⟩

/-- A number is rounded to one integer. -/
theorem RoundsTo.unique {x : α} {n m : ℤ} (hn : RoundsTo x n) (hm : RoundsTo x m) : n = m := by
  have hnear : ∀ k : ℤ, RoundsTo x k → |x - k| ≤ 1 / 2 := fun k hk =>
    hk.elim le_of_lt fun h => h.1.le
  have hle : |((n - m : ℤ) : α)| ≤ 1 := by
    have htriangle := abs_sub_le (n : α) x m
    rw [abs_sub_comm (n : α) x] at htriangle
    push_cast
    linarith [hnear n hn, hnear m hm]
  have hcases : |n - m| ≤ 1 := by exact_mod_cast hle
  by_contra hne
  have hone : |n - m| = 1 := le_antisymm hcases (Int.one_le_abs (sub_ne_zero.mpr hne))
  have hfar : (1 : α) = |((n - m : ℤ) : α)| := by
    rw [← Int.cast_abs, hone, Int.cast_one]
  have htriangle : |((n - m : ℤ) : α)| ≤ |x - n| + |x - m| := by
    rw [abs_sub_comm x (n : α)]
    push_cast
    exact abs_sub_le _ _ _
  have hparity : n % 2 = 0 ∧ m % 2 = 0 := by
    constructor
    · refine (hn.resolve_left fun hlt => ?_).2
      linarith [hnear m hm]
    · refine (hm.resolve_left fun hlt => ?_).2
      linarith [hnear n hn]
  rw [abs_eq (by norm_num)] at hone
  omega

/-- The integer that a number is rounded to. -/
theorem roundHalfEven_eq_iff {x : α} {n : ℤ} : roundHalfEven x = n ↔ RoundsTo x n :=
  ⟨fun h => h ▸ roundsTo_roundHalfEven x, fun h => (roundsTo_roundHalfEven x).unique h⟩

/-- An integer is rounded to itself. -/
theorem roundHalfEven_intCast (n : ℤ) : roundHalfEven (n : α) = n :=
  roundHalfEven_eq_iff.mpr (Or.inl (by rw [sub_self, abs_zero]; norm_num))

/-- A fraction with an even denominator is rounded by its numerator. -/
theorem roundHalfEven_div_eq_iff {numerator half n : ℤ} (hpos : 0 < half) :
    roundHalfEven ((numerator : α) / (2 * half : ℤ)) = n ↔
      |numerator - 2 * half * n| < half ∨ |numerator - 2 * half * n| = half ∧ n % 2 = 0 := by
  have hhalf : (0 : α) < half := Int.cast_pos.mpr hpos
  have hscaled : |(numerator : α) / (2 * half : ℤ) - n| =
      |((numerator - 2 * half * n : ℤ) : α)| / (2 * half) := by
    have hdiff : (numerator : α) / (2 * half : ℤ) - n =
        ((numerator - 2 * half * n : ℤ) : α) / (2 * half) := by
      push_cast
      field_simp
    rw [hdiff, abs_div, abs_of_pos (mul_pos two_pos hhalf)]
  have hcast : |((numerator - 2 * half * n : ℤ) : α)| = (|numerator - 2 * half * n| : ℤ) :=
    (Int.cast_abs).symm
  rw [roundHalfEven_eq_iff, RoundsTo, hscaled, hcast, div_lt_iff₀ (mul_pos two_pos hhalf),
    div_eq_iff (mul_pos two_pos hhalf).ne']
  have hside : (1 : α) / 2 * (2 * half) = half := by field_simp
  rw [hside, Int.cast_lt, Int.cast_inj]

end Coursework.Decimal
