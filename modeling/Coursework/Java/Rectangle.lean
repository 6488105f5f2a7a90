import Mathlib.Data.Int.Init

/-!
# `java.awt.Rectangle`

Corner, width and height of a rectangle, and its intersection test, for coordinates within
the range of `int`.
-/

namespace Coursework.Java

/-- `java.awt.Rectangle`. -/
structure Rectangle where
  x : ℤ
  y : ℤ
  width : ℤ
  height : ℤ

/-- `intersects`: empty rectangles intersect nothing. -/
def Rectangle.intersects (first second : Rectangle) : Bool :=
  0 < first.width ∧ 0 < first.height ∧ 0 < second.width ∧ 0 < second.height ∧
    second.x < first.x + first.width ∧ first.x < second.x + second.width ∧
    second.y < first.y + first.height ∧ first.y < second.y + second.height

/-- The conditions of the test. -/
theorem Rectangle.intersects_iff (first second : Rectangle) :
    first.intersects second = true ↔
      0 < first.width ∧ 0 < first.height ∧ 0 < second.width ∧ 0 < second.height ∧
        second.x < first.x + first.width ∧ first.x < second.x + second.width ∧
        second.y < first.y + first.height ∧ first.y < second.y + second.height :=
  decide_eq_true_iff

/-- The test is symmetric. -/
theorem Rectangle.intersects_comm (first second : Rectangle) :
    first.intersects second = second.intersects first := by
  rw [Bool.eq_iff_iff, Rectangle.intersects_iff, Rectangle.intersects_iff]
  constructor <;> rintro ⟨_, _, _, _, _, _, _, _⟩ <;> refine ⟨?_, ?_, ?_, ?_, ?_, ?_, ?_, ?_⟩ <;>
    assumption

/-- A rectangle that grows from its corner intersects what it did before. -/
theorem Rectangle.intersects_grow {first second : Rectangle} {width height : ℤ}
    (h : first.intersects second = true) (hwidth : first.width ≤ width)
    (hheight : first.height ≤ height) :
    Rectangle.intersects ⟨first.x, first.y, width, height⟩ second = true := by
  rw [Rectangle.intersects_iff] at h ⊢
  obtain ⟨hw, hh, hw', hh', hright, hleft, hbottom, htop⟩ := h
  simp only
  omega

/-- A rectangle that is cut in two intersects what one of its parts does. -/
theorem Rectangle.intersects_cut {x y width rest height : ℤ} (hwidth : 0 < width) (hrest : 0 < rest)
    (second : Rectangle) :
    Rectangle.intersects ⟨x, y, width + rest, height⟩ second =
      (Rectangle.intersects ⟨x, y, width, height⟩ second ||
        Rectangle.intersects ⟨x + width, y, rest, height⟩ second) := by
  rw [Bool.eq_iff_iff, Bool.or_eq_true, Rectangle.intersects_iff, Rectangle.intersects_iff,
    Rectangle.intersects_iff]
  simp only
  omega

end Coursework.Java
