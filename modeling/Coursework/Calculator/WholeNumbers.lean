import Coursework.Calculator.Desk
import Mathlib.Data.List.TakeWhile

/-!
# Two interpretations of the arithmetic

On whole numbers the text of a number is its decimal numeral with `.0`. One interpretation
computes as usual; in the other no binary operation returns one of its operands.
-/

namespace Coursework.Calculator

/-- The text of a whole number. -/
def wholeNumberText (x : ℕ) : String := String.ofList (Nat.toDigits 10 x ++ ['.', '0'])

/-- The whole number before the decimal point of a text. -/
def readWholeNumber (text : String) : Option ℕ :=
  some (Nat.ofDigitChars 10 (text.toList.takeWhile Char.isDigit) 0)

/-- The arithmetic of whole numbers. -/
def wholeNumbers : Arithmetic ℕ where
  pi := 3
  e := 2
  zero := 0
  hundred := 100
  squareRoot := Nat.sqrt
  add := fun x y => x + y
  subtract := fun x y => x - y
  multiply := fun x y => x * y
  divide := fun x y => x / y
  toText := wholeNumberText
  ofText := readWholeNumber

/-- Every binary operation counts one more than the sum of its operands. -/
def counting : Arithmetic ℕ where
  pi := 0
  e := 0
  zero := 0
  hundred := 0
  squareRoot := fun x => x
  add := fun x y => x + y + 1
  subtract := fun x y => x + y + 1
  multiply := fun x y => x + y + 1
  divide := fun x y => x + y + 1
  toText := wholeNumberText
  ofText := readWholeNumber

/-- The text of a whole number is read back. -/
theorem readWholeNumber_wholeNumberText (x : ℕ) : readWholeNumber (wholeNumberText x) = some x := by
  have hdigits : ∀ c ∈ Nat.toDigits 10 x, c.isDigit = true := by
    intro c hc
    exact Nat.isDigit_of_mem_toDigits (by decide) (by decide) hc
  have hfraction : ['.', '0'].takeWhile Char.isDigit = [] := by decide
  rw [readWholeNumber, wholeNumberText, String.toList_ofList,
    List.takeWhile_append_of_pos hdigits, hfraction, List.append_nil, Nat.ofDigitChars_ten_toDigits]

/-- The usual interpretation has readable texts. -/
theorem wholeNumbers_text : wholeNumbers.Text :=
  ⟨readWholeNumber_wholeNumberText, fun _ _ => rfl⟩

/-- The counting interpretation has readable texts. -/
theorem counting_text : counting.Text := ⟨readWholeNumber_wholeNumberText, fun _ _ => rfl⟩

/-- The characters of typed digits. -/
theorem toList_digitsText (digits : List (Fin 10)) :
    (digitsText digits).toList = digits.map fun d : Fin 10 => Nat.digitChar d := by
  induction digits with
  | nil => rfl
  | cons d rest ih =>
    change (String.join (digitText d :: rest.map digitText)).toList = _
    rw [String.join_cons, String.toList_append, digitText, String.toList_singleton]
    exact congrArg (Nat.digitChar d :: ·) ih

/-- Typed digits are read as a decimal numeral. -/
theorem ofDigitChars_digits (digits : List (Fin 10)) (start : ℕ) :
    Nat.ofDigitChars 10 (digits.map fun d : Fin 10 => Nat.digitChar d) start =
      digits.foldl (fun (x : ℕ) (d : Fin 10) => 10 * x + d) start := by
  induction digits generalizing start with
  | nil => exact Nat.ofDigitChars_nil
  | cons d rest ih =>
    rw [List.map_cons, Nat.ofDigitChars_cons_digitChar_of_lt_ten d.isLt]
    exact ih _

/-- The number that typed digits denote. -/
theorem wholeNumbers_number (digits : List (Fin 10)) :
    wholeNumbers.number digits = digits.foldl (fun (x : ℕ) (d : Fin 10) => 10 * x + d) 0 := by
  have hdigit : ∀ d : Fin 10, (Nat.digitChar d).isDigit = true := by decide
  have hdigits : (digits.map fun d : Fin 10 => Nat.digitChar d).takeWhile Char.isDigit =
      digits.map fun d : Fin 10 => Nat.digitChar d := by
    rw [List.takeWhile_eq_self_iff]
    intro c hc
    obtain ⟨d, -, rfl⟩ := List.mem_map.mp hc
    exact hdigit d
  rw [← ofDigitChars_digits]
  simp only [Arithmetic.number, wholeNumbers, readWholeNumber, toList_digitsText, hdigits,
    Option.getD_some]

end Coursework.Calculator
