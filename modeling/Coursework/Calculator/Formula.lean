import Coursework.Calculator.WholeNumbers
import Mathlib.Data.Option.Defs

/-!
# The formula on the display

The keys alone decide which operations are performed on which operands: whatever the arithmetic,
the display shows the value of one formula. A calculator that computes with formulas finds it,
and two sequences of keys show the same number in every arithmetic only if it is the same.
-/

namespace Coursework.Calculator

open Transition

/-- The numbers that the table of operations names. -/
inductive Constant where
  | pi
  | e
  | zero
  | hundred
  deriving DecidableEq, Repr

/-- What is computed: operations on typed numbers and constants. -/
inductive Formula where
  | number (digits : List (Fin 10))
  | constant (name : Constant)
  | squareRoot (x : Formula)
  | binary (symbol : BinarySymbol) (x y : Formula)
  deriving DecidableEq, Repr

variable {V : Type}

/-- The value of a constant. -/
def Arithmetic.constant (ar : Arithmetic V) : Constant → V
  | .pi => ar.pi
  | .e => ar.e
  | .zero => ar.zero
  | .hundred => ar.hundred

/-- The value of a formula. -/
def Arithmetic.eval (ar : Arithmetic V) : Formula → V
  | .number digits => ar.number digits
  | .constant name => ar.constant name
  | .squareRoot x => ar.squareRoot (ar.eval x)
  | .binary symbol x y => ar.binary symbol (ar.eval x) (ar.eval y)

/-- The letter of a constant. -/
def Constant.letter : Constant → Char
  | .pi => 'p'
  | .e => 'e'
  | .zero => 'z'
  | .hundred => 'h'

/-- The letter of a binary operation. -/
def BinarySymbol.letter : BinarySymbol → Char
  | .plus => '+'
  | .minus => '-'
  | .times => 'x'
  | .over => '/'

/-- A formula as an operand: the operands first, a comma behind a number. -/
def Formula.operand : Formula → List Char
  | .number digits => (digits.map fun d : Fin 10 => Nat.digitChar d) ++ [',']
  | .constant name => [name.letter]
  | .squareRoot x => x.operand ++ ['r']
  | .binary symbol x y => x.operand ++ y.operand ++ [symbol.letter]

/-- The text of a formula, which for a number is that of its digits. -/
def Formula.text : Formula → String
  | .number digits => digitsText digits
  | x => String.ofList x.operand

/-- A text that is read: the digits since the last comma, and the operands, the last one first. -/
structure Reading where
  digits : List (Fin 10)
  stack : List Formula

/-- The digit that a character is. -/
def digitOf (c : Char) : Option (Fin 10) :=
  if c.isDigit then some ⟨(c.toNat - '0'.toNat) % 10, Nat.mod_lt _ (Nat.succ_pos 9)⟩ else none

/-- Read a letter, which takes its operands from the stack. -/
def Reading.letter (r : Reading) (c : Char) : Reading :=
  match c, r.stack with
  | ',', stack => ⟨[], .number r.digits :: stack⟩
  | 'p', stack => ⟨r.digits, .constant .pi :: stack⟩
  | 'e', stack => ⟨r.digits, .constant .e :: stack⟩
  | 'z', stack => ⟨r.digits, .constant .zero :: stack⟩
  | 'h', stack => ⟨r.digits, .constant .hundred :: stack⟩
  | 'r', x :: stack => ⟨r.digits, .squareRoot x :: stack⟩
  | '+', y :: x :: stack => ⟨r.digits, .binary .plus x y :: stack⟩
  | '-', y :: x :: stack => ⟨r.digits, .binary .minus x y :: stack⟩
  | 'x', y :: x :: stack => ⟨r.digits, .binary .times x y :: stack⟩
  | '/', y :: x :: stack => ⟨r.digits, .binary .over x y :: stack⟩
  | _, _ => r

/-- Read a character. -/
def Reading.next (r : Reading) (c : Char) : Reading :=
  match digitOf c with
  | some d => { r with digits := r.digits ++ [d] }
  | none => r.letter c

/-- The formula that has been read. -/
def Reading.formula : Reading → Option Formula
  | ⟨digits, []⟩ => some (.number digits)
  | ⟨[], [x]⟩ => some x
  | _ => none

/-- The formula of a text. -/
def readFormula (text : String) : Option Formula :=
  (text.toList.foldl Reading.next ⟨[], []⟩).formula

/-- The arithmetic of formulas, which leaves everything to be computed. -/
def formulas : Arithmetic Formula where
  pi := .constant .pi
  e := .constant .e
  zero := .constant .zero
  hundred := .constant .hundred
  squareRoot := .squareRoot
  add := .binary .plus
  subtract := .binary .minus
  multiply := .binary .times
  divide := .binary .over
  toText := Formula.text
  ofText := readFormula

/-- Digits are read as such. -/
theorem foldl_next_digits (digits before : List (Fin 10)) (stack : List Formula) :
    (digits.map fun d : Fin 10 => Nat.digitChar d).foldl Reading.next ⟨before, stack⟩ =
      ⟨before ++ digits, stack⟩ := by
  have hdigit : ∀ d : Fin 10, digitOf (Nat.digitChar d) = some d := by decide
  induction digits generalizing before with
  | nil => rw [List.append_nil, List.map_nil, List.foldl_nil]
  | cons d rest ih =>
    have hnext : Reading.next ⟨before, stack⟩ (Nat.digitChar d) = ⟨before ++ [d], stack⟩ := by
      rw [Reading.next, hdigit]
    rw [List.map_cons, List.foldl_cons, hnext, ih, List.append_assoc]
    rfl

/-- An operand is read onto the stack. -/
theorem foldl_next_operand (x : Formula) (stack : List Formula) :
    x.operand.foldl Reading.next ⟨[], stack⟩ = ⟨[], x :: stack⟩ := by
  induction x generalizing stack with
  | number digits =>
    rw [Formula.operand, List.foldl_append, foldl_next_digits]
    rfl
  | constant name => cases name <;> rfl
  | squareRoot x ih =>
    rw [Formula.operand, List.foldl_append, ih]
    rfl
  | binary symbol x y ihx ihy =>
    rw [Formula.operand, List.foldl_append, List.foldl_append, ihx, ihy]
    cases symbol <;> rfl

/-- The text of digits is read as a number. -/
theorem readFormula_digitsText (digits : List (Fin 10)) :
    readFormula (digitsText digits) = some (.number digits) := by
  rw [readFormula, toList_digitsText, foldl_next_digits]
  rfl

/-- The text of a formula is read back. -/
theorem readFormula_text (x : Formula) : readFormula x.text = some x := by
  have hoperand : readFormula (String.ofList x.operand) = some x := by
    rw [readFormula, String.toList_ofList, foldl_next_operand]
    rfl
  cases x with
  | number digits => exact readFormula_digitsText digits
  | constant name => exact hoperand
  | squareRoot x => exact hoperand
  | binary symbol x y => exact hoperand

/-- Formulas have readable texts. -/
theorem formulas_text : formulas.Text where
  ofText_toText := readFormula_text
  ofText_digitsText digits _ := Option.isSome_of_eq_some (readFormula_digitsText digits)

/-- Typed digits denote themselves. -/
theorem formulas_number (digits : List (Fin 10)) : formulas.number digits = .number digits :=
  congrArg (·.getD formulas.zero) (readFormula_digitsText digits)

/-- The value of a unary operation on formulas is that of the operation on the value. -/
theorem eval_unary (ar : Arithmetic V) (symbol : UnarySymbol) (x : Formula) :
    ar.eval (formulas.unary symbol x) = ar.unary symbol (ar.eval x) := by
  cases symbol <;> rfl

/-- The value of a binary operation on formulas is that of the operation on the values. -/
theorem eval_binary (ar : Arithmetic V) (symbol : BinarySymbol) (x y : Formula) :
    ar.eval (formulas.binary symbol x y) = ar.binary symbol (ar.eval x) (ar.eval y) := by
  cases symbol <;> rfl

/-- A pending operation on formulas stands for one on their values. -/
structure Denotes (ar : Arithmetic V) (formal : PendingBinaryOperation Formula)
    (operation : PendingBinaryOperation V) : Prop where
  firstOperand : operation.firstOperand = ar.eval formal.firstOperand
  function : ∀ x y, operation.function (ar.eval x) (ar.eval y) = ar.eval (formal.function x y)

/-- A desk shows the values of what a desk of formulas shows. -/
structure Evaluates (ar : Arithmetic V) (formal : Desk Formula) (desk : Desk V) : Prop where
  value : desk.value = ar.eval formal.value
  typed : desk.typed = formal.typed
  pending : Option.Rel (Denotes ar) formal.pending desk.pending
  outstanding : desk.outstanding = formal.outstanding
  repeated : desk.repeated = formal.repeated

section Evaluates

variable {ar : Arithmetic V} {formal : Desk Formula} {d : Desk V}

/-- The pending operations have one value. -/
theorem Evaluates.due (h : Evaluates ar formal d) : d.due = ar.eval formal.due := by
  rw [Desk.due, Desk.due]
  have hpending := h.pending
  cases hformal : formal.pending with
  | none =>
    rw [hformal] at hpending
    cases hdesk : d.pending with
    | none => exact h.value
    | some operation =>
      rw [hdesk] at hpending
      cases hpending
  | some formula =>
    rw [hformal] at hpending
    cases hdesk : d.pending with
    | none =>
      rw [hdesk] at hpending
      cases hpending
    | some operation =>
      rw [hdesk] at hpending
      cases hpending with
      | some hdenotes =>
        simp only [PendingBinaryOperation.perform]
        rw [hdenotes.firstOperand, h.value, hdenotes.function]

/-- The first operands have one value. -/
theorem Evaluates.firstOperand (h : Evaluates ar formal d) :
    d.firstOperand = ar.eval formal.firstOperand := by
  rw [Desk.firstOperand, Desk.firstOperand, h.outstanding, h.due, h.value]
  split_ifs <;> rfl

/-- Every key is pressed on formulas as on their values. -/
theorem Evaluates.press (h : Evaluates ar formal d) (key : Key) :
    Evaluates ar (formal.press formulas key) (d.press ar key) := by
  cases key with
  | digit digit =>
    refine ⟨?_, ?_, h.pending, h.outstanding, rfl⟩
    · change ar.number (d.typed ++ [digit]) = ar.eval (formulas.number (formal.typed ++ [digit]))
      rw [formulas_number, h.typed]
      rfl
    · exact congrArg (· ++ [digit]) h.typed
  | operation symbol =>
    cases symbol with
    | pi => exact ⟨rfl, rfl, h.pending, h.outstanding, h.repeated⟩
    | e => exact ⟨rfl, rfl, h.pending, h.outstanding, h.repeated⟩
    | unary symbol =>
      refine ⟨?_, rfl, h.pending, h.outstanding, h.repeated⟩
      change ar.unary symbol d.value = _
      rw [h.value]
      exact (eval_unary ar symbol formal.value).symm
    | binary symbol =>
      change Evaluates ar (formal.operate formulas (.binary symbol)) (d.operate ar (.binary symbol))
      cases hrepeated : formal.repeated with
      | true =>
        rw [formal.operate_binary_of_repeated formulas symbol hrepeated,
          d.operate_binary_of_repeated ar symbol (h.repeated.trans hrepeated)]
        exact ⟨h.value, rfl, h.pending, h.outstanding, h.repeated⟩
      | false =>
        rw [formal.operate_binary formulas symbol hrepeated,
          d.operate_binary ar symbol (h.repeated.trans hrepeated)]
        refine ⟨h.value, rfl, .some ⟨h.firstOperand, fun x y => ?_⟩, rfl, rfl⟩
        exact (eval_binary ar symbol x y).symm
    | equals => exact ⟨h.due, rfl, h.pending, rfl, h.repeated⟩
    | clears => exact ⟨rfl, rfl, .none, rfl, rfl⟩

end Evaluates

/-- The formula whose value the display shows after a sequence of keys. -/
def formulaAfter (history : List Key) : Formula :=
  ((desk formulas).run (.launched formulas) history).value

/-- Every sequence of keys leaves the value of its formula on the display. -/
theorem exists_run_formula {ar : Arithmetic V} (h : ar.Text) (history : List Key) :
    ∃ vc, (calculator ar).run .launch history = some vc ∧
      vc.displayValue ar = some (ar.eval (formulaAfter history)) := by
  have hlaunch : Evaluates ar (.launched formulas) (.launched ar) := by
    refine ⟨?_, rfl, .none, rfl, rfl⟩
    exact (congrArg ar.eval (formulas_number _)).symm
  have hrun : ∀ keys formal (d : Desk V), Evaluates ar formal d →
      Evaluates ar ((desk formulas).run formal keys) ((desk ar).run d keys) := by
    intro keys
    induction keys with
    | nil => exact fun _ _ hd => hd
    | cons key rest ih => exact fun _ _ hd => ih _ _ (hd.press key)
  obtain ⟨vc, hvc, hshows⟩ := exists_run_launch h history
  exact ⟨vc, hvc, hshows.value.trans (congrArg some (hrun history _ _ hlaunch).value)⟩

/-- Every formula is its own value in the arithmetic of formulas. -/
theorem eval_formulas (x : Formula) : formulas.eval x = x := by
  induction x with
  | number digits => exact formulas_number digits
  | constant name => cases name <;> rfl
  | squareRoot x ih => exact congrArg Formula.squareRoot ih
  | binary symbol x y ihx ihy =>
    rw [Arithmetic.eval, ihx, ihy]
    cases symbol <;> rfl

/-- In every arithmetic the display shows the value of the formula of the keys, and two sequences of
keys show the same number in every arithmetic exactly if they have one formula. -/
theorem display_formula (history : List Key) :
    (∀ (V : Type) (ar : Arithmetic V), ar.Text →
      ∃ vc, (calculator ar).run .launch history = some vc ∧
        vc.displayValue ar = some (ar.eval (formulaAfter history))) ∧
      ∀ other : List Key,
        (∀ (V : Type) (ar : Arithmetic V), ar.Text →
          ((calculator ar).run .launch history).bind (·.displayValue ar) =
            ((calculator ar).run .launch other).bind (·.displayValue ar)) ↔
          formulaAfter history = formulaAfter other := by
  have hdisplay : ∀ {V : Type} {ar : Arithmetic V}, ar.Text → ∀ keys,
      ((calculator ar).run .launch keys).bind (·.displayValue ar) =
        some (ar.eval (formulaAfter keys)) := by
    intro V ar h keys
    obtain ⟨vc, hvc, hvalue⟩ := exists_run_formula h keys
    rw [hvc]
    exact hvalue
  refine ⟨fun V ar h => exists_run_formula h history, fun other => ⟨fun hsame => ?_, ?_⟩⟩
  · have hboth := hsame Formula formulas formulas_text
    rw [hdisplay formulas_text, hdisplay formulas_text, eval_formulas, eval_formulas] at hboth
    exact Option.some.inj hboth
  · intro hsame V ar h
    rw [hdisplay h, hdisplay h, hsame]

/-- Key `=` pressed twice after `1 + 2` adds 1 twice. -/
example : formulaAfter [.digit 1, .operation (.binary .plus), .digit 2, .operation .equals,
    .operation .equals] =
      .binary .plus (.number [1]) (.binary .plus (.number [1]) (.number [2])) := by decide

end Coursework.Calculator
