import Mathlib.Init

/-!
# The brain of the calculator

The brain holds an accumulator, a pending binary operation and two flags. Its arithmetic,
and the text of its numbers, are those of `Double`; they are parameters here.
-/

namespace Coursework.Calculator

/-- The operations on `Double` that the calculator uses, and the text of a `Double`. -/
structure Arithmetic (V : Type) where
  pi : V
  e : V
  zero : V
  hundred : V
  squareRoot : V → V
  add : V → V → V
  subtract : V → V → V
  multiply : V → V → V
  divide : V → V → V
  toText : V → String
  ofText : String → Option V

/-- The unary operations `sqrt`, `x^2`, `%` and the change of sign. -/
inductive UnarySymbol where
  | sqrt
  | square
  | percent
  | sign
  deriving DecidableEq, Repr

/-- The binary operations `+`, `-`, `x` and `/`. -/
inductive BinarySymbol where
  | plus
  | minus
  | times
  | over
  deriving DecidableEq, Repr

/-- The keys of the table of operations: `pi`, `e`, the unary and binary operations, `=` and `C`. -/
inductive Symbol where
  | pi
  | e
  | unary (symbol : UnarySymbol)
  | binary (symbol : BinarySymbol)
  | equals
  | clears
  deriving DecidableEq, Repr

variable {V : Type}

/-- `CalculatorBrain.Operation`. -/
inductive Operation (V : Type) where
  | constant (value : V)
  | unaryOperation (function : V → V)
  | binareOperation (function : V → V → V)
  | equals
  | clears

/-- The function of a unary operation. -/
def Arithmetic.unary (ar : Arithmetic V) : UnarySymbol → V → V
  | .sqrt, x => ar.squareRoot x
  | .square, x => ar.multiply x x
  | .percent, x => ar.divide x ar.hundred
  | .sign, x => ar.subtract ar.zero x

/-- The function of a binary operation. -/
def Arithmetic.binary (ar : Arithmetic V) : BinarySymbol → V → V → V
  | .plus => ar.add
  | .minus => ar.subtract
  | .times => ar.multiply
  | .over => ar.divide

/-- The table `operations`. -/
def Arithmetic.operations (ar : Arithmetic V) : Symbol → Operation V
  | .pi => .constant ar.pi
  | .e => .constant ar.e
  | .unary symbol => .unaryOperation (ar.unary symbol)
  | .binary symbol => .binareOperation (ar.binary symbol)
  | .equals => .equals
  | .clears => .clears

/-- `CalculatorBrain.PendingBinaryOperation`. -/
structure PendingBinaryOperation (V : Type) where
  firstOperand : V
  function : V → V → V

/-- `PendingBinaryOperation.perform`. -/
def PendingBinaryOperation.perform (operation : PendingBinaryOperation V) (secondOperand : V) : V :=
  operation.function operation.firstOperand secondOperand

/-- `CalculatorBrain`. -/
structure CalculatorBrain (V : Type) where
  accumulator : Option V
  binaryOperationPressed : Bool
  operationPressRepeat : Bool
  currentPendingBinaryOperation : Option (PendingBinaryOperation V)

/-- A new brain. -/
def CalculatorBrain.new : CalculatorBrain V := ⟨none, false, false, none⟩

/-- `performBinaryOperation`. -/
def CalculatorBrain.performBinaryOperation (brain : CalculatorBrain V) : CalculatorBrain V :=
  match brain.currentPendingBinaryOperation, brain.accumulator with
  | some operation, some secondOperand =>
    { brain with accumulator := some (operation.perform secondOperand) }
  | _, _ => brain

/-- The part of a binary operation that is skipped when an operation was pressed before. -/
def CalculatorBrain.install (brain : CalculatorBrain V) (function : V → V → V) :
    CalculatorBrain V :=
  let brain := if brain.binaryOperationPressed then brain.performBinaryOperation else brain
  let brain :=
    match brain.accumulator with
    | some firstOperand =>
      { brain with
        currentPendingBinaryOperation := some ⟨firstOperand, function⟩
        accumulator := none }
    | none => brain
  { brain with binaryOperationPressed := true }

/-- `performOperation`. -/
def CalculatorBrain.performOperation (ar : Arithmetic V) (brain : CalculatorBrain V)
    (mathematicalSymbol : Symbol) : CalculatorBrain V :=
  match ar.operations mathematicalSymbol with
  | .constant value => { brain with accumulator := some value }
  | .unaryOperation function =>
    match brain.accumulator with
    | some value => { brain with accumulator := some (function value) }
    | none => brain
  | .binareOperation function =>
    let brain := if !brain.operationPressRepeat then brain.install function else brain
    { brain with operationPressRepeat := true }
  | .equals => { brain.performBinaryOperation with binaryOperationPressed := false }
  | .clears => ⟨some ar.zero, false, false, none⟩

/-- `setOperation`. -/
def CalculatorBrain.setOperation (brain : CalculatorBrain V) : CalculatorBrain V :=
  { brain with operationPressRepeat := false }

/-- `setOperand`. -/
def CalculatorBrain.setOperand (brain : CalculatorBrain V) (operand : V) : CalculatorBrain V :=
  { brain with accumulator := some operand }

/-- `result`. -/
def CalculatorBrain.result (brain : CalculatorBrain V) : Option V := brain.accumulator

end Coursework.Calculator
