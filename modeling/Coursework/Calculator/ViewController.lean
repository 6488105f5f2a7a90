import Coursework.Calculator.CalculatorBrain
import Coursework.Transition.Observation

/-!
# The display and the keys of the calculator

A digit key changes the text of the display. Every other key reads the display as a
number, lets the brain perform its operation, and shows the result if there is one.
-/

namespace Coursework.Calculator

open Transition

/-- A key: a digit, or one that performs an operation. -/
inductive Key where
  | digit (d : Fin 10)
  | operation (symbol : Symbol)
  deriving DecidableEq, Repr

/-- The title of a digit key. -/
def digitText (d : Fin 10) : String := String.singleton (Nat.digitChar d)

/-- The text that a sequence of digit keys types. -/
def digitsText (digits : List (Fin 10)) : String := String.join (digits.map digitText)

variable {V : Type}

/-- `ViewController`, with the text of the display. -/
structure ViewController (V : Type) where
  display : String
  brain : CalculatorBrain V
  userIsCurrentlyTyping : Bool

/-- The screen after launch. -/
def ViewController.launch : ViewController V := ⟨"0", .new, false⟩

/-- `numberButtonPressed`. -/
def ViewController.numberButtonPressed (vc : ViewController V) (buttonText : String) :
    ViewController V :=
  if vc.userIsCurrentlyTyping then
    { vc with display := vc.display ++ buttonText, brain := vc.brain.setOperation }
  else
    { vc with
      display := buttonText
      userIsCurrentlyTyping := true
      brain := vc.brain.setOperation }

/-- The getter of `displayValue`, which fails on a text that is no number. -/
def ViewController.displayValue (ar : Arithmetic V) (vc : ViewController V) : Option V :=
  ar.ofText vc.display

/-- `operationButtonPressed`. -/
def ViewController.operationButtonPressed (ar : Arithmetic V) (vc : ViewController V)
    (mathematicalSymbol : Symbol) : Option (ViewController V) := do
  let operand ← vc.displayValue ar
  let brain := (vc.brain.setOperand operand).performOperation ar mathematicalSymbol
  match brain.result with
  | some result => return ⟨ar.toText result, brain, false⟩
  | none => return ⟨vc.display, brain, false⟩

/-- The effect of a key. -/
def ViewController.press (ar : Arithmetic V) (vc : ViewController V) :
    Key → Option (ViewController V)
  | .digit d => some (vc.numberButtonPressed (digitText d))
  | .operation symbol => vc.operationButtonPressed ar symbol

/-- The calculator, observed by the number on its display. -/
def calculator (ar : Arithmetic V) : Machine (ViewController V) Key (Option V) where
  step := ViewController.press ar
  observe := ViewController.displayValue ar

end Coursework.Calculator
