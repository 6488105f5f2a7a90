import Coursework.Calculator.ViewController

/-!
# A calculator without texts

The display of this calculator is a number and it has no accumulator: every operation
key loads the accumulator from the display first. It never fails, and it simulates the
calculator whenever the text of a number is read back as that number.
-/

namespace Coursework.Calculator

open Transition

variable {V : Type}

/-- `Double(String(x))` is `x`, and every nonempty sequence of digits is the text of a number. -/
structure Arithmetic.Text (ar : Arithmetic V) : Prop where
  ofText_toText : ∀ x, ar.ofText (ar.toText x) = some x
  ofText_digitsText : ∀ digits, digits ≠ [] → (ar.ofText (digitsText digits)).isSome

/-- The number that a sequence of digits denotes. -/
def Arithmetic.number (ar : Arithmetic V) (digits : List (Fin 10)) : V :=
  (ar.ofText (digitsText digits)).getD ar.zero

/-- The number on the display, the digits of an operand that is being typed, and the part of the
brain that outlives a key. -/
structure Desk (V : Type) where
  value : V
  typed : List (Fin 10)
  pending : Option (PendingBinaryOperation V)
  outstanding : Bool
  repeated : Bool

/-- The desk right after key `C`. -/
def Desk.cleared (ar : Arithmetic V) : Desk V := ⟨ar.zero, [], none, false, false⟩

/-- The pending operation applied to the displayed number. -/
def Desk.due (desk : Desk V) : V :=
  match desk.pending with
  | some operation => operation.perform desk.value
  | none => desk.value

/-- The first operand that a binary operator gets. -/
def Desk.firstOperand (desk : Desk V) : V := if desk.outstanding then desk.due else desk.value

/-- The effect of a key that performs an operation. -/
def Desk.operate (ar : Arithmetic V) (desk : Desk V) : Symbol → Desk V
  | .pi => { desk with value := ar.pi, typed := [] }
  | .e => { desk with value := ar.e, typed := [] }
  | .unary symbol => { desk with value := ar.unary symbol desk.value, typed := [] }
  | .binary symbol =>
    if desk.repeated then
      { desk with typed := [] }
    else
      ⟨desk.value, [], some ⟨desk.firstOperand, ar.binary symbol⟩, true, true⟩
  | .equals => ⟨desk.due, [], desk.pending, false, desk.repeated⟩
  | .clears => Desk.cleared ar

/-- The effect of a key. -/
def Desk.press (ar : Arithmetic V) (desk : Desk V) : Key → Desk V
  | .digit d =>
    { desk with
      value := ar.number (desk.typed ++ [d])
      typed := desk.typed ++ [d]
      repeated := false }
  | .operation symbol => desk.operate ar symbol

/-- A binary operator that does not follow another one becomes the pending operation. -/
theorem Desk.operate_binary (ar : Arithmetic V) (desk : Desk V) (symbol : BinarySymbol)
    (hrepeated : desk.repeated = false) :
    desk.operate ar (.binary symbol) =
      ⟨desk.value, [], some ⟨desk.firstOperand, ar.binary symbol⟩, true, true⟩ := by
  rw [Desk.operate, if_neg (by rw [hrepeated]; exact Bool.false_ne_true)]

/-- A binary operator that follows another one is skipped. -/
theorem Desk.operate_binary_of_repeated (ar : Arithmetic V) (desk : Desk V) (symbol : BinarySymbol)
    (hrepeated : desk.repeated = true) :
    desk.operate ar (.binary symbol) = { desk with typed := [] } := by
  rw [Desk.operate, if_pos hrepeated]

/-- The calculator without texts, observed by the number on its display. -/
def desk (ar : Arithmetic V) : TotalMachine (Desk V) Key (Option V) where
  step := Desk.press ar
  observe := fun desk => some desk.value

/-- The screen and the desk agree on everything that later keys read. -/
structure Shows (ar : Arithmetic V) (vc : ViewController V) (desk : Desk V) : Prop where
  value : vc.displayValue ar = some desk.value
  typing : vc.userIsCurrentlyTyping = !desk.typed.isEmpty
  text : vc.userIsCurrentlyTyping = true → vc.display = digitsText desk.typed
  pending : vc.brain.currentPendingBinaryOperation = desk.pending
  outstanding : vc.brain.binaryOperationPressed = desk.outstanding
  repeated : vc.brain.operationPressRepeat = desk.repeated

/-- One more digit is one more character. -/
theorem digitsText_append_singleton (digits : List (Fin 10)) (d : Fin 10) :
    digitsText (digits ++ [d]) = digitsText digits ++ digitText d := by
  simp only [digitsText, List.map_append, List.map_cons, List.map_nil, String.join_append,
    String.join_cons, String.join_nil, String.append_empty]

/-- A nonempty sequence of digits is read as the number it denotes. -/
theorem Arithmetic.Text.ofText_number {ar : Arithmetic V} (h : ar.Text) (digits : List (Fin 10))
    (hdigits : digits ≠ []) : ar.ofText (digitsText digits) = some (ar.number digits) := by
  obtain ⟨x, hx⟩ := Option.isSome_iff_exists.mp (h.ofText_digitsText digits hdigits)
  rw [Arithmetic.number, hx, Option.getD_some]

/-- The desk that the launch screen shows. -/
def Desk.launched (ar : Arithmetic V) : Desk V :=
  ⟨ar.number [⟨0, Nat.succ_pos 9⟩], [], none, false, false⟩

/-- The launch screen shows that desk. -/
theorem Shows.launch {ar : Arithmetic V} (h : ar.Text) :
    Shows ar ViewController.launch (Desk.launched ar) := by
  refine ⟨?_, rfl, ?_, rfl, rfl, rfl⟩
  · exact h.ofText_number [0] (List.cons_ne_nil 0 [])
  · intro htyping
    cases htyping

/-- A digit key extends the operand that is being typed, or starts a new one. -/
theorem Shows.digit {ar : Arithmetic V} (h : ar.Text) {vc : ViewController V} {desk : Desk V}
    (hshows : Shows ar vc desk) (d : Fin 10) :
    Shows ar (vc.numberButtonPressed (digitText d)) (desk.press ar (.digit d)) := by
  have htext : (vc.numberButtonPressed (digitText d)).display = digitsText (desk.typed ++ [d]) := by
    rw [digitsText_append_singleton]
    cases htyping : vc.userIsCurrentlyTyping with
    | true => simp only [ViewController.numberButtonPressed, htyping, hshows.text htyping, if_true]
    | false =>
      have hempty : desk.typed = [] := by
        have hnot := hshows.typing
        rw [htyping] at hnot
        simpa using hnot
      simp only [ViewController.numberButtonPressed, htyping, hempty, Bool.false_eq_true, if_false]
      exact (String.empty_append).symm
  have hbrain : (vc.numberButtonPressed (digitText d)).brain = vc.brain.setOperation := by
    simp only [ViewController.numberButtonPressed]
    split <;> rfl
  have htyping : (vc.numberButtonPressed (digitText d)).userIsCurrentlyTyping = true := by
    simp only [ViewController.numberButtonPressed]
    split
    · assumption
    · rfl
  have hne : desk.typed ++ [d] ≠ [] := List.append_ne_nil_of_right_ne_nil _ (List.cons_ne_nil d [])
  refine ⟨?_, ?_, ?_, ?_, ?_, ?_⟩
  · rw [ViewController.displayValue, htext]
    exact h.ofText_number _ hne
  · rw [htyping]
    simp [Desk.press]
  · intro _
    exact htext
  · rw [hbrain]
    exact hshows.pending
  · rw [hbrain]
    exact hshows.outstanding
  · rw [hbrain]
    rfl

/-- The screen after an operation whose result is shown. -/
theorem Shows.of_result {ar : Arithmetic V} (h : ar.Text) {vc : ViewController V} {desk : Desk V}
    (hshows : Shows ar vc desk) (symbol : Symbol) (next : Desk V) (brain : CalculatorBrain V)
    (hbrain : (vc.brain.setOperand desk.value).performOperation ar symbol = brain)
    (haccumulator : brain.accumulator = some next.value) (htyped : next.typed = [])
    (hpending : brain.currentPendingBinaryOperation = next.pending)
    (houtstanding : brain.binaryOperationPressed = next.outstanding)
    (hrepeated : brain.operationPressRepeat = next.repeated) :
    vc.operationButtonPressed ar symbol = some ⟨ar.toText next.value, brain, false⟩ ∧
      Shows ar ⟨ar.toText next.value, brain, false⟩ next := by
  refine ⟨?_, ?_, ?_, ?_, hpending, houtstanding, hrepeated⟩
  · simp only [ViewController.operationButtonPressed, hshows.value, hbrain,
      CalculatorBrain.result, haccumulator, Option.bind_eq_bind, Option.bind_some]
    rfl
  · exact h.ofText_toText next.value
  · simp only [htyped, List.isEmpty_nil, Bool.not_true]
  · intro htyping
    cases htyping

/-- The pending operation is performed on the displayed number. -/
theorem Shows.performBinaryOperation {ar : Arithmetic V} {vc : ViewController V} {desk : Desk V}
    (hshows : Shows ar vc desk) :
    (vc.brain.setOperand desk.value).performBinaryOperation =
      { vc.brain with accumulator := some desk.due } := by
  have hpending := hshows.pending
  simp only [CalculatorBrain.performBinaryOperation, CalculatorBrain.setOperand, Desk.due]
  rw [← hpending]
  cases vc.brain.currentPendingBinaryOperation <;> rfl

/-- An operator that is not skipped gets the first operand of the desk. -/
theorem Shows.install {ar : Arithmetic V} {vc : ViewController V} {desk : Desk V}
    (hshows : Shows ar vc desk) (function : V → V → V) :
    (vc.brain.setOperand desk.value).install function =
      ⟨none, true, vc.brain.operationPressRepeat, some ⟨desk.firstOperand, function⟩⟩ := by
  have houtstanding : (vc.brain.setOperand desk.value).binaryOperationPressed = desk.outstanding :=
    hshows.outstanding
  simp only [CalculatorBrain.install, Desk.firstOperand, houtstanding]
  cases desk.outstanding with
  | true => simp only [if_true, hshows.performBinaryOperation]
  | false => rfl

/-- A binary operator that is installed leaves the text of the display as it is. -/
theorem Shows.installed {ar : Arithmetic V} {vc : ViewController V} {desk : Desk V}
    (hshows : Shows ar vc desk) (symbol : BinarySymbol) (hrepeated : desk.repeated = false) :
    ∃ vc', vc.operationButtonPressed ar (.binary symbol) = some vc' ∧
      Shows ar vc' (desk.operate ar (.binary symbol)) := by
  have hflag : (vc.brain.setOperand desk.value).operationPressRepeat = false :=
    hshows.repeated.trans hrepeated
  have hbrain : (vc.brain.setOperand desk.value).performOperation ar (.binary symbol) =
      ⟨none, true, true, some ⟨desk.firstOperand, ar.binary symbol⟩⟩ := by
    simp only [CalculatorBrain.performOperation, Arithmetic.operations, hflag, Bool.not_false,
      if_true, hshows.install]
  refine ⟨⟨vc.display, ⟨none, true, true, some ⟨desk.firstOperand, ar.binary symbol⟩⟩, false⟩,
    ?_, ?_⟩
  · simp only [ViewController.operationButtonPressed, hshows.value, hbrain,
      CalculatorBrain.result, Option.bind_eq_bind, Option.bind_some]
    rfl
  · rw [desk.operate_binary ar symbol hrepeated]
    refine ⟨hshows.value, rfl, ?_, rfl, rfl, rfl⟩
    intro htyping
    cases htyping

/-- Key `=` displays the text of the number that it computes. -/
theorem Shows.equals {ar : Arithmetic V} (h : ar.Text) {vc : ViewController V} {desk : Desk V}
    (hshows : Shows ar vc desk) :
    ∃ vc', vc.operationButtonPressed ar .equals = some vc' ∧
      vc'.display = ar.toText desk.due ∧ Shows ar vc' (desk.operate ar .equals) := by
  have hbrain : (vc.brain.setOperand desk.value).performOperation ar .equals =
      { vc.brain with accumulator := some desk.due, binaryOperationPressed := false } := by
    simp only [CalculatorBrain.performOperation, Arithmetic.operations,
      hshows.performBinaryOperation]
  obtain ⟨hpress, hnext⟩ := hshows.of_result h .equals (desk.operate ar .equals) _ hbrain rfl rfl
    hshows.pending rfl hshows.repeated
  exact ⟨_, hpress, rfl, hnext⟩

/-- A key that performs an operation leads to a screen that shows the desk after it. -/
theorem Shows.operation {ar : Arithmetic V} (h : ar.Text) {vc : ViewController V} {desk : Desk V}
    (hshows : Shows ar vc desk) (symbol : Symbol) :
    ∃ vc', vc.operationButtonPressed ar symbol = some vc' ∧
      Shows ar vc' (desk.operate ar symbol) := by
  cases symbol with
  | pi =>
    exact ⟨_, hshows.of_result h .pi (desk.operate ar .pi) _ rfl rfl rfl hshows.pending
      hshows.outstanding hshows.repeated⟩
  | e =>
    exact ⟨_, hshows.of_result h .e (desk.operate ar .e) _ rfl rfl rfl hshows.pending
      hshows.outstanding hshows.repeated⟩
  | unary symbol =>
    exact ⟨_, hshows.of_result h (.unary symbol) (desk.operate ar (.unary symbol)) _ rfl rfl rfl
      hshows.pending hshows.outstanding hshows.repeated⟩
  | binary symbol =>
    cases hrepeated : desk.repeated with
    | false => exact hshows.installed symbol hrepeated
    | true =>
      have hflag : (vc.brain.setOperand desk.value).operationPressRepeat = true :=
        hshows.repeated.trans hrepeated
      have hbrain : (vc.brain.setOperand desk.value).performOperation ar (.binary symbol) =
          { vc.brain with accumulator := some desk.value, operationPressRepeat := true } := by
        simp only [CalculatorBrain.performOperation, Arithmetic.operations, hflag, Bool.not_true,
          Bool.false_eq_true, if_false]
        rfl
      rw [desk.operate_binary_of_repeated ar symbol hrepeated]
      exact ⟨_, hshows.of_result h (.binary symbol) _ _ hbrain rfl rfl hshows.pending
        hshows.outstanding hrepeated.symm⟩
  | equals =>
    obtain ⟨vc', hpress, -, hnext⟩ := hshows.equals h
    exact ⟨vc', hpress, hnext⟩
  | clears =>
    exact ⟨_, hshows.of_result h .clears (desk.operate ar .clears) _ rfl rfl rfl rfl rfl rfl⟩

/-- The calculator never fails, and its display shows the number of the desk. -/
theorem calculator_simulates_desk {ar : Arithmetic V} (h : ar.Text) :
    Simulation (calculator ar) (desk ar) (Shows ar) := by
  refine ⟨?_, ?_⟩
  · intro vc desk hshows
    exact hshows.value
  · intro vc desk key hshows
    cases key with
    | digit d => exact ⟨_, rfl, hshows.digit h d⟩
    | operation symbol => exact hshows.operation h symbol

/-- Every sequence of keys leads from launch to a screen that shows the desk after it. -/
theorem exists_run_launch {ar : Arithmetic V} (h : ar.Text) (keys : List Key) :
    ∃ vc, (calculator ar).run .launch keys = some vc ∧
      Shows ar vc ((desk ar).run (.launched ar) keys) :=
  (calculator_simulates_desk h).run _ _ (Shows.launch h) keys

end Coursework.Calculator
