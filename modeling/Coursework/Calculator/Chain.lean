import Coursework.Calculator.WholeNumbers

/-!
# Chains of operations

An expression is a first operand, one or more pairs of a binary operator and an operand,
and `=`. The calculator evaluates it from left to right.
-/

namespace Coursework.Calculator

open Transition

variable {V : Type}

/-- Typed digits followed by unary keys. -/
structure Operand where
  digits : List (Fin 10)
  nonempty : digits ≠ []
  unary : List UnarySymbol

/-- The keys of an operand. -/
def Operand.keys (operand : Operand) : List Key :=
  operand.digits.map .digit ++ operand.unary.map fun symbol => .operation (.unary symbol)

/-- The unary functions applied one after the other to the typed number. -/
def Operand.value (ar : Arithmetic V) (operand : Operand) : V :=
  operand.unary.foldl (fun x symbol => ar.unary symbol x) (ar.number operand.digits)

/-- A first operand and at least one binary operator with its second operand. -/
structure Expression where
  first : Operand
  rest : List (BinarySymbol × Operand)
  nonempty : rest ≠ []

/-- The keys of a binary operator and its second operand. -/
def linkKeys (link : BinarySymbol × Operand) : List Key :=
  .operation (.binary link.1) :: link.2.keys

/-- The keys of an expression, with the final `=`. -/
def Expression.keys (expression : Expression) : List Key :=
  expression.first.keys ++ expression.rest.flatMap linkKeys ++ [.operation .equals]

/-- The value of a chain of operators, from left to right. -/
def chainValue (ar : Arithmetic V) (x : V) (links : List (BinarySymbol × Operand)) : V :=
  links.foldl (fun x link => ar.binary link.1 x (link.2.value ar)) x

/-- The value of an expression. -/
def Expression.value (ar : Arithmetic V) (expression : Expression) : V :=
  chainValue ar (expression.first.value ar) expression.rest

/-- An operand was entered: its value is displayed, and the brain remembers what it did before. -/
structure Desk.Entered (before after : Desk V) (x : V) : Prop where
  value : after.value = x
  pending : after.pending = before.pending
  outstanding : after.outstanding = before.outstanding
  repeated : after.repeated = false

/-- Digit keys enter the number that they denote together with those typed before. -/
theorem Desk.entered_digits (ar : Arithmetic V) (before : Desk V) (digits : List (Fin 10))
    (hdigits : digits ≠ []) :
    before.Entered ((desk ar).run before (digits.map .digit))
      (ar.number (before.typed ++ digits)) := by
  induction digits generalizing before with
  | nil => exact absurd rfl hdigits
  | cons d rest ih =>
    cases rest with
    | nil => exact ⟨rfl, rfl, rfl, rfl⟩
    | cons d' rest =>
      have hrest := ih (before.press ar (.digit d)) (List.cons_ne_nil d' rest)
      refine ⟨?_, hrest.pending, hrest.outstanding, hrest.repeated⟩
      refine hrest.value.trans ?_
      congr 1
      exact List.append_assoc before.typed [d] (d' :: rest)

/-- Unary keys apply their functions to the entered number. -/
theorem Desk.Entered.unary (ar : Arithmetic V) {before after : Desk V} {x : V}
    (h : before.Entered after x) (symbols : List UnarySymbol) :
    before.Entered
      ((desk ar).run after (symbols.map fun symbol => .operation (.unary symbol)))
      (symbols.foldl (fun x symbol => ar.unary symbol x) x) := by
  induction symbols generalizing after x with
  | nil => exact h
  | cons symbol rest ih =>
    apply ih
    exact ⟨congrArg (ar.unary symbol) h.value, h.pending, h.outstanding, h.repeated⟩

/-- The keys of an operand enter its value. -/
theorem Desk.entered_operand (ar : Arithmetic V) (before : Desk V) (operand : Operand)
    (htyped : before.typed = []) :
    before.Entered ((desk ar).run before operand.keys) (operand.value ar) := by
  have hdigits := Desk.entered_digits ar before operand.digits operand.nonempty
  rw [htyped, List.nil_append] at hdigits
  rw [Operand.keys, TotalMachine.run_append]
  exact hdigits.unary ar operand.unary

/-- The chain so far has the given value, and the next binary operator is not skipped. -/
structure Desk.Chained (desk : Desk V) (x : V) : Prop where
  value : desk.firstOperand = x
  repeated : desk.repeated = false

/-- A binary operator and its second operand extend the chain. -/
theorem Desk.Chained.link (ar : Arithmetic V) {before : Desk V} {x : V} (h : before.Chained x)
    (link : BinarySymbol × Operand) :
    ((desk ar).run before (linkKeys link)).Chained (ar.binary link.1 x (link.2.value ar)) ∧
      ((desk ar).run before (linkKeys link)).outstanding = true := by
  have hrun : (desk ar).run before (linkKeys link) =
      (desk ar).run ⟨before.value, [], some ⟨x, ar.binary link.1⟩, true, true⟩ link.2.keys := by
    rw [← h.value, ← before.operate_binary ar link.1 h.repeated]
    rfl
  have hentered := Desk.entered_operand ar
    ⟨before.value, [], some ⟨x, ar.binary link.1⟩, true, true⟩ link.2 rfl
  rw [hrun]
  refine ⟨⟨?_, hentered.repeated⟩, hentered.outstanding⟩
  rw [Desk.firstOperand, if_pos hentered.outstanding, Desk.due, hentered.pending, hentered.value]
  rfl

/-- A sequence of operators with their operands extends the chain. -/
theorem Desk.Chained.links (ar : Arithmetic V) (links : List (BinarySymbol × Operand))
    {before : Desk V} {x : V} (h : before.Chained x) :
    ((desk ar).run before (links.flatMap linkKeys)).Chained (chainValue ar x links) ∧
      (links ≠ [] → ((desk ar).run before (links.flatMap linkKeys)).outstanding = true) := by
  induction links generalizing before x with
  | nil => exact ⟨h, fun hne => absurd rfl hne⟩
  | cons link rest ih =>
    obtain ⟨hlink, houtstanding⟩ := h.link ar link
    obtain ⟨hrest, hlast⟩ := ih hlink
    rw [List.flatMap_cons, TotalMachine.run_append]
    refine ⟨hrest, ?_⟩
    intro _
    cases rest with
    | nil => exact houtstanding
    | cons link' rest => exact hlast (List.cons_ne_nil link' rest)

/-- The calculator waits for a new expression: no operand is being typed, and the next binary
operator takes the displayed number as it is. -/
structure Desk.Ready (desk : Desk V) : Prop where
  typed : desk.typed = []
  outstanding : desk.outstanding = false

/-- The keys of an expression up to `=` leave its value to be computed by `=`. -/
theorem Desk.Ready.due_expression (ar : Arithmetic V) {before : Desk V} (h : before.Ready)
    (expression : Expression) :
    ((desk ar).run before
      (expression.first.keys ++ expression.rest.flatMap linkKeys)).due = expression.value ar := by
  have hentered := Desk.entered_operand ar before expression.first h.typed
  have hchained :
      ((desk ar).run before expression.first.keys).Chained (expression.first.value ar) := by
    refine ⟨?_, hentered.repeated⟩
    rw [Desk.firstOperand, hentered.outstanding, h.outstanding]
    exact hentered.value
  obtain ⟨hlinks, houtstanding⟩ := hchained.links ar expression.rest
  rw [TotalMachine.run_append]
  have hvalue := hlinks.value
  rw [Desk.firstOperand, if_pos (houtstanding expression.nonempty)] at hvalue
  exact hvalue

/-- Complete expressions leave the calculator ready for the next one. -/
theorem Desk.Ready.expressions (ar : Arithmetic V) (expressions : List Expression)
    {before : Desk V} (h : before.Ready) :
    ((desk ar).run before (expressions.flatMap Expression.keys)).Ready := by
  induction expressions generalizing before with
  | nil => exact h
  | cons expression rest ih =>
    rw [List.flatMap_cons, TotalMachine.run_append]
    apply ih
    rw [Expression.keys, TotalMachine.run_append_singleton]
    exact ⟨rfl, rfl⟩

/-- After launch and after key `C` the calculator is ready. -/
theorem Desk.ready_of_start (ar : Arithmetic V) (history : List Key)
    (hstart : history = [] ∨ history.getLast? = some (.operation .clears)) :
    ((desk ar).run (.launched ar) history).Ready := by
  obtain rfl | hlast := hstart
  · exact ⟨rfl, rfl⟩
  · obtain ⟨front, rfl⟩ := List.getLast?_eq_some_iff.mp hlast
    rw [TotalMachine.run_append_singleton]
    exact ⟨rfl, rfl⟩

/-- After launch or key `C`, every complete expression is displayed with its value, also after
other complete expressions. -/
theorem display_expression (ar : Arithmetic V) (h : ar.Text) (history : List Key)
    (hstart : history = [] ∨ history.getLast? = some (.operation .clears))
    (earlier : List Expression) (expression : Expression) :
    ∃ vc, (calculator ar).run .launch
        (history ++ earlier.flatMap Expression.keys ++ expression.keys) = some vc ∧
      vc.display = ar.toText (expression.value ar) ∧
      vc.displayValue ar = some (expression.value ar) := by
  have hready := (Desk.ready_of_start ar history hstart).expressions ar earlier
  rw [← TotalMachine.run_append] at hready
  have hdue := hready.due_expression ar expression
  rw [← TotalMachine.run_append] at hdue
  obtain ⟨vc, hrun, hshows⟩ := exists_run_launch h (history ++ earlier.flatMap Expression.keys ++
    (expression.first.keys ++ expression.rest.flatMap linkKeys))
  obtain ⟨vc', hpress, hdisplay, -⟩ := hshows.equals h
  rw [hdue] at hdisplay
  refine ⟨vc', ?_, hdisplay, ?_⟩
  · rw [Expression.keys, ← List.append_assoc, Machine.run_append_singleton, hrun]
    exact hpress
  · rw [ViewController.displayValue, hdisplay]
    exact h.ofText_toText _

/-- The expression `1 + 2 =`. -/
def onePlusTwo : Expression where
  first := ⟨[1], List.cons_ne_nil 1 [], []⟩
  rest := [(.plus, ⟨[2], List.cons_ne_nil 2 [], []⟩)]
  nonempty := List.cons_ne_nil _ []

/-- The expression `12 - 3 x^2 x 5 =`. -/
def twelveMinusNineTimesFive : Expression where
  first := ⟨[1, 2], List.cons_ne_nil 1 [2], []⟩
  rest := [(.minus, ⟨[3], List.cons_ne_nil 3 [], [.square]⟩),
    (.times, ⟨[5], List.cons_ne_nil 5 [], []⟩)]
  nonempty := List.cons_ne_nil _ _

/-- The second expression is evaluated from left to right after the first one. -/
theorem display_expression_twoExpressions :
    ∃ vc, (calculator wholeNumbers).run .launch
        ([] ++ [onePlusTwo].flatMap Expression.keys ++ twelveMinusNineTimesFive.keys) = some vc ∧
      vc.display = wholeNumbers.toText 15 := by
  obtain ⟨vc, hrun, hdisplay, -⟩ := display_expression wholeNumbers wholeNumbers_text []
    (Or.inl rfl) [onePlusTwo] twelveMinusNineTimesFive
  have hvalue : twelveMinusNineTimesFive.value wholeNumbers = 15 := by
    simp only [Expression.value, chainValue, Operand.value, wholeNumbers_number,
      twelveMinusNineTimesFive]
    rfl
  rw [hvalue] at hdisplay
  exact ⟨vc, hrun, hdisplay⟩

end Coursework.Calculator
