import Coursework.Calculator.WholeNumbers

/-!
# Which binary operators are installed

A binary operator is skipped if an earlier one was pressed and neither a digit nor `C`
since. The keys `pi`, `e` and `=` and the unary keys do not end this.
-/

namespace Coursework.Calculator

open Transition

variable {V : Type}

/-- Whether a digit or `C` was pressed since the last binary operator, the newest key first. -/
def armedSince : List Key → Bool
  | [] => true
  | .digit _ :: _ => true
  | .operation .clears :: _ => true
  | .operation (.binary _) :: _ => false
  | _ :: earlier => armedSince earlier

/-- Whether a digit or `C` was pressed since the last binary operator, if there was one. -/
def armed (history : List Key) : Bool := armedSince history.reverse

/-- Whether a binary operator was installed since the last `=` or `C`, the newest key first. -/
def outstandingSince : List Key → Bool
  | [] => false
  | .operation .clears :: _ => false
  | .operation .equals :: _ => false
  | .operation (.binary _) :: earlier => armedSince earlier || outstandingSince earlier
  | _ :: earlier => outstandingSince earlier

/-- Whether a binary operator was installed since the last `=` or `C`. -/
def outstanding (history : List Key) : Bool := outstandingSince history.reverse

/-- The first operand of a binary operator: the displayed number, or what the outstanding operation
makes of it. -/
def firstOperandOf (outstanding : Bool) (pending : Option (PendingBinaryOperation V)) (x : V) :
    Option V :=
  if outstanding then pending.map fun operation => operation.perform x else some x

/-- After a history of keys, a binary operator becomes the pending operation with the right first
operand, and counts as outstanding. -/
def OperatorInstalled (ar : Arithmetic V) (history : List Key) (symbol : BinarySymbol) : Prop :=
  ∃ vc x first vc', (calculator ar).run .launch history = some vc ∧
    vc.displayValue ar = some x ∧
    firstOperandOf (outstanding history) vc.brain.currentPendingBinaryOperation x = some first ∧
    vc.press ar (.operation (.binary symbol)) = some vc' ∧
    vc'.brain.currentPendingBinaryOperation = some ⟨first, ar.binary symbol⟩ ∧
    vc'.brain.binaryOperationPressed = true

/-- The flags of the desk record the newest keys, and an outstanding operation is pending. -/
structure Desk.Recorded (desk : Desk V) (newest : List Key) : Prop where
  repeated : desk.repeated = !armedSince newest
  outstanding : desk.outstanding = outstandingSince newest
  pending : desk.outstanding = true → desk.pending.isSome = true

/-- A key keeps the record. -/
theorem Desk.Recorded.press (ar : Arithmetic V) {desk : Desk V} {newest : List Key}
    (h : desk.Recorded newest) (key : Key) : (desk.press ar key).Recorded (key :: newest) := by
  cases key with
  | digit d => exact ⟨rfl, h.outstanding, h.pending⟩
  | operation symbol =>
    cases symbol with
    | pi => exact ⟨h.repeated, h.outstanding, h.pending⟩
    | e => exact ⟨h.repeated, h.outstanding, h.pending⟩
    | unary symbol => exact ⟨h.repeated, h.outstanding, h.pending⟩
    | equals =>
      refine ⟨h.repeated, rfl, ?_⟩
      intro hfalse
      cases hfalse
    | clears =>
      refine ⟨rfl, rfl, ?_⟩
      intro hfalse
      cases hfalse
    | binary symbol =>
      cases harmed : armedSince newest with
      | true =>
        have hrepeated : desk.repeated = false := by rw [h.repeated, harmed, Bool.not_true]
        rw [Desk.press, desk.operate_binary ar symbol hrepeated]
        refine ⟨rfl, ?_, fun _ => rfl⟩
        rw [outstandingSince, harmed, Bool.true_or]
      | false =>
        have hrepeated : desk.repeated = true := by rw [h.repeated, harmed, Bool.not_false]
        rw [Desk.press, desk.operate_binary_of_repeated ar symbol hrepeated]
        refine ⟨hrepeated, ?_, h.pending⟩
        rw [outstandingSince, harmed, Bool.false_or]
        exact h.outstanding

/-- After every history the flags record its newest keys. -/
theorem Desk.recorded (ar : Arithmetic V) (history : List Key) :
    ((desk ar).run (.launched ar) history).Recorded history.reverse := by
  apply TotalMachine.run_recorded (desk ar) Desk.Recorded
  · refine ⟨rfl, rfl, ?_⟩
    intro hfalse
    cases hfalse
  · intro before newest key h
    exact h.press ar key

/-- The first operand of the desk is the one that an operator should get. -/
theorem Desk.Recorded.firstOperandOf_eq {desk : Desk V} {history : List Key}
    (h : desk.Recorded history.reverse) :
    firstOperandOf (Calculator.outstanding history) desk.pending desk.value =
      some desk.firstOperand := by
  have hpending := h.pending
  rw [firstOperandOf, Calculator.outstanding, ← h.outstanding, Desk.firstOperand, Desk.due]
  cases houtstanding : desk.outstanding with
  | false => rfl
  | true =>
    obtain ⟨operation, hoperation⟩ := Option.isSome_iff_exists.mp (hpending houtstanding)
    rw [hoperation]
    rfl

/-- An operator is installed exactly if the desk installs it. -/
theorem operatorInstalled_iff_desk {ar : Arithmetic V} (h : ar.Text) (history : List Key)
    (symbol : BinarySymbol) (before : Desk V)
    (hbefore : (desk ar).run (.launched ar) history = before) :
    OperatorInstalled ar history symbol ↔
      (before.operate ar (.binary symbol)).pending =
          some ⟨before.firstOperand, ar.binary symbol⟩ ∧
        (before.operate ar (.binary symbol)).outstanding = true := by
  obtain ⟨vc, hrun, hshows⟩ := exists_run_launch h history
  obtain ⟨vc', hpress, hshows'⟩ := hshows.operation h (.binary symbol)
  have hfirst := (Desk.recorded ar history).firstOperandOf_eq
  rw [← hshows.pending] at hfirst
  rw [hbefore] at hfirst hshows hshows'
  constructor
  · rintro ⟨vc₁, x, first, vc₁', hrun₁, hx, hfirst₁, hpress₁, hpending, houtstanding⟩
    obtain rfl := Option.some.inj (hrun.symm.trans hrun₁)
    obtain rfl := Option.some.inj (hpress.symm.trans hpress₁)
    obtain rfl := Option.some.inj (hshows.value.symm.trans hx)
    obtain rfl := Option.some.inj (hfirst.symm.trans hfirst₁)
    exact ⟨hshows'.pending.symm.trans hpending, hshows'.outstanding.symm.trans houtstanding⟩
  · rintro ⟨hpending, houtstanding⟩
    exact ⟨vc, before.value, before.firstOperand, vc', hrun, hshows.value, hfirst, hpress,
      hshows'.pending.trans hpending, hshows'.outstanding.trans houtstanding⟩

/-- After a digit or `C` since the last binary operator, the next one is installed. -/
theorem operatorInstalled_of_armed {ar : Arithmetic V} (h : ar.Text) (history : List Key)
    (symbol : BinarySymbol) (harmed : armed history = true) :
    OperatorInstalled ar history symbol := by
  rw [operatorInstalled_iff_desk h history symbol _ rfl]
  have hrepeated := (Desk.recorded ar history).repeated
  rw [show armedSince history.reverse = true from harmed, Bool.not_true] at hrepeated
  rw [Desk.operate_binary ar _ symbol hrepeated]
  exact ⟨rfl, rfl⟩

/-- In the counting interpretation a skipped operator is never the pending operation with the right
first operand, since no operation returns its first operand. -/
theorem not_operatorInstalled_counting (history : List Key) (symbol : BinarySymbol)
    (harmed : armed history = false) : ¬ OperatorInstalled counting history symbol := by
  rw [operatorInstalled_iff_desk counting_text history symbol _ rfl]
  have hrepeated := (Desk.recorded counting history).repeated
  rw [show armedSince history.reverse = false from harmed, Bool.not_false] at hrepeated
  rw [Desk.operate_binary_of_repeated counting _ symbol hrepeated]
  generalize (desk counting).run (.launched counting) history = before
  rintro ⟨hpending, houtstanding⟩
  change before.pending = _ at hpending
  change before.outstanding = true at houtstanding
  have hperform : ∀ x y, counting.binary symbol x y = x + y + 1 := by
    intro x y
    cases symbol <;> rfl
  have hfirst : before.firstOperand = before.firstOperand + before.value + 1 := by
    calc before.firstOperand
        = before.due := by rw [Desk.firstOperand, if_pos houtstanding]
      _ = counting.binary symbol before.firstOperand before.value := by
          rw [Desk.due, hpending]
          rfl
      _ = _ := hperform _ _
  omega

/-- The flag that makes the brain skip an operator is set exactly if no digit or `C` was pressed since
the last binary operator. -/
theorem operationPressRepeat_iff {ar : Arithmetic V} (h : ar.Text) (history : List Key)
    (vc : ViewController V) (hrun : (calculator ar).run .launch history = some vc) :
    vc.brain.operationPressRepeat = true ↔ armed history = false := by
  obtain ⟨vc', hrun', hshows⟩ := exists_run_launch h history
  obtain rfl := Option.some.inj (hrun'.symm.trans hrun)
  rw [hshows.repeated, (Desk.recorded ar history).repeated, Bool.not_eq_true']
  rfl

/-- A binary operator is installed exactly if a digit or `C` was pressed since the last binary
operator, and exactly then the flag of a repeated operator is not set. -/
theorem operatorInstalled_iff (history : List Key) (symbol : BinarySymbol) :
    ((∀ (V : Type) (ar : Arithmetic V), ar.Text → OperatorInstalled ar history symbol) ↔
        armed history = true) ∧
      ((∀ (V : Type) (ar : Arithmetic V), ar.Text → ∀ vc,
          (calculator ar).run .launch history = some vc →
            vc.brain.operationPressRepeat = false) ↔ armed history = true) := by
  refine ⟨⟨?_, ?_⟩, ⟨?_, ?_⟩⟩
  · intro hinstalled
    by_contra hnot
    exact not_operatorInstalled_counting history symbol (Bool.eq_false_iff.mpr hnot)
      (hinstalled ℕ counting counting_text)
  · intro harmed V ar h
    exact operatorInstalled_of_armed h history symbol harmed
  · intro hflag
    obtain ⟨vc, hrun, -⟩ := exists_run_launch counting_text history
    have hfalse := hflag ℕ counting counting_text vc hrun
    rw [Bool.eq_false_iff, Ne, operationPressRepeat_iff counting_text history vc hrun,
      Bool.not_eq_false] at hfalse
    exact hfalse
  · intro harmed V ar h vc hrun
    rw [Bool.eq_false_iff, Ne, operationPressRepeat_iff h history vc hrun, Bool.not_eq_false]
    exact harmed

/-- After `5 + pi` the operator `-` is lost. -/
theorem not_operatorInstalled_pi :
    ¬ OperatorInstalled wholeNumbers
      [.digit 5, .operation (.binary .plus), .operation .pi] .minus := by
  rw [operatorInstalled_iff_desk wholeNumbers_text _ _ _ rfl]
  rintro ⟨hpending, -⟩
  have hfirst := congrArg PendingBinaryOperation.firstOperand (Option.some.inj hpending)
  change wholeNumbers.number [5] = wholeNumbers.number [5] + 3 at hfirst
  omega

end Coursework.Calculator
