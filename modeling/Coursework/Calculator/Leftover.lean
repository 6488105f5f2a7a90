import Coursework.Calculator.Operators

/-!
# What `=` leaves behind

Key `=` keeps the pending operation. A new calculation shows it exactly if `=` is pressed
before a binary operator or `C`.
-/

namespace Coursework.Calculator

open Transition

variable {V : Type}

/-- Whether a binary operator was pressed since the last `C`, the newest key first. -/
def binarySince : List Key → Bool
  | [] => false
  | .operation .clears :: _ => false
  | .operation (.binary _) :: _ => true
  | _ :: earlier => binarySince earlier

/-- Whether a binary operator was pressed since launch or the last `C`. -/
def pendingAfter (history : List Key) : Bool := binarySince history.reverse

/-- Whether `=` comes before every binary operator and every `C`. -/
def equalsFirst : List Key → Bool
  | [] => false
  | .operation .equals :: _ => true
  | .operation .clears :: _ => false
  | .operation (.binary _) :: _ => false
  | _ :: later => equalsFirst later

/-- An operation of the table is pending exactly if a binary operator was pressed since launch or the
last `C`, since the first one after that is never skipped. -/
structure Desk.Pends (ar : Arithmetic V) (desk : Desk V) (newest : List Key) : Prop where
  pending : desk.pending.isSome = binarySince newest
  function : ∀ operation, desk.pending = some operation →
    ∃ symbol, operation.function = ar.binary symbol
  repeated : binarySince newest = false → desk.repeated = false

/-- A key keeps the record of the pending operation. -/
theorem Desk.Pends.press {ar : Arithmetic V} {desk : Desk V} {newest : List Key}
    (h : desk.Pends ar newest) (key : Key) : (desk.press ar key).Pends ar (key :: newest) := by
  cases key with
  | digit d => exact ⟨h.pending, h.function, fun _ => rfl⟩
  | operation symbol =>
    cases symbol with
    | pi => exact ⟨h.pending, h.function, h.repeated⟩
    | e => exact ⟨h.pending, h.function, h.repeated⟩
    | unary symbol => exact ⟨h.pending, h.function, h.repeated⟩
    | equals => exact ⟨h.pending, h.function, h.repeated⟩
    | clears =>
      refine ⟨rfl, ?_, fun _ => rfl⟩
      intro operation hoperation
      cases hoperation
    | binary symbol =>
      cases hrepeated : desk.repeated with
      | false =>
        rw [Desk.press, desk.operate_binary ar symbol hrepeated]
        refine ⟨rfl, ?_, ?_⟩
        · intro operation hoperation
          obtain rfl := Option.some.inj hoperation
          exact ⟨symbol, rfl⟩
        · intro hfalse
          cases hfalse
      | true =>
        rw [Desk.press, desk.operate_binary_of_repeated ar symbol hrepeated]
        have hbinary : binarySince newest = true := by
          by_contra hnot
          have hflag := h.repeated (Bool.eq_false_iff.mpr hnot)
          rw [hrepeated] at hflag
          cases hflag
        refine ⟨h.pending.trans hbinary, h.function, ?_⟩
        intro hfalse
        cases hfalse

/-- After every history an operation is pending as recorded. -/
theorem Desk.pends (ar : Arithmetic V) (history : List Key) :
    ((desk ar).run (.launched ar) history).Pends ar history.reverse := by
  apply TotalMachine.run_recorded (desk ar) (Desk.Pends ar)
  · refine ⟨rfl, ?_, fun _ => rfl⟩
    intro operation hoperation
    cases hoperation
  · intro before newest key h
    exact h.press key

/-- A desk on which no operator is outstanding, though an operation may be pending. -/
def Desk.idle (value : V) (typed : List (Fin 10))
    (pending : Option (PendingBinaryOperation V)) : Desk V := ⟨value, typed, pending, false, false⟩

/-- Keys among which `=` does not come first do not show which operation is pending. -/
theorem Desk.observations_idle (ar : Arithmetic V) (keys : List Key)
    (hkeys : equalsFirst keys = false) (value : V) (typed : List (Fin 10))
    (pending pending' : Option (PendingBinaryOperation V)) :
    (desk ar).observations (.idle value typed pending) keys =
      (desk ar).observations (.idle value typed pending') keys := by
  induction keys generalizing value typed with
  | nil => rfl
  | cons key rest ih =>
    cases key with
    | digit d => exact congrArg (List.cons _) (ih hkeys _ _)
    | operation symbol =>
      cases symbol with
      | pi => exact congrArg (List.cons _) (ih hkeys _ _)
      | e => exact congrArg (List.cons _) (ih hkeys _ _)
      | unary symbol => exact congrArg (List.cons _) (ih hkeys _ _)
      | equals => cases hkeys
      | clears => rfl
      | binary symbol => rfl

/-- If `=` comes first, it shows a pending operation that never returns its second operand. -/
theorem Desk.observations_idle_ne (ar : Arithmetic V) (keys : List Key)
    (hkeys : equalsFirst keys = true) (value : V) (typed : List (Fin 10))
    (operation : PendingBinaryOperation V) (hoperation : ∀ x, operation.perform x ≠ x) :
    (desk ar).observations (.idle value typed (some operation)) keys ≠
      (desk ar).observations (.idle value typed none) keys := by
  induction keys generalizing value typed with
  | nil => cases hkeys
  | cons key rest ih =>
    intro heq
    obtain ⟨hhead, htail⟩ := List.cons.inj heq
    cases key with
    | digit d => exact ih hkeys _ _ htail
    | operation symbol =>
      cases symbol with
      | pi => exact ih hkeys _ _ htail
      | e => exact ih hkeys _ _ htail
      | unary symbol => exact ih hkeys _ _ htail
      | equals => exact hoperation value (Option.some.inj hhead)
      | clears => cases hkeys
      | binary symbol => cases hkeys

/-- The keys display the same numbers after a history and `=` as after key `C` alone. -/
def SameAfterEquals (ar : Arithmetic V) (history keys : List Key) : Prop :=
  ∃ vc vc' values, (calculator ar).run .launch (history ++ [.operation .equals]) = some vc ∧
    (calculator ar).run .launch [.operation .clears] = some vc' ∧
    (calculator ar).observations vc keys = some values ∧
    (calculator ar).observations vc' keys = some values

/-- After a digit key the desk after `=` differs from the desk after `C` in the pending operation
only. -/
theorem sameAfterEquals_iff_desk {ar : Arithmetic V} (h : ar.Text) (history : List Key) (d : Fin 10)
    (keys : List Key) :
    SameAfterEquals ar history (.digit d :: keys) ↔
      (desk ar).observations
          (.idle (ar.number [d]) [d] ((desk ar).run (.launched ar) history).pending) keys =
        (desk ar).observations (.idle (ar.number [d]) [d] none) keys := by
  obtain ⟨vc, hrun, hshows⟩ := exists_run_launch h (history ++ [.operation .equals])
  obtain ⟨vc', hrun', hshows'⟩ := exists_run_launch h [.operation .clears]
  have hvalues := (calculator_simulates_desk h).observations vc _ hshows (.digit d :: keys)
  have hvalues' := (calculator_simulates_desk h).observations vc' _ hshows' (.digit d :: keys)
  rw [TotalMachine.run_append_singleton] at hvalues
  change _ = some (some (ar.number [d]) :: (desk ar).observations
    (.idle (ar.number [d]) [d] ((desk ar).run (.launched ar) history).pending) keys) at hvalues
  change _ = some (some (ar.number [d]) :: (desk ar).observations
    (.idle (ar.number [d]) [d] none) keys) at hvalues'
  constructor
  · rintro ⟨vc₁, vc₁', values, hrun₁, hrun₁', hleft, hright⟩
    obtain rfl := Option.some.inj (hrun.symm.trans hrun₁)
    obtain rfl := Option.some.inj (hrun'.symm.trans hrun₁')
    obtain rfl := Option.some.inj (hvalues.symm.trans hleft)
    exact (List.cons.inj (Option.some.inj (hright.symm.trans hvalues'))).2
  · intro heq
    refine ⟨vc, vc', _, hrun, hrun', hvalues, ?_⟩
    rw [hvalues', heq]

/-- In the counting interpretation no operation of the table returns its second operand. -/
theorem counting_perform_ne (operation : PendingBinaryOperation ℕ)
    (hfunction : ∃ symbol, operation.function = counting.binary symbol) (x : ℕ) :
    operation.perform x ≠ x := by
  obtain ⟨symbol, hsymbol⟩ := hfunction
  have hperform : operation.perform x = operation.firstOperand + x + 1 := by
    rw [PendingBinaryOperation.perform, hsymbol]
    cases symbol <;> rfl
  omega

/-- A finished calculation is not seen by a new one, which starts with a digit, exactly if it left no
operation pending or the new one does not press `=` before a binary operator or `C`. -/
theorem sameAfterEquals_iff (history : List Key) (d : Fin 10) (keys : List Key) :
    (∀ (V : Type) (ar : Arithmetic V), ar.Text →
        SameAfterEquals ar history (.digit d :: keys)) ↔
      pendingAfter history = false ∨ equalsFirst keys = false := by
  constructor
  · intro hsame
    by_contra hnot
    obtain ⟨hpending, hequals⟩ := not_or.mp hnot
    rw [Bool.not_eq_false] at hpending hequals
    have hpends := Desk.pends counting history
    obtain ⟨operation, hoperation⟩ :=
      Option.isSome_iff_exists.mp (hpends.pending.trans hpending)
    have hdesk := (sameAfterEquals_iff_desk counting_text history d keys).mp
      (hsame ℕ counting counting_text)
    rw [hoperation] at hdesk
    exact Desk.observations_idle_ne counting keys hequals _ _ operation
      (counting_perform_ne operation (hpends.function operation hoperation)) hdesk
  · intro hcondition V ar h
    rw [sameAfterEquals_iff_desk h]
    obtain hpending | hequals := hcondition
    · rw [Option.not_isSome_iff_eq_none.mp
        (Bool.eq_false_iff.mp ((Desk.pends ar history).pending.trans hpending))]
    · exact Desk.observations_idle ar keys hequals _ _ _ _

/-- After `1 + 2 =` the keys `5 =` display `6` at the end. -/
theorem not_sameAfterEquals_onePlusTwo :
    ¬ SameAfterEquals wholeNumbers [.digit 1, .operation (.binary .plus), .digit 2]
      [.digit 5, .operation .equals] := by
  rw [sameAfterEquals_iff_desk wholeNumbers_text]
  intro heq
  have hvalue := Option.some.inj (List.cons.inj heq).1
  change wholeNumbers.number [1] + wholeNumbers.number [5] = wholeNumbers.number [5] at hvalue
  simp only [wholeNumbers_number] at hvalue
  cases hvalue

end Coursework.Calculator
