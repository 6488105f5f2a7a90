import Coursework.Calculator.WholeNumbers

/-!
# Keys that leave no trace

Key `C` makes the calculator as good as new, and a binary operator that is pressed again
changes nothing. The screens differ, but the desks that they show are equal.
-/

namespace Coursework.Calculator

open Transition

variable {V : Type}

/-- The number on the screen after launch. -/
theorem Desk.launched_eq_cleared {ar : Arithmetic V} (hzero : ar.ofText "0" = some ar.zero) :
    Desk.launched ar = Desk.cleared ar := by
  have hnumber : (Desk.launched ar).value = ar.zero := by
    change (ar.ofText "0").getD ar.zero = ar.zero
    rw [hzero, Option.getD_some]
  change (⟨(Desk.launched ar).value, [], none, false, false⟩ : Desk V) = _
  rw [hnumber, Desk.cleared]

/-- Two sequences of keys that lead to the same desk are not told apart by later keys. -/
theorem observations_eq_of_desk {ar : Arithmetic V} (h : ar.Text) (front front' : List Key)
    (hdesk : (desk ar).run (.launched ar) front = (desk ar).run (.launched ar) front')
    (continuation : List Key) :
    ∃ vc vc' values, (calculator ar).run .launch front = some vc ∧
      (calculator ar).run .launch front' = some vc' ∧
      (calculator ar).observations vc continuation = some values ∧
      (calculator ar).observations vc' continuation = some values := by
  obtain ⟨vc, hrun, hshows⟩ := exists_run_launch h front
  obtain ⟨vc', hrun', hshows'⟩ := exists_run_launch h front'
  have hsimulation := calculator_simulates_desk h
  refine ⟨vc, vc', _, hrun, hrun', hsimulation.observations vc _ hshows continuation, ?_⟩
  rw [hsimulation.observations vc' _ hshows' continuation, hdesk]

/-- After `C` the calculator displays what it displays after launch. -/
theorem observations_after_clears (ar : Arithmetic V) (h : ar.Text)
    (hzero : ar.ofText "0" = some ar.zero) (history continuation : List Key) :
    ∃ vc values, (calculator ar).run .launch (history ++ [.operation .clears]) = some vc ∧
      (calculator ar).observations vc continuation = some values ∧
      (calculator ar).observations .launch continuation = some values := by
  have hdesk : (desk ar).run (.launched ar) (history ++ [.operation .clears]) =
      (desk ar).run (.launched ar) [] := by
    rw [TotalMachine.run_append_singleton]
    exact (Desk.launched_eq_cleared hzero).symm
  obtain ⟨vc, vc', values, hrun, hlaunch, hvalues, hvalues'⟩ :=
    observations_eq_of_desk h _ _ hdesk continuation
  obtain rfl := Option.some.inj hlaunch
  exact ⟨vc, values, hrun, hvalues, hvalues'⟩

/-- After `5 + 3 C`, where an operation is still pending. -/
theorem observations_after_clears_pending :
    ∃ vc values, (calculator wholeNumbers).run .launch
        ([.digit 5, .operation (.binary .plus), .digit 3] ++ [.operation .clears]) = some vc ∧
      (calculator wholeNumbers).observations vc [.digit 4, .operation .equals] = some values ∧
      (calculator wholeNumbers).observations .launch [.digit 4, .operation .equals] =
        some values := by
  apply observations_after_clears wholeNumbers wholeNumbers_text
  have hnumber := wholeNumbers_text.ofText_number [0] (List.cons_ne_nil 0 [])
  rw [wholeNumbers_number] at hnumber
  exact hnumber

/-- A binary operator pressed right after a binary operator changes nothing. -/
theorem Desk.operate_binary_twice (ar : Arithmetic V) (desk : Desk V) (symbol : BinarySymbol) :
    (desk.operate ar (.binary symbol)).operate ar (.binary symbol) =
      desk.operate ar (.binary symbol) := by
  cases hrepeated : desk.repeated with
  | false =>
    rw [desk.operate_binary ar symbol hrepeated]
    rfl
  | true =>
    rw [desk.operate_binary_of_repeated ar symbol hrepeated,
      Desk.operate_binary_of_repeated ar { desk with typed := [] } symbol hrepeated]

/-- Pressing a binary operator more than once is pressing it once. -/
theorem Desk.run_replicate_binary (ar : Arithmetic V) (before : Desk V) (symbol : BinarySymbol)
    (n : ℕ) :
    (desk ar).run before (List.replicate (n + 1) (.operation (.binary symbol))) =
      before.operate ar (.binary symbol) := by
  induction n with
  | zero => rfl
  | succ n ih =>
    rw [List.replicate_succ', TotalMachine.run_append_singleton, ih]
    exact before.operate_binary_twice ar symbol

/-- A binary operator pressed several times has the effect of pressing it once. -/
theorem observations_after_repeated (ar : Arithmetic V) (h : ar.Text) (history : List Key)
    (symbol : BinarySymbol) (n : ℕ) (hn : 1 ≤ n) (continuation : List Key) :
    ∃ vc vc' values,
      (calculator ar).run .launch
        (history ++ List.replicate n (.operation (.binary symbol))) = some vc ∧
      (calculator ar).run .launch (history ++ [.operation (.binary symbol)]) = some vc' ∧
      (calculator ar).observations vc continuation = some values ∧
      (calculator ar).observations vc' continuation = some values := by
  apply observations_eq_of_desk h
  obtain ⟨n, rfl⟩ := Nat.exists_eq_add_of_le' hn
  rw [TotalMachine.run_append, Desk.run_replicate_binary, TotalMachine.run_append_singleton]
  rfl

/-- `1 + + + 2 =` displays what `1 + 2 =` displays. -/
theorem observations_after_repeated_threeTimes :
    ∃ vc vc' values,
      (calculator wholeNumbers).run .launch
        ([.digit 1] ++ List.replicate 3 (.operation (.binary .plus))) = some vc ∧
      (calculator wholeNumbers).run .launch
        ([.digit 1] ++ [.operation (.binary .plus)]) = some vc' ∧
      (calculator wholeNumbers).observations vc [.digit 2, .operation .equals] = some values ∧
      (calculator wholeNumbers).observations vc' [.digit 2, .operation .equals] = some values :=
  observations_after_repeated wholeNumbers wholeNumbers_text [.digit 1] .plus 3 (by decide)
    [.digit 2, .operation .equals]

end Coursework.Calculator
