import Coursework.Posix.Stdio
import Coursework.Transition.Loop
import Mathlib.Data.List.Infix

/-!
# The menu that calls itself

The function `process` shows the menu, reads a choice and calls itself again after every choice
but 3. Each call has an array of its own, which nothing is written to at the end of the input,
and which is too small for lines of nine characters and more, and takes its part of the stack.
The child that greets leaves through `exit`: where the parent and the child share a standard
input that can be repositioned, this moves it back to what the parent has taken from its buffer.
-/

namespace Coursework.FunctionList

open Posix Transition

/-- What the parent does for a choice: it runs a child that prints the greeting or one that becomes
`ls`, reports an invalid choice, or reports that there is no child. -/
inductive Action where
  | helloWorld
  | listFiles
  | invalidChoice
  | forkFailed
  deriving DecidableEq, Repr

/-- How the program ends: by `exit`, or by a signal where the stack has no room for another call. -/
inductive Ending where
  | exited
  | killed
  deriving DecidableEq, Repr

/-- The end of the program, and what was done for which line until then. -/
structure Outcome where
  ending : Ending
  actions : List (ℕ × Action)
  deriving DecidableEq, Repr

/-- What the program does not decide: what `atoi` makes of the array of each call as long as nothing
is stored in it, which forks succeed, what is left of the input after the exit of the child of each
call, and for how many calls the stack has room. -/
structure Environment where
  userInput : ℕ → ℤ
  fork : ℕ → Bool
  afterExit : ℕ → List UInt8 → List UInt8
  room : ℕ

/-- The parent at the head of the loop of a call of `process`: the input left, the calls and forks
so far, the selection, the line it was read from, the lines read to their end, and what was done for
which line. -/
structure Process where
  stdin : List UInt8
  calls : ℕ
  forks : ℕ
  selection : ℤ
  line : ℕ
  newlines : ℕ
  actions : List (ℕ × Action)

section Program

variable (env : Environment)

/-- A call of `process` up to its loop. -/
def Process.call (s : Process) : Process :=
  let (piece, rest) := fgets 9 s.stdin
  { s with
    stdin := rest
    calls := s.calls + 1
    selection := if piece = [] then env.userInput s.calls else atoi piece
    line := s.newlines
    newlines := s.newlines + piece.count newline }

/-- An action for the present selection. -/
def Process.act (s : Process) (action : Action) : Process :=
  { s with actions := s.actions ++ [(s.line, action)] }

/-- A branch that forks: the parent of a child waits for it, with so much of the input left, and
calls `process`; without a child the loop comes round with the same selection. -/
def Process.forkThen (s : Process) (action : Action) (left : List UInt8) : Process :=
  if env.fork s.forks then
    ({ s with forks := s.forks + 1, stdin := left }.act action).call env
  else { s with forks := s.forks + 1 }.act .forkFailed

/-- A turn of the loop of `process`, which is left by `exit` alone. For a call without room on the
stack there is none. -/
def process (s : Process) : Turn Process Outcome :=
  if env.room < s.calls then .leave ⟨.killed, s.actions⟩
  else if s.selection = 1 then
    .again (s.forkThen env .helloWorld (env.afterExit s.calls s.stdin))
  else if s.selection = 2 then .again (s.forkThen env .listFiles s.stdin)
  else if s.selection = 3 then .leave ⟨.exited, s.actions⟩
  else .again ((s.act .invalidChoice).call env)

/-- The first call of `process`. -/
def main (stdin : List UInt8) : Process :=
  Process.call env ⟨stdin, 0, 0, 0, 0, 0, []⟩

end Program

/-- The action for a choice, which 3 has none of. -/
def menuAction (selection : ℤ) : Option Action :=
  if selection = 1 then some .helloWorld
  else if selection = 2 then some .listFiles
  else if selection = 3 then none
  else some .invalidChoice

/-- One action for each of the lines up to the first of value 3. -/
def expectedActions : ℕ → List (List UInt8) → List (ℕ × Action)
  | _, [] => []
  | number, line :: rest =>
    match menuAction (atoi line) with
    | none => []
    | some action => (number, action) :: expectedActions (number + 1) rest

/-- The text of lines. -/
def textOf (lines : List (List UInt8)) : List UInt8 := lines.flatMap fun line => line ++ [newline]

/-- The program exits, and until then does one action for each line up to the first of value 3. -/
def FollowsInput (env : Environment) (lines : List (List UInt8)) : Prop :=
  Returns (process env) (main env (textOf lines)) ⟨.exited, expectedActions 0 lines⟩

/-- A child that greets does not disturb the lines. No line asks for one, or its exit leaves the
input where it is, as that of a pipe or a terminal, or the parent has what is left in its buffer and
only finds something behind it, where a line of value 3 comes first. -/
def ExitKeeps (env : Environment) (lines : List (List UInt8)) : Prop :=
  (∃ line ∈ lines, atoi line = 1) →
    (∀ calls left, env.afterExit calls left = left) ∨
      (∃ line ∈ lines, atoi line = 3) ∧ ∀ calls left, left <+: env.afterExit calls left

/-- The pieces that are read select what the lines select, and the stack has room for the calls. A
line of nine characters and more is read in pieces: the first must select what the line selects, and
unless this is to leave, the second must leave, with no other line to be acted on. At the end of the
input the array must happen to hold a 3. -/
def SelectsByLine (env : Environment) : ℕ → List (List UInt8) → Prop
  | calls, [] => calls < env.room ∧ env.userInput calls = 3
  | calls, line :: rest =>
    if atoi line = 3 then calls < env.room ∧ atoi (line.take 9) = 3
    else if line.length < 9 then SelectsByLine env (calls + 1) rest
    else calls + 1 < env.room ∧ menuAction (atoi (line.take 9)) = menuAction (atoi line) ∧
      atoi ((line.drop 9).take 9) = 3 ∧ ∀ next ∈ rest.head?, atoi next = 3

variable {env : Environment}

/-- A choice other than 3 has an action. -/
theorem menuAction_eq_none_iff (selection : ℤ) : menuAction selection = none ↔ selection = 3 := by
  rw [menuAction]
  split_ifs with hone htwo hthree
  · exact iff_of_false id (by omega)
  · exact iff_of_false id (by omega)
  · exact iff_of_true rfl hthree
  · exact iff_of_false id hthree

/-- Every other choice has one. -/
theorem exists_menuAction {selection : ℤ} (h : selection ≠ 3) :
    ∃ action, menuAction selection = some action :=
  Option.ne_none_iff_exists'.mp (mt (menuAction_eq_none_iff selection).mp h)

/-- What is left of the input after an action. -/
def Process.leftBy (env : Environment) (s : Process) (action : Action) : List UInt8 :=
  if action = .helloWorld then env.afterExit s.calls s.stdin else s.stdin

/-- The parent after an action, if its forks succeed. -/
def Process.acted (env : Environment) (s : Process) (action : Action) : Process :=
  ({ s with
      forks := if action = .invalidChoice then s.forks else s.forks + 1
      stdin := s.leftBy env action } : Process).act action

/-- The next call after an action. -/
def Process.next (env : Environment) (s : Process) (action : Action) : Process :=
  (s.acted env action).call env

/-- A turn is decided by the action of the selection. -/
theorem process_eq (hfork : ∀ n, env.fork n = true) {s : Process} (hroom : s.calls ≤ env.room) :
    process env s =
      match menuAction s.selection with
      | none => .leave ⟨.exited, s.actions⟩
      | some action => .again (s.next env action) := by
  rw [process, menuAction, if_neg (Nat.not_lt_of_le hroom)]
  split_ifs
  · rw [Process.forkThen, if_pos (hfork _)]
    rfl
  · rw [Process.forkThen, if_pos (hfork _)]
    rfl
  · rfl
  · rfl

/-- A turn leads to the state after an action, with room for the call that came to it. -/
theorem next_of_again (hfork : ∀ n, env.fork n = true) {s s' : Process}
    (h : process env s = .again s') :
    s.calls ≤ env.room ∧ ∃ action, menuAction s.selection = some action ∧
      s' = s.next env action := by
  by_cases hroom : env.room < s.calls
  · rw [process, if_pos hroom] at h
    cases h
  · rw [process_eq hfork (Nat.le_of_not_lt hroom)] at h
    split at h
    · cases h
    · rename_i action haction
      exact ⟨Nat.le_of_not_lt hroom, action, haction, (Turn.again.inj h).symm⟩

/-- A turn leaves with what was done, by `exit` for a selection of 3, or killed without room. -/
theorem of_leave (hfork : ∀ n, env.fork n = true) {s : Process} {outcome : Outcome}
    (h : process env s = .leave outcome) :
    outcome.actions = s.actions ∧
      (outcome.ending = .exited → s.calls ≤ env.room ∧ s.selection = 3) := by
  by_cases hroom : env.room < s.calls
  · rw [process, if_pos hroom] at h
    obtain rfl := Turn.leave.inj h
    exact ⟨rfl, nofun⟩
  · rw [process_eq hfork (Nat.le_of_not_lt hroom)] at h
    split at h
    · rename_i hnone
      obtain rfl := Turn.leave.inj h
      exact ⟨rfl, fun _ => ⟨Nat.le_of_not_lt hroom, (menuAction_eq_none_iff _).mp hnone⟩⟩
    · cases h

/-- What was done stays done. -/
theorem actions_prefix_of_returns (hfork : ∀ n, env.fork n = true) {s : Process}
    {outcome : Outcome} (h : Returns (process env) s outcome) : s.actions <+: outcome.actions := by
  refine h.invariant (fun t => s.actions <+: t.actions) (fun outcome => s.actions <+: outcome.actions)
    (List.prefix_refl _) ?_ ?_
  · intro t t' ht hturn
    obtain ⟨-, action, -, rfl⟩ := next_of_again hfork hturn
    exact ht.trans (List.prefix_append _ _)
  · intro t outcome ht hturn
    rw [(of_leave hfork hturn).1]
    exact ht

/-- A call without room on the stack does not exit. -/
theorem le_room_of_exited {s : Process} {result : List (ℕ × Action)}
    (h : Returns (process env) s ⟨.exited, result⟩) : s.calls ≤ env.room := by
  by_contra hroom
  have hkilled : process env s = .leave ⟨.killed, s.actions⟩ := by
    rw [process, if_pos (Nat.lt_of_not_le hroom)]
  cases (returns_iff_of_leave hkilled).mp h

/-- A selection of 3 exits with what was done. -/
theorem returns_iff_of_exit (hfork : ∀ n, env.fork n = true) {s : Process} (h : s.selection = 3)
    (result : List (ℕ × Action)) :
    Returns (process env) s ⟨.exited, result⟩ ↔ s.calls ≤ env.room ∧ s.actions = result := by
  have hleave (hroom : s.calls ≤ env.room) :
      Returns (process env) s ⟨.exited, result⟩ ↔ s.actions = result := by
    have hturn : process env s = .leave ⟨.exited, s.actions⟩ := by
      rw [process_eq hfork hroom, (menuAction_eq_none_iff _).mpr h]
    rw [returns_iff_of_leave hturn, Outcome.mk.injEq, and_iff_right rfl]
  constructor
  · intro hreturns
    have hroom := le_room_of_exited hreturns
    exact ⟨hroom, (hleave hroom).mp hreturns⟩
  · rintro ⟨hroom, hactions⟩
    exact (hleave hroom).mpr hactions

/-- Another selection does one action and goes on. -/
theorem returns_iff_of_action (hfork : ∀ n, env.fork n = true) {s : Process} {action : Action}
    (h : menuAction s.selection = some action) (hroom : s.calls ≤ env.room) (outcome : Outcome) :
    Returns (process env) s outcome ↔ Returns (process env) (s.next env action) outcome := by
  refine returns_iff_of_again ?_
  rw [process_eq hfork hroom, h]

/-- Where the next call exits with a result exactly under a condition, which asks for room for this
call, so does this call. -/
theorem exited_iff_of_action (hfork : ∀ n, env.fork n = true) {s : Process} {action : Action}
    (h : menuAction s.selection = some action) {result : List (ℕ × Action)} {condition : Prop}
    (hroom : condition → s.calls ≤ env.room)
    (hnext : Returns (process env) (s.next env action) ⟨.exited, result⟩ ↔ condition) :
    Returns (process env) s ⟨.exited, result⟩ ↔ condition := by
  constructor
  · intro hreturns
    exact hnext.mp ((returns_iff_of_action hfork h (le_room_of_exited hreturns) _).mp hreturns)
  · intro hcondition
    exact (returns_iff_of_action hfork h (hroom hcondition) _).mpr (hnext.mpr hcondition)

/-- A run with another result than its next action begins does not exit with it. -/
theorem not_returns_of_action (hfork : ∀ n, env.fork n = true) {s : Process} {action : Action}
    (h : menuAction s.selection = some action) {result : List (ℕ × Action)}
    (hresult : ¬s.actions ++ [(s.line, action)] <+: result) :
    ¬Returns (process env) s ⟨.exited, result⟩ := by
  intro hreturns
  rw [returns_iff_of_action hfork h (le_room_of_exited hreturns)] at hreturns
  exact hresult (actions_prefix_of_returns hfork hreturns)

/-- Where what is expected next is not for the present line, it is done exactly if nothing is
expected and the selection leaves. -/
theorem returns_append_iff (hfork : ∀ n, env.fork n = true) (s : Process)
    (more : List (ℕ × Action)) (hline : ∀ entry ∈ more.head?, entry.1 ≠ s.line) :
    Returns (process env) s ⟨.exited, s.actions ++ more⟩ ↔
      s.calls ≤ env.room ∧ s.selection = 3 ∧ more = [] := by
  cases haction : menuAction s.selection with
  | none =>
    have hexit := (menuAction_eq_none_iff _).mp haction
    rw [returns_iff_of_exit hfork hexit, List.self_eq_append_right, and_iff_right hexit]
  | some action =>
    refine iff_of_false (not_returns_of_action hfork haction fun hprefix => ?_) ?_
    · obtain ⟨rest, rfl⟩ := (List.prefix_append_right_inj _).mp hprefix
      exact hline _ rfl rfl
    · rintro ⟨-, hexit, -⟩
      rw [(menuAction_eq_none_iff _).mpr hexit] at haction
      cases haction

/-- Nothing more is done exactly if the selection leaves. -/
theorem returns_actions_iff (hfork : ∀ n, env.fork n = true) (s : Process) :
    Returns (process env) s ⟨.exited, s.actions⟩ ↔ s.calls ≤ env.room ∧ s.selection = 3 := by
  have happend := returns_append_iff hfork s [] nofun
  rw [List.append_nil] at happend
  exact happend.trans (and_congr_right fun _ => and_iff_left rfl)

/-- An action for a line leaves what was left, and finds something behind it only if a line
leaves. -/
theorem ExitKeeps.leftBy {lines : List (List UInt8)} (h : ExitKeeps env lines) {line : List UInt8}
    (hline : line ∈ lines) {action : Action} (haction : menuAction (atoi line) = some action)
    (s : Process) :
    ∃ more, s.leftBy env action = s.stdin ++ more ∧ (more = [] ∨ ∃ line ∈ lines, atoi line = 3) := by
  rw [Process.leftBy]
  split
  · rename_i hhello
    subst hhello
    have hone : atoi line = 1 := by
      rw [menuAction] at haction
      by_contra hone
      rw [if_neg hone] at haction
      split_ifs at haction <;> cases haction
    rcases h ⟨line, hline, hone⟩ with hkeeps | ⟨hleaves, hprefix⟩
    · exact ⟨[], (hkeeps _ _).trans (List.append_nil _).symm, Or.inl rfl⟩
    · obtain ⟨more, hmore⟩ := hprefix s.calls s.stdin
      exact ⟨more, hmore.symm, Or.inr hleaves⟩
  · exact ⟨[], (List.append_nil _).symm, Or.inl rfl⟩

/-- A line that leaves behind one that does not. -/
theorem exists_three_of_cons {line : List UInt8} {rest : List (List UInt8)} (hvalue : atoi line ≠ 3)
    (h : ∃ last ∈ line :: rest, atoi last = 3) : ∃ last ∈ rest, atoi last = 3 := by
  obtain ⟨last, hlast, hthree⟩ := h
  rcases List.mem_cons.mp hlast with rfl | hlast
  · exact absurd hthree hvalue
  · exact ⟨last, hlast, hthree⟩

/-- Children that do not disturb the lines do not disturb those behind a line of another value than
3. -/
theorem ExitKeeps.tail {line : List UInt8} {rest : List (List UInt8)}
    (h : ExitKeeps env (line :: rest)) (hvalue : atoi line ≠ 3) : ExitKeeps env rest := by
  rintro ⟨greeting, hmem, hone⟩
  exact (h ⟨greeting, List.mem_cons_of_mem _ hmem, hone⟩).imp_right
    (And.imp_left (exists_three_of_cons hvalue))

/-- What is expected of lines from a number on starts with that number. -/
theorem expectedActions_head {number : ℕ} {lines : List (List UInt8)} {entry : ℕ × Action}
    (h : entry ∈ (expectedActions number lines).head?) : entry.1 = number := by
  cases lines with
  | nil => cases h
  | cons line rest =>
    rw [expectedActions] at h
    split at h
    · cases h
    · obtain rfl := Option.some.inj h
      rfl

/-- Nothing is expected of lines exactly if the first of them leaves. -/
theorem expectedActions_eq_nil_iff (number : ℕ) (lines : List (List UInt8)) :
    expectedActions number lines = [] ↔ ∀ next ∈ lines.head?, atoi next = 3 := by
  cases lines with
  | nil => exact iff_of_true rfl nofun
  | cons line rest =>
    rw [expectedActions, List.head?_cons]
    simp only [Option.mem_some_iff, forall_eq', ← menuAction_eq_none_iff]
    split
    · rename_i hnone
      exact iff_of_true rfl hnone
    · rename_i action hsome
      refine iff_of_false (List.cons_ne_nil _ _) ?_
      rw [hsome]
      exact Option.some_ne_none action

/-- At the end of the input the array is left as it was. -/
theorem call_of_nil (env : Environment) (s : Process) (hstdin : s.stdin = []) :
    s.call env =
      { s with
        stdin := []
        calls := s.calls + 1
        selection := env.userInput s.calls
        line := s.newlines
        newlines := s.newlines } := by
  rw [Process.call, hstdin, fgets_nil]
  rfl

/-- A line for which there is room is read as a whole. -/
theorem call_of_length_lt (env : Environment) (s : Process) {line rest : List UInt8}
    (hline : newline ∉ line)
    (hroom : line.length < 9) (hstdin : s.stdin = line ++ newline :: rest) :
    s.call env =
      { s with
        stdin := rest
        calls := s.calls + 1
        selection := atoi line
        line := s.newlines
        newlines := s.newlines + 1 } := by
  have hcount : (line ++ [newline]).count newline = 1 := by
    rw [List.count_append, List.count_eq_zero.mpr hline]
    rfl
  have hne : line ++ [newline] ≠ [] := List.append_ne_nil_of_right_ne_nil _ (List.cons_ne_nil _ _)
  rw [Process.call, hstdin, fgets_of_length_lt rest hline hroom]
  simp only [hcount, atoi_append_newline, if_neg hne]

/-- Of a longer line nine characters are read. -/
theorem call_of_le_length (env : Environment) (s : Process) {line rest : List UInt8}
    (hline : newline ∉ line)
    (hroom : 9 ≤ line.length) (hstdin : s.stdin = line ++ newline :: rest) :
    s.call env =
      { s with
        stdin := line.drop 9 ++ newline :: rest
        calls := s.calls + 1
        selection := atoi (line.take 9)
        line := s.newlines
        newlines := s.newlines } := by
  have hcount : (line.take 9).count newline = 0 :=
    List.count_eq_zero.mpr fun hmem => hline (List.mem_of_mem_take hmem)
  have hne : line.take 9 ≠ [] := by
    rw [← List.length_pos_iff, List.length_take]
    omega
  rw [Process.call, hstdin, fgets_of_le_length _ hline hroom]
  simp only [hcount, if_neg hne, Nat.add_zero]

/-- In either case the selection is that of the first nine characters. -/
theorem selection_call (env : Environment) (s : Process) {line rest : List UInt8}
    (hline : newline ∉ line)
    (hstdin : s.stdin = line ++ newline :: rest) :
    (s.call env).selection = atoi (line.take 9) := by
  rcases Nat.lt_or_ge line.length 9 with hroom | hroom
  · rw [call_of_length_lt env s hline hroom hstdin, List.take_of_length_le (Nat.le_of_lt hroom)]
  · rw [call_of_le_length env s hline hroom hstdin]

/-- The second piece of a line too long for its array does what is expected of the lines behind if it
leaves with no line to act on. -/
theorem returns_second_iff (hfork : ∀ n, env.fork n = true) (s : Process) {line : List UInt8}
    {rest : List (List UInt8)} (hexit : ExitKeeps env (line :: rest)) (hline : newline ∉ line)
    (hlong : 9 ≤ line.length) {behind : List UInt8} (hstdin : s.stdin = line ++ newline :: behind)
    {action : Action} (haction : menuAction (atoi line) = some action) :
    Returns (process env) ((s.call env).next env action)
        ⟨.exited, s.actions ++ (s.newlines, action) :: expectedActions (s.newlines + 1) rest⟩ ↔
      s.calls + 1 < env.room ∧ atoi ((line.drop 9).take 9) = 3 ∧
        ∀ next ∈ rest.head?, atoi next = 3 := by
  have hcall := call_of_le_length env s hline hlong hstdin
  have hdrop : newline ∉ line.drop 9 := fun hmem => hline (List.mem_of_mem_drop hmem)
  obtain ⟨more, hleft, -⟩ := hexit.leftBy List.mem_cons_self haction (s.call env)
  have hsecond : ((s.call env).next env action).selection = atoi ((line.drop 9).take 9) := by
    have hbehind : (s.call env).leftBy env action = line.drop 9 ++ newline :: (behind ++ more) := by
      rw [hleft, hcall, List.append_assoc]
      rfl
    exact selection_call env _ hdrop hbehind
  have hlabel : ((s.call env).next env action).line = s.newlines := by
    change (s.call env).newlines = s.newlines
    rw [hcall]
  have hcalls : ((s.call env).next env action).calls = s.calls + 2 := by
    change (s.call env).calls + 1 = s.calls + 2
    rw [hcall]
  have hactions : ((s.call env).next env action).actions = s.actions ++ [(s.newlines, action)] := rfl
  have hlater := returns_append_iff hfork ((s.call env).next env action)
    (expectedActions (s.newlines + 1) rest) fun entry hentry => by
      rw [hlabel, expectedActions_head hentry]
      exact Nat.succ_ne_self s.newlines
  rw [hactions, List.append_assoc, hsecond, hcalls, expectedActions_eq_nil_iff] at hlater
  exact hlater

/-- A call that reads a line too long for its array does what is expected of the lines if its first
piece selects what the line does and its second piece leaves with no line to act on. -/
theorem returns_of_long_iff (hfork : ∀ n, env.fork n = true) (s : Process) {line : List UInt8}
    {rest : List (List UInt8)} (hexit : ExitKeeps env (line :: rest)) (hline : newline ∉ line)
    (hlong : 9 ≤ line.length) (hvalue : atoi line ≠ 3) {behind : List UInt8}
    (hstdin : s.stdin = line ++ newline :: behind) :
    Returns (process env) (s.call env)
        ⟨.exited, s.actions ++ expectedActions s.newlines (line :: rest)⟩ ↔
      s.calls + 1 < env.room ∧ menuAction (atoi (line.take 9)) = menuAction (atoi line) ∧
        atoi ((line.drop 9).take 9) = 3 ∧ ∀ next ∈ rest.head?, atoi next = 3 := by
  obtain ⟨action, haction⟩ := exists_menuAction hvalue
  have hcall := call_of_le_length env s hline hlong hstdin
  have hcalls : (s.call env).calls = s.calls + 1 := by rw [hcall]
  have hselection : (s.call env).selection = atoi (line.take 9) := by rw [hcall]
  have hsecond := returns_second_iff hfork s hexit hline hlong hstdin haction
  rw [expectedActions, haction]
  dsimp only
  cases hfirst : menuAction (atoi (line.take 9)) with
  | none =>
    refine iff_of_false ?_ fun h => Option.some_ne_none action h.2.1.symm
    rw [returns_iff_of_exit hfork (hselection.trans ((menuAction_eq_none_iff _).mp hfirst))]
    exact fun h => List.cons_ne_nil _ _ (List.self_eq_append_right.mp h.2)
  | some first =>
    rw [← hselection] at hfirst
    by_cases hsame : first = action
    · subst hsame
      refine exited_iff_of_action hfork hfirst (fun h => hcalls.trans_le h.1.le) ?_
      exact hsecond.trans (and_congr_right fun _ => (and_iff_right rfl).symm)
    · refine iff_of_false (not_returns_of_action hfork hfirst fun hprefix => ?_) fun h =>
        hsame (Option.some.inj h.2.1)
      change s.actions ++ [(s.newlines, first)] <+: _ at hprefix
      rw [List.prefix_append_right_inj, List.cons_prefix_cons] at hprefix
      exact hsame (Prod.mk.inj hprefix.1).2

/-- The stack has room for the next call. -/
theorem SelectsByLine.lt_room {calls : ℕ} {lines : List (List UInt8)}
    (h : SelectsByLine env calls lines) : calls < env.room := by
  induction lines generalizing calls with
  | nil => exact h.1
  | cons line rest ih =>
    rw [SelectsByLine] at h
    split_ifs at h
    · exact h.1
    · exact (Nat.lt_succ_self calls).trans (ih h)
    · exact (Nat.lt_succ_self calls).trans h.1

/-- A run does what is expected of the lines exactly if the pieces that it reads select it. Behind
the lines there may be something if one of them leaves. -/
theorem returns_iff_selectsByLine (hfork : ∀ n, env.fork n = true) {lines : List (List UInt8)}
    (hlines : ∀ line ∈ lines, newline ∉ line) (hexit : ExitKeeps env lines) (s : Process)
    {behind : List UInt8} (hstdin : s.stdin = textOf lines ++ behind)
    (hbehind : behind = [] ∨ ∃ line ∈ lines, atoi line = 3) :
    Returns (process env) (s.call env)
        ⟨.exited, s.actions ++ expectedActions s.newlines lines⟩ ↔
      SelectsByLine env s.calls lines := by
  induction lines generalizing s behind with
  | nil =>
    obtain rfl := hbehind.resolve_right fun h => List.not_mem_nil h.choose_spec.1
    have hcall := call_of_nil env s hstdin
    have hactions := returns_actions_iff hfork (s.call env)
    rw [hcall] at hactions ⊢
    rw [expectedActions, List.append_nil, SelectsByLine]
    exact hactions
  | cons line rest ih =>
    have hline := hlines line List.mem_cons_self
    have htext : s.stdin = line ++ newline :: (textOf rest ++ behind) := by
      rw [hstdin, textOf, List.flatMap_cons, List.append_assoc, List.append_assoc]
      rfl
    rw [SelectsByLine]
    split_ifs with hvalue hshort
    · have hempty : expectedActions s.newlines (line :: rest) = [] := by
        rw [expectedActions, (menuAction_eq_none_iff _).mpr hvalue]
      rw [hempty, List.append_nil, ← selection_call env s hline htext]
      exact returns_actions_iff hfork (s.call env)
    · obtain ⟨action, haction⟩ := exists_menuAction hvalue
      have hcall := call_of_length_lt env s hline hshort htext
      have hselect : menuAction (s.call env).selection = some action := by
        rw [hcall]
        exact haction
      obtain ⟨more, hleft, hmore⟩ := hexit.leftBy List.mem_cons_self haction (s.call env)
      have hstdinNext : ((s.call env).acted env action).stdin = textOf rest ++ (behind ++ more) := by
        change (s.call env).leftBy env action = _
        rw [hleft, hcall, List.append_assoc]
      have hbehindNext : behind ++ more = [] ∨ ∃ last ∈ rest, atoi last = 3 := by
        rcases hbehind with rfl | hbehind
        · rw [List.nil_append]
          exact hmore.imp_right (exists_three_of_cons hvalue)
        · exact Or.inr (exists_three_of_cons hvalue hbehind)
      have hnext := ih (fun line hmem => hlines line (List.mem_cons_of_mem _ hmem))
        (hexit.tail hvalue) ((s.call env).acted env action) hstdinNext hbehindNext
      have hcalls : ((s.call env).acted env action).calls = s.calls + 1 := by
        change (s.call env).calls = _
        rw [hcall]
      have hnewlines : ((s.call env).acted env action).newlines = s.newlines + 1 := by
        change (s.call env).newlines = _
        rw [hcall]
      have hactions : ((s.call env).acted env action).actions =
          s.actions ++ [(s.newlines, action)] := by
        change (s.call env).actions ++ [((s.call env).line, action)] = _
        rw [hcall]
      rw [hcalls, hnewlines, hactions, List.append_assoc] at hnext
      rw [expectedActions, haction]
      exact exited_iff_of_action hfork hselect (fun h => hcalls.trans_le h.lt_room.le) hnext
    · exact returns_of_long_iff hfork s hexit hline (Nat.le_of_not_lt hshort) hvalue htext

/-- Once the input has ended, a menu whose arrays never hold a 3 goes on until the stack is full. -/
theorem exists_killed (hfork : ∀ n, env.fork n = true) (s : Process) (hstdin : s.stdin = [])
    (harray : ∀ call, env.userInput call ≠ 3) (hexit : ∀ calls, env.afterExit calls [] = []) :
    ∃ actions, Returns (process env) (s.call env) ⟨.killed, actions⟩ := by
  have hcall : ∀ t : Process, t.stdin = [] →
      (t.call env).stdin = [] ∧ (t.call env).selection ≠ 3 := by
    intro t ht
    rw [call_of_nil env t ht]
    exact ⟨rfl, harray t.calls⟩
  have hagain : ∀ t t' : Process, t.stdin = [] ∧ t.selection ≠ 3 → process env t = .again t' →
      (t'.stdin = [] ∧ t'.selection ≠ 3) ∧ env.room + 1 - t'.calls < env.room + 1 - t.calls := by
    rintro t t' ⟨ht, -⟩ hturn
    obtain ⟨hroom, action, -, rfl⟩ := next_of_again hfork hturn
    have hleft : t.leftBy env action = [] := by
      rw [Process.leftBy, ht, hexit]
      split <;> rfl
    refine ⟨hcall _ hleft, ?_⟩
    change env.room + 1 - (t.calls + 1) < _
    omega
  obtain ⟨outcome, houtcome⟩ := returns_of_measure (fun t => t.stdin = [] ∧ t.selection ≠ 3)
    (fun t => env.room + 1 - t.calls) hagain (s.call env) (hcall s hstdin)
  have hending : outcome.ending = .killed := by
    refine houtcome.invariant (fun t => t.stdin = [] ∧ t.selection ≠ 3)
      (fun outcome => outcome.ending = .killed) (hcall s hstdin)
      (fun t t' ht hturn => (hagain t t' ht hturn).1) ?_
    rintro t ⟨ending, actions⟩ ⟨-, hselection⟩ hturn
    cases ending with
    | exited => exact absurd ((of_leave hfork hturn).2 rfl).2 hselection
    | killed => rfl
  obtain ⟨ending, actions⟩ := outcome
  exact ⟨actions, hending ▸ houtcome⟩

/-- The program exits after one action for each line up to the first of value 3 exactly if the
pieces that it reads select what the lines do, the first line of value 3, or the array at the end,
leaves, and the stack has room for the calls. -/
theorem followsInput_iff (hfork : ∀ n, env.fork n = true) (lines : List (List UInt8))
    (hlines : ∀ line ∈ lines, newline ∉ line) (hexit : ExitKeeps env lines) :
    FollowsInput env lines ↔ SelectsByLine env 0 lines :=
  returns_iff_selectsByLine hfork hlines hexit ⟨textOf lines, 0, 0, 0, 0, 0, []⟩
    (List.append_nil _).symm (Or.inl rfl)

/-- The bytes of a text of characters of one byte each. -/
def bytesOf (text : List Char) : List UInt8 := text.map Char.toUInt8

/-- A greeting, a choice that is not one, and the end, from a pipe. -/
theorem followsInput_iff_greeting :
    FollowsInput ⟨fun _ => 0, fun _ => true, fun _ left => left, 100⟩
        [bytesOf ['1'], bytesOf ['x'], bytesOf ['3'], bytesOf ['2']] ↔
      SelectsByLine ⟨fun _ => 0, fun _ => true, fun _ left => left, 100⟩ 0
        [bytesOf ['1'], bytesOf ['x'], bytesOf ['3'], bytesOf ['2']] :=
  followsInput_iff (fun _ => rfl) _ (by decide) fun _ => Or.inl fun _ _ => rfl

/-- A line behind a greeting is read again from a file that the parent has in its buffer. -/
theorem not_followsInput_file (room : ℕ) :
    ¬FollowsInput ⟨fun _ => 3, fun _ => true, fun _ left => left ++ left, room⟩
      [bytesOf ['1'], bytesOf ['x']] := by
  let env : Environment := ⟨fun _ => 3, fun _ => true, fun _ left => left ++ left, room⟩
  let first := main env (textOf [bytesOf ['1'], bytesOf ['x']])
  let second := first.next env .helloWorld
  let third := second.next env .invalidChoice
  have hfork : ∀ n, env.fork n = true := fun _ => rfl
  have hfirst : menuAction first.selection = some .helloWorld := rfl
  have hsecond : menuAction second.selection = some .invalidChoice := rfl
  have hthird : menuAction third.selection = some .invalidChoice := rfl
  intro hreturns
  have hafter := (returns_iff_of_action hfork hfirst (le_room_of_exited hreturns) _).mp hreturns
  have hlater := (returns_iff_of_action hfork hsecond (le_room_of_exited hafter) _).mp hafter
  refine not_returns_of_action hfork hthird ?_ hlater
  change ¬[(0, Action.helloWorld), (1, .invalidChoice), (2, .invalidChoice)] <+:
    [(0, .helloWorld), (1, .invalidChoice)]
  decide

/-- From a pipe, a choice of 1 with nine blanks behind it is followed by an invalid choice, and with
no input at all the menu goes on over arrays of zeros until the stack is full. From a file, the line
behind a greeting is read once more. -/
theorem not_followsInput_blanks :
    (∀ userInput room, ¬FollowsInput ⟨userInput, fun _ => true, fun _ left => left, room⟩
      [bytesOf ('1' :: List.replicate 9 ' '), bytesOf ['3']]) ∧
    (∀ room, ∃ actions, Returns (process ⟨fun _ => 0, fun _ => true, fun _ left => left, room⟩)
      (main ⟨fun _ => 0, fun _ => true, fun _ left => left, room⟩ (textOf [])) ⟨.killed, actions⟩) ∧
    (∀ room, ¬FollowsInput ⟨fun _ => 3, fun _ => true, fun _ left => left ++ left, room⟩
      [bytesOf ['1'], bytesOf ['x']]) ∧
    ¬∀ (userInput : ℕ → ℤ) (fork : ℕ → Bool) (lines : List (List UInt8)), (∀ n, fork n = true) →
      (∀ line ∈ lines, newline ∉ line) →
        ∃ room, FollowsInput ⟨userInput, fork, fun _ left => left, room⟩ lines := by
  have hblanks : ∀ userInput room,
      ¬FollowsInput ⟨userInput, fun _ => true, fun _ left => left, room⟩
        [bytesOf ('1' :: List.replicate 9 ' '), bytesOf ['3']] := by
    intro userInput room h
    have hselects := (returns_iff_selectsByLine (fun _ => rfl) (by decide)
      (fun _ => Or.inl fun _ _ => rfl)
      ⟨textOf [bytesOf ('1' :: List.replicate 9 ' '), bytesOf ['3']], 0, 0, 0, 0, 0, []⟩
      (List.append_nil _).symm (Or.inl rfl)).mp h
    rw [SelectsByLine, if_neg (by decide), if_neg (by decide)] at hselects
    exact absurd hselects.2.2.1 (by decide)
  refine ⟨hblanks, fun room => ?_, not_followsInput_file, fun h => ?_⟩
  · exact exists_killed (fun _ => rfl) ⟨[], 0, 0, 0, 0, 0, []⟩ rfl
      (fun _ => (by decide : (0 : ℤ) ≠ 3)) fun _ => rfl
  · obtain ⟨room, hfollows⟩ := h (fun _ => 0) (fun _ => true)
      [bytesOf ('1' :: List.replicate 9 ' '), bytesOf ['3']] (fun _ => rfl) (by decide)
    exact hblanks _ room hfollows

end Coursework.FunctionList
