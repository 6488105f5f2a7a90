import Coursework.FunctionList.Process
import Mathlib.Data.Nat.Find

/-!
# The menu on any input

Each call reads the next piece of the input. The first call that selects 3 ends the program, or
the first that the stack has no room for. Until then every call does one action, however often
its forks fail before.
-/

namespace Coursework.FunctionList

open Posix Transition

section Input

variable (env : Environment) (stdin : List UInt8)

/-- The selection of a call with so much of the input left, which at the end of the input is that of
its array. -/
def selectionFrom (left : List UInt8) (call : ℕ) : ℤ :=
  if (fgets 9 left).1 = [] then env.userInput call else atoi (fgets 9 left).1

/-- What is left of the input before a call: a child that greets may have moved its position. -/
def inputBefore : ℕ → List UInt8
  | 0 => stdin
  | call + 1 =>
    if selectionFrom env (inputBefore call) call = 1 then
      env.afterExit (call + 1) (fgets 9 (inputBefore call)).2
    else (fgets 9 (inputBefore call)).2

/-- The piece of the input that a call reads. -/
def pieceOf (call : ℕ) : List UInt8 := (fgets 9 (inputBefore env stdin call)).1

/-- The lines that are read to their end before a call. -/
def linesBefore : ℕ → ℕ
  | 0 => 0
  | call + 1 => linesBefore call + (pieceOf env stdin call).count newline

/-- The selection of a call. -/
def selectionOf (call : ℕ) : ℤ := selectionFrom env (inputBefore env stdin call) call

/-- One action for each of the first calls, with the line of its piece. -/
def callActions (calls : ℕ) : List (ℕ × Action) :=
  (List.range calls).filterMap fun call =>
    (menuAction (selectionOf env stdin call)).map fun action => (linesBefore env stdin call, action)

end Input

/-- What was done, without the forks that failed. -/
def done (actions : List (ℕ × Action)) : List (ℕ × Action) :=
  actions.filter fun entry => entry.2 ≠ .forkFailed

section Pieces

variable {env : Environment} (hexit : ∀ calls left, env.afterExit calls left = left)

include hexit

/-- Where no exit moves the input, a call leaves what it does not read. -/
theorem inputBefore_succ (stdin : List UInt8) (call : ℕ) :
    inputBefore env stdin (call + 1) = (fgets 9 (inputBefore env stdin call)).2 := by
  rw [inputBefore]
  split
  · exact hexit _ _
  · rfl

/-- The pieces read and the input left make up the input. -/
theorem pieces_append_inputBefore (stdin : List UInt8) (calls : ℕ) :
    (List.range calls).flatMap (pieceOf env stdin) ++ inputBefore env stdin calls = stdin := by
  induction calls with
  | zero => rfl
  | succ calls ih =>
    rw [List.range_succ, List.flatMap_append, List.flatMap_singleton, List.append_assoc,
      inputBefore_succ hexit, pieceOf, fgets_append]
    exact ih

/-- A call shortens the input. -/
theorem length_inputBefore_le (stdin : List UInt8) (calls : ℕ) :
    (inputBefore env stdin calls).length ≤ stdin.length - calls := by
  induction calls with
  | zero => exact le_rfl
  | succ calls ih =>
    have hlength := congrArg List.length (fgets_append 9 (inputBefore env stdin calls))
    rw [List.length_append] at hlength
    rw [inputBefore_succ hexit]
    by_cases hend : inputBefore env stdin calls = []
    · rw [hend, fgets_nil]
      exact Nat.zero_le _
    · have hpiece : 0 < (fgets 9 (inputBefore env stdin calls)).1.length :=
        List.length_pos_iff.mpr (mt (fgets_eq_nil_iff 8 _).mp hend)
      omega

/-- Every byte of the input is in the piece of one call. -/
theorem flatMap_pieceOf (stdin : List UInt8) :
    (List.range stdin.length).flatMap (pieceOf env stdin) = stdin := by
  have hall := pieces_append_inputBefore hexit stdin stdin.length
  have hend := length_inputBefore_le hexit stdin stdin.length
  rw [Nat.sub_self, Nat.le_zero, List.length_eq_zero_iff] at hend
  rwa [hend, List.append_nil] at hall

end Pieces

/-- The call at which the program ends: the first that selects 3, or that the stack has no room
for. -/
structure EndsAt (env : Environment) (stdin : List UInt8) (last : ℕ) : Prop where
  room : last ≤ env.room
  exits : last < env.room → selectionOf env stdin last = 3
  before : ∀ earlier < last, selectionOf env stdin earlier ≠ 3

/-- There is a call at which the program ends. -/
theorem exists_endsAt (env : Environment) (stdin : List UInt8) : ∃ last, EndsAt env stdin last := by
  have hexists : ∃ last, last = env.room ∨ selectionOf env stdin last = 3 := ⟨env.room, Or.inl rfl⟩
  refine ⟨Nat.find hexists, Nat.find_min' hexists (Or.inl rfl), fun hroom => ?_, ?_⟩
  · exact (Nat.find_spec hexists).resolve_left hroom.ne
  · exact fun earlier hearlier hthree => Nat.find_min hexists hearlier (Or.inr hthree)

/-- The program ends at one call only. -/
theorem EndsAt.unique {env : Environment} {stdin : List UInt8} {last last' : ℕ}
    (h : EndsAt env stdin last) (h' : EndsAt env stdin last') : last = last' := by
  rcases Nat.lt_trichotomy last last' with hlt | heq | hlt
  · exact absurd (h.exits (hlt.trans_le h'.room)) (h'.before last hlt)
  · exact heq
  · exact absurd (h'.exits (hlt.trans_le h.room)) (h.before last' hlt)

/-- A menu that comes to a call, after the actions of those before. -/
structure AtCall (env : Environment) (stdin : List UInt8) (call : ℕ) (s : Process) : Prop where
  unread : s.stdin = (fgets 9 (inputBefore env stdin call)).2
  calls : s.calls = call + 1
  selection : s.selection = selectionOf env stdin call
  line : s.line = linesBefore env stdin call
  newlines : s.newlines = linesBefore env stdin (call + 1)
  actions : done s.actions = callActions env stdin call

section Calls

variable {env : Environment} {stdin : List UInt8} {call last : ℕ} {s : Process}

/-- A call reads its piece. -/
theorem atCall_call (hstdin : s.stdin = inputBefore env stdin call) (hcalls : s.calls = call)
    (hnewlines : s.newlines = linesBefore env stdin call)
    (hactions : done s.actions = callActions env stdin call) :
    AtCall env stdin call (s.call env) := by
  obtain ⟨left, calls, forks, selection, line, newlines, actions⟩ := s
  obtain rfl : left = inputBefore env stdin call := hstdin
  obtain rfl : calls = call := hcalls
  obtain rfl : newlines = linesBefore env stdin calls := hnewlines
  exact ⟨rfl, rfl, rfl, rfl, rfl, hactions⟩

/-- The first call reads the first piece. -/
theorem atCall_main (env : Environment) (stdin : List UInt8) :
    AtCall env stdin 0 (main env stdin) := atCall_call rfl rfl rfl rfl

/-- What an action leaves of the input is what the next call finds. -/
theorem AtCall.leftBy (h : AtCall env stdin call s) {action : Action}
    (haction : menuAction s.selection = some action) :
    s.leftBy env action = inputBefore env stdin (call + 1) := by
  have hone : action = .helloWorld ↔ selectionFrom env (inputBefore env stdin call) call = 1 := by
    change _ ↔ selectionOf env stdin call = 1
    rw [← h.selection, ← Option.some.injEq, ← haction, menuAction]
    split_ifs with hone
    · exact iff_of_true rfl hone
    all_goals exact iff_of_false (by decide) hone
  rw [Process.leftBy, inputBefore, h.unread, h.calls]
  by_cases hgreeting : action = .helloWorld
  · rw [if_pos hgreeting, if_pos (hone.mp hgreeting)]
  · rw [if_neg hgreeting, if_neg (mt hone.mpr hgreeting)]

/-- The action of a call is followed by the next call. -/
theorem AtCall.next (h : AtCall env stdin call s) {action : Action}
    (haction : menuAction s.selection = some action) (hdone : action ≠ .forkFailed) (forks : ℕ) :
    AtCall env stdin (call + 1)
      ((({ s with forks := forks, stdin := s.leftBy env action } : Process).act action).call env) := by
  refine atCall_call (h.leftBy haction) h.calls h.newlines ?_
  change done (s.actions ++ [(s.line, action)]) = _
  rw [done, List.filter_append, ← done, h.actions, List.filter_singleton, decide_eq_true hdone,
    callActions, callActions, List.range_succ, List.filterMap_append, List.filterMap_cons,
    ← h.selection, haction, h.line]
  rfl

/-- A fork that fails leaves the menu at its call, and one that succeeds leads to the next. -/
theorem AtCall.forkThen (h : AtCall env stdin call s) {action : Action}
    (haction : menuAction s.selection = some action) (hdone : action ≠ .forkFailed)
    {left : List UInt8} (hleft : left = s.leftBy env action) :
    AtCall env stdin (call + 1) (s.forkThen env action left) ∨
      AtCall env stdin call (s.forkThen env action left) ∧ env.fork s.forks = false ∧
        (s.forkThen env action left).forks = s.forks + 1 := by
  subst hleft
  rw [Process.forkThen]
  split_ifs with hfork
  · exact Or.inl (h.next haction hdone _)
  · refine Or.inr ⟨⟨h.unread, h.calls, h.selection, h.line, h.newlines, ?_⟩,
      eq_false_of_ne_true hfork, rfl⟩
    change done (s.actions ++ [(s.line, .forkFailed)]) = _
    rw [done, List.filter_append, ← done, h.actions]
    exact List.append_nil _

/-- A turn at a call before the last leads to the next call, or tries a fork once more. -/
theorem AtCall.turn (h : AtCall env stdin call s) (hlast : EndsAt env stdin last)
    (hbefore : call < last) :
    ∃ s', process env s = .again s' ∧ (AtCall env stdin (call + 1) s' ∨
      AtCall env stdin call s' ∧ env.fork s.forks = false ∧ s'.forks = s.forks + 1) := by
  have hselection := hlast.before call hbefore
  have hroom : s.calls ≤ env.room := h.calls.trans_le (hbefore.trans_le hlast.room)
  rw [← h.selection] at hselection
  rw [process, if_neg (Nat.not_lt_of_le hroom)]
  split_ifs with hone htwo
  · exact ⟨_, rfl, h.forkThen (if_pos hone) (by decide) rfl⟩
  · exact ⟨_, rfl, h.forkThen ((if_neg hone).trans (if_pos htwo)) (by decide) rfl⟩
  · have haction : menuAction s.selection = some .invalidChoice := by
      rw [menuAction, if_neg hone, if_neg htwo, if_neg hselection]
    exact ⟨_, rfl, Or.inl (h.next haction (by decide) s.forks)⟩

/-- The last call leaves, by `exit` if the stack has room for it. -/
theorem AtCall.leave (h : AtCall env stdin last s) (hlast : EndsAt env stdin last) :
    process env s = .leave ⟨if last < env.room then .exited else .killed, s.actions⟩ := by
  rw [process, h.calls]
  by_cases hroom : last < env.room
  · have hselection : s.selection = 3 := h.selection.trans (hlast.exits hroom)
    rw [if_neg (Nat.not_lt_of_le hroom), hselection, if_pos hroom]
    rfl
  · rw [if_pos (Nat.lt_succ_of_le (Nat.le_of_not_lt hroom)), if_neg hroom]

/-- A call whose forks do not fail for ever is followed by the next. -/
theorem AtCall.exists_next (h : AtCall env stdin call s) (hlast : EndsAt env stdin last)
    (hbefore : call < last) {success : ℕ} (hle : s.forks ≤ success)
    (hsuccess : env.fork success = true) :
    ∃ s', AtCall env stdin (call + 1) s' ∧
      ∀ outcome, Returns (process env) s' outcome → Returns (process env) s outcome := by
  induction hmore : success - s.forks generalizing s with
  | zero =>
    obtain ⟨s', hturn, hnext⟩ := h.turn hlast hbefore
    have hnow : s.forks = success := Nat.le_antisymm hle (Nat.le_of_sub_eq_zero hmore)
    cases hnext with
    | inl hnext => exact ⟨s', hnext, fun _ => returns_of_again hturn⟩
    | inr hagain =>
      rw [hnow, hsuccess] at hagain
      exact absurd hagain.2.1.symm Bool.false_ne_true
  | succ more ih =>
    obtain ⟨s', hturn, hnext⟩ := h.turn hlast hbefore
    cases hnext with
    | inl hnext => exact ⟨s', hnext, fun _ => returns_of_again hturn⟩
    | inr hagain =>
      obtain ⟨hagain, -, hforks⟩ := hagain
      obtain ⟨later, hlater, hreturns⟩ := ih hagain (by omega) (by omega)
      exact ⟨later, hlater, fun outcome houtcome =>
        returns_of_again hturn (hreturns outcome houtcome)⟩

/-- A menu ends, unless its forks fail for ever. -/
theorem AtCall.exists_returns (hfork : ∀ n, ∃ k, n ≤ k ∧ env.fork k = true)
    (hlast : EndsAt env stdin last) (hle : call ≤ last) (h : AtCall env stdin call s) :
    ∃ outcome, Returns (process env) s outcome := by
  induction hmore : last - call generalizing call s with
  | zero =>
    obtain rfl := Nat.le_antisymm hle (Nat.le_of_sub_eq_zero hmore)
    exact ⟨_, returns_of_leave (h.leave hlast)⟩
  | succ more ih =>
    obtain ⟨success, hforks, hsuccess⟩ := hfork s.forks
    obtain ⟨s', hnext, hreturns⟩ := h.exists_next hlast (by omega) hforks hsuccess
    obtain ⟨outcome, houtcome⟩ := ih (by omega) hnext (by omega)
    exact ⟨outcome, hreturns outcome houtcome⟩

/-- A menu ends at the last call, with what the calls before it have done. -/
theorem AtCall.outcome_of_returns (hlast : EndsAt env stdin last) (hle : call ≤ last)
    (h : AtCall env stdin call s) {outcome : Outcome}
    (hreturns : Returns (process env) s outcome) :
    outcome.ending = (if last < env.room then .exited else .killed) ∧
      done outcome.actions = callActions env stdin last := by
  refine hreturns.invariant (fun t => ∃ call ≤ last, AtCall env stdin call t)
    (fun outcome => outcome.ending = (if last < env.room then .exited else .killed) ∧
      done outcome.actions = callActions env stdin last) ⟨call, hle, h⟩ ?_ ?_
  · rintro t t' ⟨call, hle, ht⟩ hturn
    rcases hle.lt_or_eq with hlt | rfl
    · obtain ⟨next, hnext, hcall⟩ := ht.turn hlast hlt
      obtain rfl := Turn.again.inj (hturn.symm.trans hnext)
      cases hcall with
      | inl hcall => exact ⟨call + 1, hlt, hcall⟩
      | inr hcall => exact ⟨call, hle, hcall.1⟩
    · rw [ht.leave hlast] at hturn
      cases hturn
  · rintro t outcome ⟨call, hle, ht⟩ hturn
    rcases hle.lt_or_eq with hlt | rfl
    · obtain ⟨next, hnext, -⟩ := ht.turn hlast hlt
      rw [hnext] at hturn
      cases hturn
    · rw [ht.leave hlast] at hturn
      obtain rfl := Turn.leave.inj hturn
      exact ⟨rfl, ht.actions⟩

end Calls

/-- On any input there is one call at which the program ends: the first that selects 3, where it
exits, or the first that the stack has no room for, where it is killed. The actions that are done by
then are those of the calls before, and the end comes unless the forks fail for ever. Where no exit
of a child moves the input, the calls read all of it, piece by piece. -/
theorem process_outcome (env : Environment) (stdin : List UInt8) :
    ((∀ calls left, env.afterExit calls left = left) →
        (List.range stdin.length).flatMap (pieceOf env stdin) = stdin) ∧
      ∃ last, EndsAt env stdin last ∧ (∀ other, EndsAt env stdin other → other = last) ∧
        (∀ outcome, Returns (process env) (main env stdin) outcome →
          outcome.ending = (if last < env.room then .exited else .killed) ∧
            done outcome.actions = callActions env stdin last) ∧
        ((∀ n, ∃ k, n ≤ k ∧ env.fork k = true) →
          ∃ outcome, Returns (process env) (main env stdin) outcome) := by
  obtain ⟨last, hlast⟩ := exists_endsAt env stdin
  have hstart := atCall_main env stdin
  refine ⟨fun hexit => flatMap_pieceOf hexit stdin, last, hlast,
    fun other hother => hother.unique hlast, ?_, ?_⟩
  · exact fun outcome hreturns => hstart.outcome_of_returns hlast (Nat.zero_le last) hreturns
  · exact fun hfork => hstart.exists_returns hfork hlast (Nat.zero_le last)

end Coursework.FunctionList
