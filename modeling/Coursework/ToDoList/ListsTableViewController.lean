import Coursework.ToDoList.ListModel
import Coursework.Transition.Observation

/-!
# The handlers of the to-do list

Each handler of the table changes the array of tasks in place and saves it. A row that the array
does not have is an index out of range, and ends the app. The user defaults outlive the app.
-/

namespace Coursework.ToDoList

open Transition

/-- The app: `task`, the user defaults, and whether `viewDidAppear` has been called since the launch. -/
structure App (Data : Type*) where
  task : ListModel
  defaults : UserDefaults Data
  appeared : Bool

/-- What can happen. The alerts of the first two are left with a text, or cancelled. -/
inductive Event where
  | addListButtonPressed (answer : Option String)
  | edit (row : ℕ) (answer : Option String)
  | delete (row : ℕ)
  | didSelectRowAt (row : ℕ)
  | viewDidAppear
  | relaunch
  deriving DecidableEq, Repr

variable {Data : Type*}

/-- The app with its tasks changed. -/
def App.setTasks (app : App Data) (tasks : List Task) : App Data :=
  { app with task := { app.task with tasks := tasks } }

section Handlers

variable (foundation : Foundation Data)

/-- The first launch of the app: nothing is stored. -/
def App.installed : App Data := ⟨.new, fun _ => none, false⟩

/-- `save` of the model. -/
def App.save (app : App Data) : App Data :=
  { app with defaults := app.task.save foundation app.defaults }

/-- `addListButtonPressed`, with the answer to its alert. -/
def App.addListButtonPressed (app : App Data) : Option String → App Data
  | some text =>
    if foundation.equal text "" then app
    else ({ app with task := app.task.addTask text false }).save foundation
  | none => app

/-- The action `Edit`, with the answer to its alert. -/
def App.edit (app : App Data) (row : ℕ) (answer : Option String) : Option (App Data) :=
  app.task.tasks[row]?.map fun curTest =>
    match answer with
    | some text =>
      if !foundation.equal text "" && !foundation.equal text curTest.name then
        (app.setTasks ((app.task.tasks.modify row fun task => { task with completed := false }).modify
          row fun task => { task with name := text })).save foundation
      else app
    | none => app

/-- The action `Delete`. -/
def App.delete (app : App Data) (row : ℕ) : Option (App Data) :=
  if row < app.task.tasks.length then
    some ((app.setTasks (app.task.tasks.eraseIdx row)).save foundation)
  else none

/-- `didSelectRowAt`. -/
def App.didSelectRowAt (app : App Data) (row : ℕ) : Option (App Data) :=
  app.task.tasks[row]?.map fun selected =>
    (app.setTasks (app.task.tasks.modify row fun task =>
      if !selected.completed then { task with completed := true }
      else { task with completed := false })).save foundation

/-- `viewDidAppear`. -/
def App.viewDidAppear (app : App Data) : App Data :=
  { app with task := app.task.load foundation app.defaults, appeared := true }

/-- A launch of the app, with what the last one has stored. -/
def App.relaunch (app : App Data) : App Data := { app with task := .new, appeared := false }

/-- What an event does. -/
def App.step (app : App Data) : Event → Option (App Data)
  | .addListButtonPressed answer => some (app.addListButtonPressed foundation answer)
  | .edit row answer => app.edit foundation row answer
  | .delete row => app.delete foundation row
  | .didSelectRowAt row => app.didSelectRowAt foundation row
  | .viewDidAppear => some (app.viewDidAppear foundation)
  | .relaunch => some app.relaunch

/-- The app; it shows its tasks. -/
def todoList : Machine (App Data) Event (List Task) where
  step := App.step foundation
  observe := fun app => app.task.tasks

/-- The row that an event is about. -/
def Event.row : Event → Option ℕ
  | .edit row _ => some row
  | .delete row => some row
  | .didSelectRowAt row => some row
  | _ => none

/-- Only an event about a row that the table does not have ends the app. -/
theorem step_isSome_iff (app : App Data) (event : Event) :
    ((todoList foundation).step app event).isSome = true ↔
      ∀ row, event.row = some row → row < app.task.tasks.length := by
  have hrow : ∀ row, (∀ row', some row = some row' → row' < app.task.tasks.length) ↔
      row < app.task.tasks.length := by
    intro row
    simp only [Option.some.injEq, forall_eq']
  have hfound : ∀ (change : Task → App Data) (row : ℕ),
      (app.task.tasks[row]?.map change).isSome = true ↔ row < app.task.tasks.length := by
    intro change row
    rw [Option.isSome_map, Option.isSome_iff_ne_none, Ne, List.getElem?_eq_none_iff, Nat.not_le]
  cases event with
  | addListButtonPressed answer => exact iff_of_true rfl nofun
  | edit row answer =>
    rw [Event.row, hrow]
    exact hfound _ row
  | delete row =>
    rw [Event.row, hrow]
    change (app.delete foundation row).isSome = true ↔ _
    rw [App.delete]
    split
    · rename_i hlt
      exact iff_of_true rfl hlt
    · rename_i hge
      exact iff_of_false Bool.false_ne_true hge
  | didSelectRowAt row =>
    rw [Event.row, hrow]
    exact hfound _ row
  | viewDidAppear => exact iff_of_true rfl nofun
  | relaunch => exact iff_of_true rfl nofun

end Handlers

end Coursework.ToDoList
