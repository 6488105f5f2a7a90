import Coursework.ToDoList.ListsTableViewController

/-!
# What is stored

The tasks that are stored are those of the app, whenever the app has appeared. So the app is a
list that no relaunch changes.
-/

namespace Coursework.ToDoList

open Transition

variable {Data : Type*}

/-- Under the key of the tasks, the archives of some tasks are stored, or nothing if there are none. -/
def Stores (foundation : Foundation Data) (defaults : UserDefaults Data) (tasks : List Task) : Prop :=
  defaults "tasks" = some (tasks.map (Task.encode foundation)) ∨ defaults "tasks" = none ∧ tasks = []

/-- What the stored array decodes to, entry by entry; a missing key counts as the empty list. -/
def decoded (foundation : Foundation Data) (defaults : UserDefaults Data) : List (Option Task) :=
  ((defaults "tasks").getD []).map (Task.decode foundation)

/-- A list of tasks on which no launch and no appearance has an effect. -/
def edited (foundation : Foundation Data) (tasks : List Task) : Event → Option (List Task)
  | .addListButtonPressed (some text) =>
    some (if foundation.equal text "" then tasks else tasks ++ [⟨text, false⟩])
  | .addListButtonPressed none => some tasks
  | .edit row answer => tasks[row]?.map fun task =>
    match answer with
    | some text =>
      if foundation.equal text "" || foundation.equal text task.name then tasks
      else tasks.set row ⟨text, false⟩
    | none => tasks
  | .delete row => if row < tasks.length then some (tasks.eraseIdx row) else none
  | .didSelectRowAt row => tasks[row]?.map fun task =>
    tasks.set row { task with completed := !task.completed }
  | .viewDidAppear => some tasks
  | .relaunch => some tasks

/-- The list that is kept. -/
def keptList (foundation : Foundation Data) : Machine (List Task) Event (List Task) where
  step := edited foundation
  observe := id

/-- The app stores a list, and shows it once it has appeared. Before, it shows nothing. -/
structure Keeps (foundation : Foundation Data) (app : App Data) (tasks : List Task) : Prop where
  stores : Stores foundation app.defaults tasks
  shows : app.task.tasks = if app.appeared then tasks else []

/-- Each launch begins with `viewDidAppear`: until then, nothing else happens but another launch. -/
def BeginsWithViewDidAppear (app : App Data) (event : Event) : Prop :=
  app.appeared = true ∨ event = .viewDidAppear ∨ event = .relaunch

section Archive

variable {foundation : Foundation Data}

/-- What is stored is decoded. -/
theorem Stores.decoded (h : foundation.DecodesWhatItEncoded) {defaults : UserDefaults Data}
    {tasks : List Task} (hstores : Stores foundation defaults tasks) :
    decoded foundation defaults = tasks.map some := by
  rw [ToDoList.decoded]
  rcases hstores with hstored | ⟨hmissing, rfl⟩
  · rw [hstored]
    exact Task.map_decode_encode h tasks
  · rw [hmissing]
    rfl

/-- `save` stores the tasks of the model. -/
theorem stores_save (model : ListModel) (defaults : UserDefaults Data) :
    Stores foundation (model.save foundation defaults) model.tasks := by
  refine Or.inl ?_
  rw [ListModel.save]
  exact Function.update_self _ _ _

/-- A handler that saves. -/
theorem Keeps.save (app : App Data) (happeared : app.appeared = true) :
    Keeps foundation (app.save foundation) app.task.tasks :=
  ⟨stores_save app.task app.defaults, (if_pos happeared).symm⟩

/-- `load` finds what is stored. -/
theorem Keeps.viewDidAppear (h : foundation.DecodesWhatItEncoded) {app : App Data}
    {tasks : List Task} (hkeeps : Keeps foundation app tasks) :
    Keeps foundation (app.viewDidAppear foundation) tasks := by
  refine ⟨hkeeps.stores, ?_⟩
  change (app.task.load foundation app.defaults).tasks = tasks
  rw [ListModel.load]
  rcases hkeeps.stores with hstored | ⟨hmissing, rfl⟩
  · rw [hstored]
    exact Task.filterMap_decode_encode h tasks
  · rw [hmissing]
    exact hkeeps.shows.trans (ite_self [])

/-- A change of a row that exists. -/
theorem modify_eq_set {tasks : List Task} {row : ℕ} {task : Task} (change : Task → Task)
    (hrow : tasks[row]? = some task) : tasks.modify row change = tasks.set row (change task) := by
  rw [List.modify_eq_set_getElem?, hrow]
  rfl

/-- The handlers of a list that has appeared do what they do to the list that is kept. -/
theorem Keeps.edit {app next : App Data} {tasks : List Task} (hkeeps : Keeps foundation app tasks)
    (happeared : app.appeared = true) (row : ℕ) (answer : Option String)
    (hnext : app.edit foundation row answer = some next) :
    ∃ tasks', edited foundation tasks (.edit row answer) = some tasks' ∧
      Keeps foundation next tasks' := by
  obtain rfl : app.task.tasks = tasks := hkeeps.shows.trans (if_pos happeared)
  obtain ⟨task, hrow, rfl⟩ := Option.map_eq_some_iff.mp hnext
  rw [edited, hrow, Option.map_some]
  refine ⟨_, rfl, ?_⟩
  cases answer with
  | none => exact hkeeps
  | some text =>
    cases hempty : foundation.equal text "" with
    | true => simpa only [hempty, Bool.not_true, Bool.false_and, Bool.true_or, if_true,
        Bool.false_eq_true, if_false] using hkeeps
    | false =>
      cases hsame : foundation.equal text task.name with
      | true => simpa only [hempty, hsame, Bool.not_true, Bool.and_false, Bool.or_true, if_true,
          Bool.false_eq_true, if_false] using hkeeps
      | false =>
        have hset : (app.task.tasks.modify row fun task => { task with completed := false }).modify
            row (fun task => { task with name := text }) =
              app.task.tasks.set row ⟨text, false⟩ := by
          rw [List.modify_modify_eq, modify_eq_set _ hrow]
          rfl
        simp only [hempty, hsame, Bool.not_false, Bool.and_self, Bool.or_self, if_true,
          Bool.false_eq_true, if_false, hset]
        exact Keeps.save (app.setTasks _) happeared

/-- A handler that saves, or does nothing, for a new task. -/
theorem Keeps.addListButtonPressed {app : App Data} {tasks : List Task}
    (hkeeps : Keeps foundation app tasks) (happeared : app.appeared = true)
    (answer : Option String) :
    ∃ tasks', edited foundation tasks (.addListButtonPressed answer) = some tasks' ∧
      Keeps foundation (app.addListButtonPressed foundation answer) tasks' := by
  obtain rfl : app.task.tasks = tasks := hkeeps.shows.trans (if_pos happeared)
  cases answer with
  | none => exact ⟨_, rfl, hkeeps⟩
  | some text =>
    refine ⟨_, rfl, ?_⟩
    rw [App.addListButtonPressed]
    split
    · exact hkeeps
    · exact Keeps.save { app with task := app.task.addTask text false } happeared

/-- A task is deleted, and the others are saved. -/
theorem Keeps.delete {app next : App Data} {tasks : List Task}
    (hkeeps : Keeps foundation app tasks) (happeared : app.appeared = true) (row : ℕ)
    (hnext : app.delete foundation row = some next) :
    ∃ tasks', edited foundation tasks (.delete row) = some tasks' ∧
      Keeps foundation next tasks' := by
  obtain rfl : app.task.tasks = tasks := hkeeps.shows.trans (if_pos happeared)
  rw [App.delete] at hnext
  split at hnext
  · rename_i hrow
    obtain rfl := Option.some.inj hnext
    refine ⟨app.task.tasks.eraseIdx row, ?_, Keeps.save (app.setTasks _) happeared⟩
    rw [edited, if_pos hrow]
  · cases hnext

/-- A task is marked or unmarked, and saved. -/
theorem Keeps.didSelectRowAt {app next : App Data} {tasks : List Task}
    (hkeeps : Keeps foundation app tasks) (happeared : app.appeared = true) (row : ℕ)
    (hnext : app.didSelectRowAt foundation row = some next) :
    ∃ tasks', edited foundation tasks (.didSelectRowAt row) = some tasks' ∧
      Keeps foundation next tasks' := by
  obtain rfl : app.task.tasks = tasks := hkeeps.shows.trans (if_pos happeared)
  obtain ⟨task, hrow, rfl⟩ := Option.map_eq_some_iff.mp hnext
  rw [edited, hrow, Option.map_some]
  refine ⟨_, rfl, ?_⟩
  have hset : (app.task.tasks.modify row fun selected =>
      if !task.completed then { selected with completed := true }
      else { selected with completed := false }) =
        app.task.tasks.set row { task with completed := !task.completed } := by
    rw [modify_eq_set _ hrow]
    cases task.completed <;> rfl
  rw [hset]
  exact Keeps.save (app.setTasks _) happeared

/-- Every step of an app in which each launch begins with `viewDidAppear` is one of the list that is
kept. -/
theorem Keeps.step (h : foundation.DecodesWhatItEncoded) (app : App Data) (tasks : List Task)
    (event : Event) (next : App Data) (hkeeps : Keeps foundation app tasks)
    (hbegins : BeginsWithViewDidAppear app event)
    (hnext : (todoList foundation).step app event = some next) :
    ∃ tasks', (keptList foundation).step tasks event = some tasks' ∧
      Keeps foundation next tasks' := by
  have happeared : event ≠ .viewDidAppear → event ≠ .relaunch → app.appeared = true := by
    intro hview hlaunch
    exact hbegins.resolve_right (not_or_intro hview hlaunch)
  cases event with
  | addListButtonPressed answer =>
    obtain rfl := Option.some.inj hnext
    exact hkeeps.addListButtonPressed (happeared nofun nofun) answer
  | edit row answer => exact hkeeps.edit (happeared nofun nofun) row answer hnext
  | delete row => exact hkeeps.delete (happeared nofun nofun) row hnext
  | didSelectRowAt row => exact hkeeps.didSelectRowAt (happeared nofun nofun) row hnext
  | viewDidAppear =>
    obtain rfl := Option.some.inj hnext
    exact ⟨tasks, rfl, hkeeps.viewDidAppear h⟩
  | relaunch =>
    obtain rfl := Option.some.inj hnext
    exact ⟨tasks, rfl, hkeeps.stores, rfl⟩

/-- Nothing is stored before the first launch. -/
theorem Keeps.installed : Keeps foundation .installed [] := ⟨Or.inr ⟨rfl, rfl⟩, rfl⟩

/-- What is stored decodes to the tasks of an app that has appeared, which are those of the list that is
kept: neither an appearance nor a relaunch changes them. -/
theorem run_stored (h : foundation.DecodesWhatItEncoded) (events : List Event) (app : App Data)
    (hbegins : (todoList foundation).EachStep BeginsWithViewDidAppear .installed events)
    (hrun : (todoList foundation).run .installed events = some app)
    (happeared : app.appeared = true) :
    decoded foundation app.defaults = app.task.tasks.map some ∧
      (keptList foundation).run [] events = some app.task.tasks ∧
      (app.viewDidAppear foundation).task.tasks = app.task.tasks ∧
      (app.relaunch.viewDidAppear foundation).task.tasks = app.task.tasks := by
  obtain ⟨tasks, hkept, hkeeps⟩ := (todoList foundation).run_refines (keptList foundation)
    (Keeps foundation) BeginsWithViewDidAppear (Keeps.step h) .installed app [] events
    .installed hbegins hrun
  obtain rfl : app.task.tasks = tasks := hkeeps.shows.trans (if_pos happeared)
  have hrelaunched : Keeps foundation app.relaunch app.task.tasks := ⟨hkeeps.stores, rfl⟩
  exact ⟨hkeeps.stores.decoded h, hkept, (hkeeps.viewDidAppear h).shows,
    (hrelaunched.viewDidAppear h).shows⟩

end Archive

/-- An archiver that keeps the list of what has been encoded, with the equality of characters. -/
def propertyList : Foundation (List (String × Value)) where
  archive := id
  unarchive := fun data key => data.lookup key
  equal := fun first second => first == second

/-- A task is added and marked, and the app is launched again. -/
def swimming : List Event :=
  [.viewDidAppear, .addListButtonPressed (some "Swimming"), .didSelectRowAt 0, .relaunch,
    .viewDidAppear]

/-- The task is there after the relaunch. -/
theorem run_stored_swimming :
    ∃ app, (todoList propertyList).run .installed swimming = some app ∧
      decoded propertyList app.defaults = app.task.tasks.map some ∧
      (keptList propertyList).run [] swimming = some app.task.tasks ∧
      (app.viewDidAppear propertyList).task.tasks = app.task.tasks ∧
      (app.relaunch.viewDidAppear propertyList).task.tasks = app.task.tasks := by
  refine ⟨_, rfl, run_stored (fun _ _ _ => rfl) swimming _ ?_ rfl rfl⟩
  intro app happ
  refine ⟨Or.inr (Or.inl rfl), ?_⟩
  obtain rfl := Option.some.inj happ
  intro app happ
  refine ⟨Or.inl rfl, ?_⟩
  obtain rfl := Option.some.inj happ
  intro app happ
  refine ⟨Or.inl rfl, ?_⟩
  obtain rfl := Option.some.inj happ
  intro app happ
  refine ⟨Or.inr (Or.inr rfl), ?_⟩
  obtain rfl := Option.some.inj happ
  intro app happ
  exact ⟨Or.inr (Or.inl rfl), trivial⟩

end Coursework.ToDoList
