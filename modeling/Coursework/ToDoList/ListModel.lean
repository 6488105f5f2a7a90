import Mathlib.Data.List.Basic
import Mathlib.Logic.Function.Basic

/-!
# The tasks of the to-do list

Each task is archived on its own, under two keys, and the array of archives is an entry of the
user defaults. The archiver and the equality of strings belong to the system.
-/

namespace Coursework.ToDoList

/-- A task. -/
structure Task where
  name : String
  completed : Bool
  deriving DecidableEq, Repr

/-- A value that is encoded under a key. -/
inductive Value where
  | string (name : String)
  | bool (completed : Bool)
  deriving DecidableEq, Repr

/-- The value as a `String`. -/
def Value.asString : Value → Option String
  | .string name => some name
  | .bool _ => none

/-- The value as a `Bool`. -/
def Value.asBool : Value → Option Bool
  | .string _ => none
  | .bool completed => some completed

/-- What the app uses of the system: `NSKeyedArchiver`, which makes data of the values encoded under keys;
`NSKeyedUnarchiver`, which looks a key up in data; and `==` of strings, which knows strings of one text. -/
structure Foundation (Data : Type*) where
  archive : List (String × Value) → Data
  unarchive : Data → String → Option Value
  equal : String → String → Bool

variable {Data : Type*}

/-- The unarchiver finds under every key what has been encoded under it. -/
def Foundation.DecodesWhatItEncoded (foundation : Foundation Data) : Prop :=
  ∀ (entries : List (String × Value)) (key : String), (entries.map Prod.fst).Nodup →
    foundation.unarchive (foundation.archive entries) key = entries.lookup key

/-- The arrays of the standard user defaults. -/
def UserDefaults (Data : Type*) : Type _ := String → Option (List Data)

/-- `ListModel`. -/
structure ListModel where
  tasks : List Task

/-- The constructor of the model. -/
def ListModel.new : ListModel := ⟨[]⟩

/-- `addTask`. -/
def ListModel.addTask (model : ListModel) (name : String) (completed : Bool) : ListModel :=
  { model with tasks := model.tasks ++ [⟨name, completed⟩] }

section Archive

variable (foundation : Foundation Data)

/-- `encode`. -/
def Task.encode (task : Task) : Data :=
  foundation.archive [("name", .string task.name), ("completed", .bool task.completed)]

/-- `decodeBool`: false if there is no such value. -/
def Foundation.decodeBool (data : Data) (key : String) : Bool :=
  ((foundation.unarchive data key).bind Value.asBool).getD false

/-- `init?(data:)`: no task without a name. -/
def Task.decode (data : Data) : Option Task :=
  match (foundation.unarchive data "name").bind Value.asString with
  | some name => some ⟨name, foundation.decodeBool data "completed"⟩
  | none => none

/-- `save`. -/
def ListModel.save (model : ListModel) (defaults : UserDefaults Data) : UserDefaults Data :=
  Function.update defaults "tasks" (some (model.tasks.map (Task.encode foundation)))

/-- `load`. -/
def ListModel.load (model : ListModel) (defaults : UserDefaults Data) : ListModel :=
  match defaults "tasks" with
  | some tasksData => { model with tasks := tasksData.filterMap (Task.decode foundation) }
  | none => model

variable {foundation}

/-- An archived task comes back. -/
theorem Task.decode_encode (h : foundation.DecodesWhatItEncoded) (task : Task) :
    Task.decode foundation (task.encode foundation) = some task := by
  have hkeys : ["name", "completed"].Nodup := by decide
  have hname : foundation.unarchive (task.encode foundation) "name" =
      some (.string task.name) := h _ "name" hkeys
  have hcompleted : foundation.unarchive (task.encode foundation) "completed" =
      some (.bool task.completed) := h _ "completed" hkeys
  rw [Task.decode, hname, Foundation.decodeBool, hcompleted]
  rfl

/-- Archived tasks come back. -/
theorem Task.map_decode_encode (h : foundation.DecodesWhatItEncoded) (tasks : List Task) :
    (tasks.map (Task.encode foundation)).map (Task.decode foundation) = tasks.map some := by
  rw [List.map_map]
  exact List.map_congr_left fun task _ => Task.decode_encode h task

/-- Nothing is dropped when archived tasks are loaded. -/
theorem Task.filterMap_decode_encode (h : foundation.DecodesWhatItEncoded) (tasks : List Task) :
    (tasks.map (Task.encode foundation)).filterMap (Task.decode foundation) = tasks := by
  induction tasks with
  | nil => rfl
  | cons task rest ih => rw [List.map_cons, List.filterMap_cons_some (decode_encode h task), ih]

end Archive

end Coursework.ToDoList
