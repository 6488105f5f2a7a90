import Coursework.Transition.Observation
import Mathlib.Logic.Function.Basic

/-!
# The current category

The menu shows a table of categories beside the table of products. A tap selects a category,
and a scroll of the products that the user began selects the category of the first product that is
seen. A red mark on a cell shows the current category; cells are made anew when they come back on
screen.
-/

namespace Coursework.FoodHaus

open Transition

/-- `groupTableView`, of the products, and `classifyTableView`, of the categories. -/
inductive Table where
  | group
  | classify
  deriving DecidableEq, Repr

/-- The fields of `GroupTableView` for the current category, and for each row of the categories the
number of red marks on its cell, if the cell is on screen. -/
structure Categories where
  currentExtendSection : ℕ
  isScrollSetSelect : Bool
  isScrollClassiftyTable : Bool
  marks : ℕ → Option ℕ

/-- A tap on a row, a drag that begins, a scroll with the sections of the rows of products that are
seen then, or a cell of a category that comes on screen or goes off it. -/
inductive TableEvent where
  | didSelectRow (table : Table) (row : ℕ)
  | willBeginDragging (table : Table)
  | didScroll (table : Table) (visible : List ℕ)
  | cellForRow (row : ℕ)
  | didEndDisplaying (row : ℕ)
  deriving DecidableEq, Repr

/-- The menu before any cell is on screen. -/
def Categories.new : Categories := ⟨0, false, false, fun _ => none⟩

/-- `leftSectionSelected` for the table of the categories: the cell that is selected gets a mark,
and the other one loses one. -/
def Categories.leftSectionSelected (view : Categories) (row : ℕ) (didSelectClassifyTable : Bool) :
    Categories :=
  if row = view.currentExtendSection then view
  else
    let marked := Function.update view.marks row ((view.marks row).map (· + 1))
    { view with
      marks := Function.update marked view.currentExtendSection
        ((marked view.currentExtendSection).map (· - 1))
      currentExtendSection := row
      isScrollClassiftyTable := didSelectClassifyTable }

/-- `scrollViewWillBeginDragging`. -/
def Categories.willBeginDragging (view : Categories) : Table → Categories
  | .group => { view with isScrollSetSelect := true, isScrollClassiftyTable := false }
  | .classify => { view with isScrollSetSelect := false }

/-- `scrollViewDidScroll`; the index of the first row fails if no row is seen. -/
def Categories.didScroll (view : Categories) (table : Table) (visible : List ℕ) :
    Option Categories :=
  if table = .group ∧ view.isScrollSetSelect = true ∧ view.isScrollClassiftyTable = false then
    match visible with
    | [] => none
    | first :: _ => some (view.leftSectionSelected first false)
  else some view

/-- What an event does. -/
def Categories.step (view : Categories) : TableEvent → Option Categories
  | .didSelectRow .classify row => some (view.leftSectionSelected row true)
  | .didSelectRow .group _ => some view
  | .willBeginDragging table => some (view.willBeginDragging table)
  | .didScroll table visible => view.didScroll table visible
  | .cellForRow row =>
    some { view with
      marks := Function.update view.marks row
        (some (if row = view.currentExtendSection then 1 else 0)) }
  | .didEndDisplaying row => some { view with marks := Function.update view.marks row none }

/-- The tables of the menu, observed by the marks. -/
def categories : Machine Categories TableEvent (ℕ → Option ℕ) where
  step := Categories.step
  observe := Categories.marks

/-- What the user sees of it: the category, and whether it follows a scroll of the products. -/
structure Selection where
  category : ℕ
  follows : Bool
  deriving DecidableEq, Repr

/-- A tap selects a category, which stays; from a drag of the products on, the category is that of
the first product seen. -/
def Selection.step (selection : Selection) : TableEvent → Selection
  | .didSelectRow .classify row => if row = selection.category then selection else ⟨row, false⟩
  | .willBeginDragging table => { selection with follows := decide (table = .group) }
  | .didScroll .group (first :: _) =>
    if selection.follows then { selection with category := first } else selection
  | _ => selection

/-- The selection as a machine. -/
def selection : TotalMachine Selection TableEvent ℕ where
  step := Selection.step
  observe := Selection.category

/-- The tables show a selection: each cell on screen has one mark if it is that of the category, and
none otherwise. -/
structure ShowsSelection (view : Categories) (selection : Selection) : Prop where
  category : view.currentExtendSection = selection.category
  follows : (view.isScrollSetSelect && !view.isScrollClassiftyTable) = selection.follows
  marks : ∀ row count, view.marks row = some count →
    count = if row = selection.category then 1 else 0

/-- A category that is selected is marked, and the one before it is not any more. -/
theorem ShowsSelection.leftSectionSelected {view : Categories} {selection : Selection}
    (h : ShowsSelection view selection) {row : ℕ} (hother : row ≠ selection.category)
    (didSelectClassifyTable : Bool) :
    ShowsSelection (view.leftSectionSelected row didSelectClassifyTable)
      ⟨row, view.isScrollSetSelect && !didSelectClassifyTable⟩ := by
  rw [← h.category] at hother
  rw [Categories.leftSectionSelected, if_neg hother]
  refine ⟨rfl, rfl, fun cell count hcount => ?_⟩
  change Function.update (Function.update view.marks row _) view.currentExtendSection _ cell = _
    at hcount
  have hmarks := h.marks cell
  rw [← h.category] at hmarks
  change count = if cell = row then 1 else 0
  rw [Function.update_of_ne hother.symm] at hcount
  by_cases hold : cell = view.currentExtendSection
  · subst hold
    rw [Function.update_self] at hcount
    obtain ⟨before, hbefore, rfl⟩ := Option.map_eq_some_iff.mp hcount
    rw [hmarks before hbefore, if_pos rfl, if_neg hother.symm]
  · rw [Function.update_of_ne hold] at hcount
    by_cases hnew : cell = row
    · subst hnew
      rw [Function.update_self] at hcount
      obtain ⟨before, hbefore, rfl⟩ := Option.map_eq_some_iff.mp hcount
      rw [hmarks before hbefore, if_neg hold, if_pos rfl]
    · rw [Function.update_of_ne hnew] at hcount
      rw [hmarks count hcount, if_neg hold, if_neg hnew]

/-- Every event that does not fail does to the tables what it does to the selection. -/
theorem ShowsSelection.step {view view' : Categories} {selection : Selection}
    (h : ShowsSelection view selection) (event : TableEvent) (hstep : view.step event = some view') :
    ShowsSelection view' (selection.step event) := by
  cases event with
  | didSelectRow table row =>
    cases table with
    | group =>
      obtain rfl := Option.some.inj hstep
      exact h
    | classify =>
      obtain rfl := Option.some.inj hstep
      rw [Selection.step]
      by_cases hsame : row = selection.category
      · rw [if_pos hsame, Categories.leftSectionSelected, if_pos (hsame.trans h.category.symm)]
        exact h
      · rw [if_neg hsame]
        have hselected := h.leftSectionSelected hsame true
        rwa [Bool.not_true, Bool.and_false] at hselected
  | willBeginDragging table =>
    obtain rfl := Option.some.inj hstep
    cases table with
    | group => exact ⟨h.category, rfl, h.marks⟩
    | classify => exact ⟨h.category, rfl, h.marks⟩
  | didScroll table visible =>
    change view.didScroll table visible = some view' at hstep
    unfold Categories.didScroll at hstep
    split at hstep
    · rename_i hfollows
      obtain ⟨rfl, hset, hnot⟩ := hfollows
      have hboth : selection.follows = true := by
        rw [← h.follows, hset, hnot]
        rfl
      cases visible with
      | nil => cases hstep
      | cons first rest =>
        obtain rfl := Option.some.inj hstep
        rw [Selection.step, if_pos hboth]
        by_cases hsame : first = selection.category
        · rw [Categories.leftSectionSelected, if_pos (hsame.trans h.category.symm), hsame]
          exact h
        · have hselected := h.leftSectionSelected hsame false
          rwa [hset, Bool.not_false, Bool.and_true, ← hboth] at hselected
    · rename_i hstays
      obtain rfl := Option.some.inj hstep
      have hsame : selection.step (.didScroll table visible) = selection := by
        cases table with
        | classify => rfl
        | group =>
          cases visible with
          | nil => rfl
          | cons first rest =>
            rw [Selection.step, if_neg]
            intro hfollows
            rw [← h.follows, Bool.and_eq_true, Bool.not_eq_true'] at hfollows
            exact hstays ⟨rfl, hfollows⟩
      rw [hsame]
      exact h
  | cellForRow row =>
    obtain rfl := Option.some.inj hstep
    refine ⟨h.category, h.follows, fun cell count hcount => ?_⟩
    change Function.update view.marks row _ cell = some count at hcount
    by_cases hcell : cell = row
    · subst hcell
      rw [Function.update_self, h.category] at hcount
      exact (Option.some.inj hcount).symm
    · rw [Function.update_of_ne hcell] at hcount
      exact h.marks cell count hcount
  | didEndDisplaying row =>
    obtain rfl := Option.some.inj hstep
    refine ⟨h.category, h.follows, fun cell count hcount => ?_⟩
    change Function.update view.marks row none cell = some count at hcount
    by_cases hcell : cell = row
    · subst hcell
      rw [Function.update_self] at hcount
      cases hcount
    · rw [Function.update_of_ne hcell] at hcount
      exact h.marks cell count hcount

/-- The first category is selected at first. -/
theorem ShowsSelection.new : ShowsSelection .new ⟨0, false⟩ := ⟨rfl, rfl, nofun⟩

/-- The tables show the selection after every run. -/
theorem ShowsSelection.run {view view' : Categories} {shown : Selection}
    (h : ShowsSelection view shown) (events : List TableEvent)
    (hrun : categories.run view events = some view') :
    ShowsSelection view' (selection.run shown events) := by
  induction events generalizing view shown with
  | nil =>
    obtain rfl := Option.some.inj hrun
    exact h
  | cons event rest ih =>
    obtain ⟨next, hnext, hrest⟩ := Option.bind_eq_some_iff.mp hrun
    exact ih (h.step event hnext) hrest

/-- An event that is no tap on another category and no drag of the products. -/
def TableEvent.Leaves (category : ℕ) (event : TableEvent) : Prop :=
  (∀ row, event = .didSelectRow .classify row → row = category) ∧ event ≠ .willBeginDragging .group

/-- A category that does not follow the products stays until one of these. -/
theorem Selection.run_leaves (category : ℕ) (events : List TableEvent)
    (hleaves : ∀ event ∈ events, event.Leaves category) :
    selection.run ⟨category, false⟩ events = ⟨category, false⟩ := by
  induction events with
  | nil => rfl
  | cons event rest ih =>
    obtain ⟨⟨htap, hdrag⟩, hrest⟩ := List.forall_mem_cons.mp hleaves
    have hsame : Selection.step ⟨category, false⟩ event = ⟨category, false⟩ := by
      cases event with
      | didSelectRow table row =>
        cases table with
        | group => rfl
        | classify => exact if_pos (htap row rfl)
      | willBeginDragging table =>
        cases table with
        | group => exact absurd rfl hdrag
        | classify => rfl
      | didScroll table visible =>
        cases table with
        | classify => rfl
        | group => cases visible <;> rfl
      | cellForRow row => rfl
      | didEndDisplaying row => rfl
    change selection.run (Selection.step ⟨category, false⟩ event) rest = _
    rw [hsame, ih hrest]

/-- Whatever happens on screen, as long as nothing fails, the current category is that of the
selection, and exactly its cell has a mark, and one mark, if it is on screen. A tap on another
category selects it until the next tap on another one or the next drag of the products, whatever is
scrolled. -/
theorem run_showsSelection (events later : List TableEvent) (row : ℕ) (view last : Categories)
    (hrun : categories.run .new events = some view)
    (hlater : categories.run view (.didSelectRow .classify row :: later) = some last) :
    (view.currentExtendSection = (selection.run ⟨0, false⟩ events).category ∧
      ∀ cell count, view.marks cell = some count →
        count = if cell = (selection.run ⟨0, false⟩ events).category then 1 else 0) ∧
    (row ≠ view.currentExtendSection → (∀ event ∈ later, event.Leaves row) →
      last.currentExtendSection = row ∧
        ∀ cell count, last.marks cell = some count → count = if cell = row then 1 else 0) := by
  have hshows := ShowsSelection.new.run events hrun
  refine ⟨⟨hshows.category, hshows.marks⟩, fun hother hleaves => ?_⟩
  obtain ⟨tapped, htapped, hrest⟩ := Option.bind_eq_some_iff.mp hlater
  change view.step (.didSelectRow .classify row) = some tapped at htapped
  have hafter := (hshows.step _ htapped).run later hrest
  rw [Selection.step, if_neg (hshows.category ▸ hother), Selection.run_leaves row later hleaves]
    at hafter
  exact ⟨hafter.category, hafter.marks⟩

/-- Two categories on screen: the products are dragged to the second one, a tap selects the first,
and the products still scroll. -/
theorem run_showsSelection_two :
    ∃ view last,
      categories.run .new [.cellForRow 0, .cellForRow 1, .willBeginDragging .group,
        .didScroll .group [1]] = some view ∧
      categories.run view [.didSelectRow .classify 0, .didScroll .group [1]] = some last ∧
      (view.currentExtendSection = 1 ∧
        ∀ cell count, view.marks cell = some count → count = if cell = 1 then 1 else 0) ∧
      last.currentExtendSection = 0 ∧
        ∀ cell count, last.marks cell = some count → count = if cell = 0 then 1 else 0 := by
  obtain ⟨hview, hlast⟩ := run_showsSelection [.cellForRow 0, .cellForRow 1,
    .willBeginDragging .group, .didScroll .group [1]] [.didScroll .group [1]] 0 _ _ rfl rfl
  refine ⟨_, _, rfl, rfl, hview, hlast (by decide) ?_⟩
  intro event hevent
  rw [List.mem_singleton.mp hevent]
  exact ⟨nofun, nofun⟩

end Coursework.FoodHaus
