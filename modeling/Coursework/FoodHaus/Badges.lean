import Coursework.FoodHaus.Cart
import Mathlib.Data.Fintype.Prod

/-!
# The badges of the categories

The menu shows a badge on the cell of each category, whose closure counts the taps by the
number it reads back from the badge. New cells of products lose their own counts, but what is
tapped away is always shown by a cell and in the cart, so the badges count the cart.
-/

namespace Coursework.FoodHaus

open Transition

variable {R N C : Type} [DecidableEq R] [LinearOrder N] [DecidableEq C]

/-- `addProClosure`: the text of the badge of the category, if it has one, after a tap. -/
def addProClosure (buyCountLab : Option ℕ) (isAddProduct : Bool) : Option ℕ :=
  match buyCountLab with
  | none => some 1
  | some count =>
    if isAddProduct then some (count + 1) else if 1 < count then some (count - 1) else none

/-- `GroupTableView`: the app, and the badges on the cells of the categories, which stay on
screen. -/
structure GroupTableView (R N C : Type) where
  app : App R N
  buyCountLab : C → Option ℕ

/-- The closure of a cell in a section: the badge of that category changes. -/
def updateBadge (category : C) (isAddProduct : Bool) (buyCountLab : C → Option ℕ) : C → Option ℕ :=
  Function.update buyCountLab category (addProClosure (buyCountLab category) isAddProduct)

/-- The badges after an event, for the sections of the rows. -/
def badgesAfter (sectionOf : R → C) (buyCountLab : C → Option ℕ) : Event R → C → Option ℕ
  | .plus row => updateBadge (sectionOf row) true buyCountLab
  | .minus row => updateBadge (sectionOf row) false buyCountLab
  | _ => buyCountLab

/-- The menu as a machine, observed by its badges. -/
def groupTableView (menu : Menu R N) (sectionOf : R → C) :
    Machine (GroupTableView R N C) (Event R) (C → Option ℕ) where
  step view event :=
    ((machine menu).step view.app event).map fun app =>
      ⟨app, badgesAfter sectionOf view.buyCountLab event⟩
  observe := GroupTableView.buyCountLab

/-- The taps on product cells and the product cells made anew. -/
def Event.onCells : Event R → Bool
  | .plus _ | .minus _ | .recreate _ => true
  | _ => false

/-- A new menu, with new cells for all products. -/
def App.newMenu (app : App R N) : App R N := { app with screens := [] }.initData

/-- The number of the names of a category in the cart. -/
def itemsOf [Fintype R] (menu : Menu R N) (sectionOf : R → C) (cart : List N) (category : C) : ℕ :=
  cart.countP fun name => ∃ row, sectionOf row = category ∧ menu.name row = name

variable [Fintype R] {menu : Menu R N} {sectionOf : R → C} {priceOf : N → ℚ}

omit [DecidableEq R] [DecidableEq C] [Fintype R] [LinearOrder N] in
/-- A name belongs to the category of its row. -/
theorem exists_row_iff (hinjective : Function.Injective menu.name) (row : R) (category : C) :
    (∃ r, sectionOf r = category ∧ menu.name r = menu.name row) ↔ sectionOf row = category := by
  constructor
  · rintro ⟨r, hcategory, hname⟩
    rw [← hinjective hname]
    exact hcategory
  · intro hcategory
    exact ⟨row, hcategory, rfl⟩

omit [DecidableEq R] in
/-- One more name in the cart. -/
theorem itemsOf_cons (hinjective : Function.Injective menu.name) (row : R) (cart : List N)
    (category : C) :
    itemsOf menu sectionOf (menu.name row :: cart) category =
      itemsOf menu sectionOf cart category + if sectionOf row = category then 1 else 0 := by
  rw [itemsOf, List.countP_cons]
  simp only [exists_row_iff hinjective, decide_eq_true_iff]
  rfl

omit [DecidableEq R] in
/-- A tap on plus. -/
theorem itemsOf_appendSorted (hinjective : Function.Injective menu.name) (row : R) (cart : List N)
    (category : C) :
    itemsOf menu sectionOf (appendSorted cart (menu.name row)) category =
      itemsOf menu sectionOf cart category + if sectionOf row = category then 1 else 0 := by
  rw [← itemsOf_cons hinjective]
  exact (appendSorted_perm cart (menu.name row)).countP_eq _

omit [DecidableEq R] in
/-- A tap on minus. -/
theorem itemsOf_erase (hinjective : Function.Injective menu.name) (row : R) {cart : List N}
    (hmem : menu.name row ∈ cart) (category : C) :
    itemsOf menu sectionOf cart category =
      itemsOf menu sectionOf (cart.erase (menu.name row)) category +
        if sectionOf row = category then 1 else 0 := by
  rw [← itemsOf_cons hinjective]
  exact (List.perm_cons_erase hmem).countP_eq _

/-- The app with another stored total. -/
def App.withTotal (app : App R N) (total : Option ℚ) : App R N :=
  { app with defaults := { app.defaults with total := total } }

omit [Fintype R] in
/-- Taps and new cells do not depend on the stored total, except that they store another. -/
theorem App.handle_withTotal {app next : App R N} {total : Option ℚ} {event : Event R}
    (hevent : event.onCells = true) (h : (app.withTotal total).handle menu event = some next) :
    ∃ total', app.handle menu event = some (next.withTotal total') := by
  have hcells : (app.withTotal total).cells = app.cells := rfl
  have hdefaults : (app.withTotal total).defaults.name = app.defaults.name := rfl
  cases event with
  | plus row =>
    change (app.withTotal total).plusBtnClick menu row = some next at h
    change ∃ total', app.plusBtnClick menu row = _
    rw [App.plusBtnClick, hcells] at h
    rw [App.plusBtnClick]
    cases hcount : (app.cells row).buyCount with
    | none =>
      rw [hcount] at h
      obtain rfl := Option.some.inj h
      exact ⟨_, rfl⟩
    | some count =>
      rw [hcount] at h
      dsimp only at h
      rw [hdefaults] at h
      cases hname : app.defaults.name with
      | none =>
        rw [hname] at h
        cases h
      | some items =>
        rw [hname] at h
        obtain rfl := Option.some.inj h
        exact ⟨_, rfl⟩
  | minus row =>
    change (app.withTotal total).minusBtnClick menu row = some next at h
    change ∃ total', app.minusBtnClick menu row = _
    rw [App.minusBtnClick, hcells, hdefaults] at h
    rw [App.minusBtnClick]
    cases hcount : (app.cells row).buyCount with
    | none =>
      rw [hcount] at h
      cases h
    | some count =>
      cases hname : app.defaults.name with
      | none =>
        rw [hcount, hname] at h
        cases h
      | some items =>
        rw [hcount, hname] at h
        obtain ⟨rest, hrest, rfl⟩ := Option.map_eq_some_iff.mp h
        simp only [hrest, Option.map_some]
        exact ⟨_, rfl⟩
  | recreate row =>
    obtain rfl := Option.some.inj h
    exact ⟨app.defaults.total, rfl⟩
  | openCheck => cases hevent
  | confirm => cases hevent
  | back => cases hevent
  | cancel => cases hevent
  | returnToMenu => cases hevent
  | reply position complete => cases hevent
  | relaunch => cases hevent

/-- The badges count the cart, and no cell shows more of a product than the cart holds. -/
structure Badged (menu : Menu R N) (priceOf : N → ℚ) (sectionOf : R → C)
    (view : GroupTableView R N C) : Prop where
  consistent : ∃ total, Consistent menu priceOf (view.app.withTotal total)
  badges : ∀ category,
    (view.buyCountLab category).getD 0 = itemsOf menu sectionOf view.app.cart category
  positive : ∀ category, view.buyCountLab category ≠ some 0

/-- A tap on plus shows one more. -/
theorem getD_addProClosure_true (buyCountLab : Option ℕ) :
    (addProClosure buyCountLab true).getD 0 = buyCountLab.getD 0 + 1 := by
  cases buyCountLab <;> rfl

/-- A tap on minus shows one less, if a badge was shown. -/
theorem getD_addProClosure_false {buyCountLab : Option ℕ} (h : 0 < buyCountLab.getD 0) :
    buyCountLab.getD 0 = (addProClosure buyCountLab false).getD 0 + 1 := by
  cases buyCountLab with
  | none => cases h
  | some count =>
    rw [addProClosure, if_neg Bool.false_ne_true]
    rw [Option.getD_some] at h ⊢
    split
    · rw [Option.getD_some]
      omega
    · rw [Option.getD_none]
      omega

/-- The closure removes the badge rather than show a zero. -/
theorem addProClosure_ne {buyCountLab : Option ℕ} (isAddProduct : Bool) :
    addProClosure buyCountLab isAddProduct ≠ some 0 := by
  cases buyCountLab with
  | none => exact fun h => absurd (Option.some.inj h) (by decide)
  | some count =>
    rw [addProClosure]
    split_ifs
    · exact fun h => absurd (Option.some.inj h) (Nat.succ_ne_zero count)
    · rw [Ne, Option.some.injEq]
      omega
    · exact (Option.some_ne_none 0).symm

omit [DecidableEq R] in
/-- A tap on a product changes the badge of its category. -/
theorem Badged.tap {view : GroupTableView R N C} (h : Badged menu priceOf sectionOf view)
    {next : App R N} (hnext : ∃ total, Consistent menu priceOf (next.withTotal total)) (row : R)
    (isAddProduct : Bool)
    (hbadge : ∀ category,
      (updateBadge (sectionOf row) isAddProduct view.buyCountLab category).getD 0 =
        itemsOf menu sectionOf next.cart category) :
    Badged menu priceOf sectionOf
      ⟨next, updateBadge (sectionOf row) isAddProduct view.buyCountLab⟩ := by
  refine ⟨hnext, hbadge, ?_⟩
  exact (Function.forall_update_iff view.buyCountLab fun _ badge => badge ≠ some 0).mpr
    ⟨addProClosure_ne isAddProduct, fun category _ => h.positive category⟩

/-- Every tap and every new cell keeps the badges right. -/
theorem Badged.step {view : GroupTableView R N C} (h : Badged menu priceOf sectionOf view)
    (hinjective : Function.Injective menu.name)
    (hprice : ∀ row, priceOf (menu.name row) = menu.price row) (event : Event R)
    (hevent : event.onCells = true) (havailable : view.app.available event = true) :
    ∃ next, view.app.handle menu event = some next ∧
      Badged menu priceOf sectionOf ⟨next, badgesAfter sectionOf view.buyCountLab event⟩ := by
  obtain ⟨total, hconsistent⟩ := h.consistent
  have hreply : event.isReply = false := by
    cases event <;> first | rfl | cases hevent
  obtain ⟨next, hnext, hkept⟩ := hconsistent.handle hprice event hreply havailable
  obtain ⟨total', hhandle⟩ := App.handle_withTotal hevent hnext
  refine ⟨next.withTotal total', hhandle, ?_⟩
  have hagain : ∃ total, Consistent menu priceOf ((next.withTotal total').withTotal total) :=
    ⟨next.defaults.total, hkept⟩
  cases event with
  | plus row =>
    refine h.tap hagain row true fun category => ?_
    obtain rfl := Option.some.inj ((hconsistent.plusBtnClick_eq row).symm.trans hnext)
    refine Eq.trans ?_ (itemsOf_appendSorted hinjective row view.app.cart category).symm
    by_cases hcategory : sectionOf row = category
    · subst hcategory
      rw [updateBadge, Function.update_self, getD_addProClosure_true, h.badges, if_pos rfl]
    · rw [updateBadge, Function.update_of_ne (Ne.symm hcategory), h.badges, if_neg hcategory,
        add_zero]
  | minus row =>
    refine h.tap hagain row false fun category => ?_
    obtain ⟨count, hcount⟩ :=
      Option.isSome_iff_exists.mp (Bool.and_eq_true_iff.mp havailable).2
    have hmem : menu.name row ∈ view.app.cart := hconsistent.mem_cart row count hcount
    obtain rfl := Option.some.inj ((hconsistent.minusBtnClick_eq row count hcount).symm.trans hnext)
    have hitems : itemsOf menu sectionOf view.app.cart category = _ :=
      itemsOf_erase hinjective row hmem category
    change _ = itemsOf menu sectionOf (view.app.cart.erase (menu.name row)) category
    by_cases hcategory : sectionOf row = category
    · subst hcategory
      rw [if_pos rfl, ← h.badges] at hitems
      have hshown : 0 < (view.buyCountLab (sectionOf row)).getD 0 := by omega
      have hless := getD_addProClosure_false hshown
      rw [updateBadge, Function.update_self]
      omega
    · rw [if_neg hcategory, add_zero] at hitems
      rw [updateBadge, Function.update_of_ne (Ne.symm hcategory), h.badges, hitems]
  | recreate row =>
    obtain rfl := Option.some.inj hnext
    exact ⟨hagain, h.badges, h.positive⟩
  | openCheck => cases hevent
  | confirm => cases hevent
  | back => cases hevent
  | cancel => cases hevent
  | returnToMenu => cases hevent
  | reply position complete => cases hevent
  | relaunch => cases hevent

/-- Every sequence of taps and new cells keeps the badges right. -/
theorem Badged.run (events : List (Event R)) (hinjective : Function.Injective menu.name)
    (hprice : ∀ row, priceOf (menu.name row) = menu.price row)
    (hevents : ∀ event ∈ events, event.onCells = true) {view : GroupTableView R N C}
    (h : Badged menu priceOf sectionOf view)
    (havailable : availableRun menu view.app events = true) :
    ∃ view', (groupTableView menu sectionOf).run view events = some view' ∧
      Badged menu priceOf sectionOf view' := by
  induction events generalizing view with
  | nil => exact ⟨view, rfl, h⟩
  | cons event rest ih =>
    obtain ⟨hevent, hrest⟩ := Bool.and_eq_true_iff.mp havailable
    obtain ⟨next, hnext, hbadged⟩ :=
      h.step hinjective hprice event (hevents event List.mem_cons_self) hevent
    rw [hnext] at hrest
    obtain ⟨view', hrun, hview'⟩ :=
      ih (fun event hmem => hevents event (List.mem_cons_of_mem _ hmem)) hbadged hrest
    refine ⟨view', ?_, hview'⟩
    have hstep : (groupTableView menu sectionOf).step view event =
        some ⟨next, badgesAfter sectionOf view.buyCountLab event⟩ := by
      simp only [groupTableView, machine, hevent, if_true, hnext, Option.map_some]
    rw [Machine.run, hstep]
    exact hrun

omit [DecidableEq R] in
/-- A new menu on an empty cart has the badges right, since it has none. -/
theorem Badged.newMenu {app : App R N} (hempty : app.cart = []) :
    Badged menu priceOf sectionOf ⟨app.newMenu, fun _ => none⟩ where
  consistent := by
    refine ⟨none, ?_⟩
    have hstart : Consistent menu priceOf ({ app with screens := [] }.withTotal none).initData := by
      apply Consistent.initData
      · change 0 = (app.cart.map priceOf).sum
        rw [hempty]
        rfl
      · change app.cart.Pairwise (· ≤ ·)
        rw [hempty]
        exact List.Pairwise.nil
    exact hstart
  badges := by
    intro category
    change 0 = itemsOf menu sectionOf app.cart category
    rw [hempty]
    rfl
  positive := fun _ => (Option.some_ne_none 0).symm

/-- The section of each row of the menu. -/
def productSection (row : Fin 25) : ℕ :=
  (productName.zipIdx.flatMap fun names => names.1.map fun _ => names.2).getD row 0

/-- On a menu that starts with an empty cart, whatever is tapped and however often cells are made
anew, each badge shows the number of items of its category in the cart, and there is no badge
exactly when there is no such item. -/
theorem badges_count (app : App (Fin 25) String) (hempty : app.cart = [])
    (events : List (Event (Fin 25))) (hevents : ∀ event ∈ events, event.onCells = true)
    (havailable : availableRun products app.newMenu events = true) :
    ∃ view, (groupTableView products productSection).run ⟨app.newMenu, fun _ => none⟩ events =
        some view ∧
      ∀ category,
        (view.buyCountLab category).getD 0 =
          itemsOf products productSection view.app.cart category ∧
        (view.buyCountLab category = none ↔
          itemsOf products productSection view.app.cart category = 0) := by
  have hstart : Badged products productPriceOf productSection ⟨app.newMenu, fun _ => none⟩ :=
    .newMenu hempty
  obtain ⟨view, hrun, hbadged⟩ := hstart.run events products_name_injective productPriceOf_name
    hevents havailable
  refine ⟨view, hrun, fun category => ⟨hbadged.badges category, ?_⟩⟩
  rw [← hbadged.badges category]
  have hpositive := hbadged.positive category
  cases hbadge : view.buyCountLab category with
  | none => exact iff_of_true rfl rfl
  | some count =>
    rw [hbadge, Ne, Option.some.injEq] at hpositive
    exact iff_of_false (Option.some_ne_none count) hpositive

/-- Two sandwiches and a soup, of which the cell of one sandwich comes back on screen before the
other is taken back. -/
theorem badges_count_sandwiches :
    ∃ view, (groupTableView products productSection).run
        ⟨(App.installed : App (Fin 25) String).newMenu, fun _ => none⟩
        [.plus 0, .plus 3, .plus 11, .recreate 0, .minus 3, .plus 0, .minus 0] = some view ∧
      ∀ category,
        (view.buyCountLab category).getD 0 =
          itemsOf products productSection view.app.cart category ∧
        (view.buyCountLab category = none ↔
          itemsOf products productSection view.app.cart category = 0) :=
  badges_count App.installed rfl _ (by decide) rfl

end Coursework.FoodHaus
