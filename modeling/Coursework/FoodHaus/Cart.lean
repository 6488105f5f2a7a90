import Coursework.FoodHaus.Products
import Coursework.Transition.UpdateSum
import Mathlib.Tactic.Ring
import Mathlib.Tactic.SplitIfs

/-!
# The cart is consistent

As long as no order is written, the total is the sum of the prices of the stored names, the
names are sorted, and the cells of a product show no more than the cart holds of it, so that
no handler fails.
-/

namespace Coursework.FoodHaus

open Transition

variable {R N : Type} [DecidableEq R] [LinearOrder N]

/-- The count that a cell shows; no label means 0. -/
def Cell.shown (cell : Cell N) : ℕ := cell.buyCount.getD 0

/-- The cart and the cells agree as far as the handlers rely on it. -/
structure Consistent [Fintype R] (menu : Menu R N) (priceOf : N → ℚ) (app : App R N) : Prop where
  total : app.total = (app.cart.map priceOf).sum
  sorted : app.cart.Pairwise (· ≤ ·)
  counts : ∀ name, (∑ row with menu.name row = name, (app.cells row).shown) ≤ app.cart.count name
  positive : ∀ row, (app.cells row).buyCount ≠ some 0
  items : app.defaults.name = none → ∀ row, (app.cells row).items = []

/-- Whether events can happen one after the other, as far as no handler fails. -/
def availableRun (menu : Menu R N) : App R N → List (Event R) → Bool
  | _, [] => true
  | app, event :: rest =>
    app.available event &&
      match app.handle menu event with
      | some next => availableRun menu next rest
      | none => true

/-- A reply can write an order; every other event cannot. -/
def Event.isReply : Event R → Bool
  | .reply _ _ => true
  | _ => false

/-- Adding a name and sorting permutes the names with the new one. -/
theorem appendSorted_perm (items : List N) (name : N) :
    (appendSorted items name).Perm (name :: items) :=
  (List.perm_insertionSort _ _).trans (List.perm_append_singleton name items)

/-- After adding a name the names are sorted. -/
theorem appendSorted_sorted (items : List N) (name : N) :
    (appendSorted items name).Pairwise (· ≤ ·) := List.pairwise_insertionSort _ _

/-- Adding a name adds one occurrence of it. -/
theorem count_appendSorted (items : List N) (name other : N) :
    (appendSorted items name).count other =
      items.count other + if name = other then 1 else 0 := by
  rw [(appendSorted_perm items name).count_eq, List.count_cons]
  simp only [beq_iff_eq]

/-- Adding a name adds its price. -/
theorem sum_appendSorted (priceOf : N → ℚ) (items : List N) (name : N) :
    ((appendSorted items name).map priceOf).sum = (items.map priceOf).sum + priceOf name := by
  rw [((appendSorted_perm items name).map priceOf).sum_eq, List.map_cons, List.sum_cons, add_comm]

variable [Fintype R] {menu : Menu R N} {priceOf : N → ℚ} {app app' : App R N}

/-- The cells of a product, of which one shows a new count. -/
theorem sum_shown_update (menu : Menu R N) (cells : R → Cell N) (row : R) (cell : Cell N)
    (name : N) :
    (∑ r with menu.name r = name, (Function.update cells row cell r).shown) +
        (if menu.name row = name then (cells row).shown else 0) =
      (∑ r with menu.name r = name, (cells r).shown) +
        if menu.name row = name then cell.shown else 0 := by
  have hsum := sum_update_add (Finset.univ.filter fun r => menu.name r = name)
    (fun _ cell => Cell.shown cell) cells row cell
  simpa only [Finset.mem_filter, Finset.mem_univ, true_and] using hsum

omit [DecidableEq R] in
/-- A cell shows at most what the cart holds of its product. -/
theorem Consistent.shown_le (h : Consistent menu priceOf app) (row : R) :
    (app.cells row).shown ≤ app.cart.count (menu.name row) := by
  apply le_trans _ (h.counts (menu.name row))
  exact Finset.single_le_sum (f := fun r => (app.cells r).shown) (fun r _ => Nat.zero_le _)
    (Finset.mem_filter.mpr ⟨Finset.mem_univ row, rfl⟩)

omit [DecidableEq R] in
/-- A cell that shows a count has its product in the cart. -/
theorem Consistent.mem_cart (h : Consistent menu priceOf app) (row : R) (count : ℕ)
    (hcount : (app.cells row).buyCount = some count) : menu.name row ∈ app.cart := by
  have hle := h.shown_le row
  have hpositive := h.positive row
  rw [hcount, Ne, Option.some.injEq] at hpositive
  rw [Cell.shown, hcount, Option.getD_some] at hle
  exact List.count_pos_iff.mp (by omega)

/-- A plus tap stores one more of its product and shows it. -/
theorem Consistent.plusBtnClick_eq (h : Consistent menu priceOf app) (row : R) :
    app.plusBtnClick menu row =
      some (app.store row (some ((app.cells row).shown + 1))
        (appendSorted app.cart (menu.name row)) (app.total + menu.price row)) := by
  rw [App.plusBtnClick]
  cases hcount : (app.cells row).buyCount with
  | none =>
    have hitems : app.defaults.name.getD (app.cells row).items = app.cart := by
      cases hname : app.defaults.name with
      | none => rw [h.items hname row, App.cart, hname]
      | some items => rw [App.cart, hname, Option.getD_some, Option.getD_some]
    simp only [hitems, Cell.shown, hcount, Option.getD_none, zero_add]
  | some count =>
    have hmem := h.mem_cart row count hcount
    cases hname : app.defaults.name with
    | none =>
      rw [App.cart, hname, Option.getD_none] at hmem
      cases hmem
    | some items =>
      simp only [Cell.shown, hcount, App.cart, hname, Option.getD_some]

/-- A minus tap on a shown count stores one less of its product and shows it. -/
theorem Consistent.minusBtnClick_eq (h : Consistent menu priceOf app) (row : R) (count : ℕ)
    (hcount : (app.cells row).buyCount = some count) :
    app.minusBtnClick menu row =
      some (app.store row (if 1 < count then some (count - 1) else none)
        (app.cart.erase (menu.name row)) (app.total - menu.price row)) := by
  have hmem := h.mem_cart row count hcount
  rw [App.minusBtnClick, hcount]
  cases hname : app.defaults.name with
  | none =>
    rw [App.cart, hname, Option.getD_none] at hmem
    cases hmem
  | some items =>
    rw [App.cart, hname, Option.getD_some] at hmem ⊢
    simp only [removeFirst, if_pos hmem, Option.map_some]

/-- Storing a plus tap keeps the cart consistent. -/
theorem Consistent.store_plus (h : Consistent menu priceOf app)
    (hprice : ∀ row, priceOf (menu.name row) = menu.price row) (row : R) :
    Consistent menu priceOf (app.store row (some ((app.cells row).shown + 1))
      (appendSorted app.cart (menu.name row)) (app.total + menu.price row)) := by
  refine ⟨?_, ?_, ?_, ?_, ?_⟩
  · change app.total + menu.price row = ((appendSorted app.cart (menu.name row)).map priceOf).sum
    rw [sum_appendSorted, h.total, hprice]
  · exact appendSorted_sorted _ _
  · intro name
    have hsum := sum_shown_update menu app.cells row
      ⟨some ((app.cells row).shown + 1), appendSorted app.cart (menu.name row)⟩ name
    have hcounts := h.counts name
    change (∑ r with menu.name r = name, (Function.update app.cells row _ r).shown) ≤
      (appendSorted app.cart (menu.name row)).count name
    rw [count_appendSorted]
    change _ = _ + if menu.name row = name then (app.cells row).shown + 1 else 0 at hsum
    split_ifs at hsum ⊢ <;> omega
  · intro r
    change (Function.update app.cells row _ r).buyCount ≠ some 0
    by_cases hr : r = row
    · subst hr
      rw [Function.update_self]
      simp
    · rw [Function.update_of_ne hr]
      exact h.positive r
  · intro hnone
    cases hnone

/-- Storing a minus tap on a shown count keeps the cart consistent. -/
theorem Consistent.store_minus (h : Consistent menu priceOf app)
    (hprice : ∀ row, priceOf (menu.name row) = menu.price row) (row : R) (count : ℕ)
    (hcount : (app.cells row).buyCount = some count) :
    Consistent menu priceOf (app.store row (if 1 < count then some (count - 1) else none)
      (app.cart.erase (menu.name row)) (app.total - menu.price row)) := by
  have hmem := h.mem_cart row count hcount
  have hpositive : 0 < count := by
    have hne := h.positive row
    rw [hcount, Ne, Option.some.injEq] at hne
    omega
  have hshown : (app.cells row).shown = count := by rw [Cell.shown, hcount, Option.getD_some]
  have hnew : (if 1 < count then some (count - 1) else none).getD 0 = count - 1 := by
    split_ifs with hone
    · rfl
    · rw [Option.getD_none]
      omega
  refine ⟨?_, ?_, ?_, ?_, ?_⟩
  · change app.total - menu.price row = ((app.cart.erase (menu.name row)).map priceOf).sum
    rw [h.total, ← List.sum_map_erase priceOf hmem, hprice]
    ring
  · exact h.sorted.sublist List.erase_sublist
  · intro name
    have hsum := sum_shown_update menu app.cells row
      ⟨if 1 < count then some (count - 1) else none, app.cart.erase (menu.name row)⟩ name
    have hcounts := h.counts name
    change (∑ r with menu.name r = name, (Function.update app.cells row _ r).shown) ≤
      (app.cart.erase (menu.name row)).count name
    rw [List.count_erase]
    simp only [beq_iff_eq]
    rw [hshown, Cell.shown, hnew] at hsum
    split_ifs at hsum ⊢ <;> omega
  · intro r
    change (Function.update app.cells row _ r).buyCount ≠ some 0
    by_cases hr : r = row
    · subst hr
      rw [Function.update_self]
      change (if 1 < count then some (count - 1) else none) ≠ some 0
      split_ifs
      · rw [Ne, Option.some.injEq]
        omega
      · exact Option.some_ne_none 0 |>.symm
    · rw [Function.update_of_ne hr]
      exact h.positive r
  · intro hnone
    cases hnone

omit [DecidableEq R] in
/-- A consistent cart does not depend on the screens. -/
theorem Consistent.congr (h : Consistent menu priceOf app)
    (hname : app'.defaults.name = app.defaults.name)
    (htotal : app'.defaults.total = app.defaults.total) (hcells : app'.cells = app.cells) :
    Consistent menu priceOf app' := by
  have hcart : app'.cart = app.cart := by rw [App.cart, hname, App.cart]
  refine ⟨?_, ?_, ?_, ?_, ?_⟩
  · rw [hcart, App.total, htotal]
    exact h.total
  · exact hcart ▸ h.sorted
  · rw [hcart, hcells]
    exact h.counts
  · exact hcells ▸ h.positive
  · rw [hname, hcells]
    exact h.items

omit [DecidableEq R] in
/-- New cells are consistent with every cart. -/
theorem Consistent.initData (htotal : app.total = (app.cart.map priceOf).sum)
    (hsorted : app.cart.Pairwise (· ≤ ·)) : Consistent menu priceOf app.initData := by
  refine ⟨htotal, hsorted, ?_, ?_, ?_⟩
  · intro name
    simp [App.initData, Cell.new, Cell.shown]
  · intro row hzero
    cases hzero
  · intro _ row
    rfl

omit [DecidableEq R] in
/-- The menu stays consistent when it appears again. -/
theorem Consistent.popToRoot (h : Consistent menu priceOf app) :
    Consistent menu priceOf app.popToRoot := by
  rw [App.popToRoot, App.viewWillAppear]
  split
  · exact Consistent.initData h.total h.sorted
  · exact h.congr rfl rfl rfl

/-- A new cell shows no more than the one it replaces. -/
theorem Consistent.recreate (h : Consistent menu priceOf app) (row : R) :
    Consistent menu priceOf { app with cells := Function.update app.cells row Cell.new } := by
  refine ⟨h.total, h.sorted, ?_, ?_, ?_⟩
  · intro name
    have hsum := sum_shown_update menu app.cells row Cell.new name
    have hcounts := h.counts name
    change (∑ r with menu.name r = name, (Function.update app.cells row Cell.new r).shown) ≤
      app.cart.count name
    rw [show Cell.shown (Cell.new : Cell N) = 0 from rfl] at hsum
    split_ifs at hsum <;> omega
  · intro r
    change (Function.update app.cells row Cell.new r).buyCount ≠ some 0
    by_cases hr : r = row
    · subst hr
      rw [Function.update_self]
      exact (Option.some_ne_none 0).symm
    · rw [Function.update_of_ne hr]
      exact h.positive r
  · intro hnone r
    change (Function.update app.cells row Cell.new r).items = []
    by_cases hr : r = row
    · subst hr
      rw [Function.update_self]
      rfl
    · rw [Function.update_of_ne hr]
      exact h.items hnone r

/-- No handler but that of a reply fails or makes the cart inconsistent. -/
theorem Consistent.handle (h : Consistent menu priceOf app)
    (hprice : ∀ row, priceOf (menu.name row) = menu.price row) (event : Event R)
    (hreply : event.isReply = false) (havailable : app.available event = true) :
    ∃ next, app.handle menu event = some next ∧ Consistent menu priceOf next := by
  cases event with
  | plus row => exact ⟨_, h.plusBtnClick_eq row, h.store_plus hprice row⟩
  | minus row =>
    have hshown := (Bool.and_eq_true_iff.mp havailable).2
    obtain ⟨count, hcount⟩ := Option.isSome_iff_exists.mp hshown
    exact ⟨_, h.minusBtnClick_eq row count hcount, h.store_minus hprice row count hcount⟩
  | recreate row => exact ⟨_, rfl, h.recreate row⟩
  | openCheck => exact ⟨_, rfl, h.congr rfl rfl rfl⟩
  | confirm =>
    obtain ⟨id, hid⟩ := Option.isSome_iff_exists.mp havailable
    rw [App.handle, hid]
    exact ⟨_, rfl, h.congr rfl rfl rfl⟩
  | back =>
    refine ⟨_, rfl, ?_⟩
    rw [App.back]
    split
    · exact h
    · exact h.popToRoot
    · exact h.congr rfl rfl rfl
  | cancel =>
    obtain ⟨id, hid⟩ := Option.isSome_iff_exists.mp havailable
    rw [App.handle, hid]
    exact ⟨_, rfl, Consistent.initData rfl List.Pairwise.nil⟩
  | returnToMenu => exact ⟨_, rfl, h.popToRoot⟩
  | reply position complete => cases hreply
  | relaunch => exact ⟨_, rfl, Consistent.initData h.total h.sorted⟩

/-- A run without replies does not fail and keeps the cart consistent. -/
theorem Consistent.run (events : List (Event R))
    (hprice : ∀ row, priceOf (menu.name row) = menu.price row)
    (hreply : ∀ event ∈ events, event.isReply = false) (h : Consistent menu priceOf app)
    (havailable : availableRun menu app events = true) :
    ∃ app', (machine menu).run app events = some app' ∧ Consistent menu priceOf app' := by
  induction events generalizing app with
  | nil => exact ⟨app, rfl, h⟩
  | cons event rest ih =>
    obtain ⟨hevent, hrest⟩ := Bool.and_eq_true_iff.mp havailable
    obtain ⟨next, hnext, hconsistent⟩ :=
      h.handle hprice event (hreply event List.mem_cons_self) hevent
    rw [hnext] at hrest
    obtain ⟨app', hrun, happ'⟩ := ih (fun event hmem => hreply event (List.mem_cons_of_mem _ hmem))
      hconsistent hrest
    refine ⟨app', ?_, happ'⟩
    have hstep : (machine menu).step app event = some next := by
      simp only [machine, hevent, if_true, hnext]
    rw [Machine.run, hstep]
    exact hrun

/-- In every run without replies no handler fails, the total is the sum of the prices of the stored
names, the names are sorted, and each cell shows at most what the cart holds of its product. -/
theorem cart_consistent (menu : Menu R N) (priceOf : N → ℚ)
    (hprice : ∀ row, priceOf (menu.name row) = menu.price row) (events : List (Event R))
    (hreply : ∀ event ∈ events, event.isReply = false)
    (havailable : availableRun menu .installed events = true) :
    ∃ app, (machine menu).run .installed events = some app ∧
      app.total = (app.cart.map priceOf).sum ∧
      app.cart.Pairwise (· ≤ ·) ∧
      ∀ row, (app.cells row).shown ≤ app.cart.count (menu.name row) := by
  have hinstalled : Consistent menu priceOf App.installed.initData :=
    Consistent.initData rfl List.Pairwise.nil
  obtain ⟨app, hrun, hconsistent⟩ := Consistent.run events hprice hreply hinstalled havailable
  exact ⟨app, hrun, hconsistent.total, hconsistent.sorted, hconsistent.shown_le⟩

/-- Three sandwiches are ordered and one of them taken back, after its cell came back on screen; then the
checkout is cancelled, one sandwich is ordered, and the app is started again. -/
theorem cart_consistent_sandwiches :
    ∃ app, (machine products).run .installed
        [.plus 0, .plus 3, .recreate 0, .plus 0, .minus 0, .openCheck, .cancel, .plus 2,
          .relaunch] = some app ∧
      app.total = (app.cart.map productPriceOf).sum ∧
      app.cart.Pairwise (· ≤ ·) ∧
      ∀ row, (app.cells row).shown ≤ app.cart.count (products.name row) :=
  cart_consistent products productPriceOf productPriceOf_name _ (by decide) rfl

end Coursework.FoodHaus
