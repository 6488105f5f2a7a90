import Coursework.FoodHaus.Cart

/-!
# The quantities that the menu shows

A new cell shows nothing, whatever the cart holds of its product. The cells show the cart
throughout a run exactly if no cell is made for a product that is in the cart.
-/

namespace Coursework.FoodHaus

open Transition

variable {R N : Type} [DecidableEq R] [LinearOrder N]

/-- The taps on a cell, a row that comes back on screen, and a restart of the app. -/
def Event.onMenu : Event R → Bool
  | .plus _ | .minus _ | .recreate _ | .relaunch => true
  | _ => false

/-- Every cell shows how often its product is in the cart. -/
def ShowsCart (menu : Menu R N) (app : App R N) : Prop :=
  ∀ row, (app.cells row).shown = app.cart.count (menu.name row)

/-- No new cell is made for a product that is in the cart. -/
def NewCellsUnordered (menu : Menu R N) (app : App R N) : Event R → Prop
  | .recreate row => menu.name row ∉ app.cart
  | .relaunch => app.cart = []
  | _ => True

variable [Fintype R] {menu : Menu R N} {priceOf : N → ℚ} {app app' : App R N}

/-- The cart is consistent and holds products of the menu only. -/
structure OnMenu (menu : Menu R N) (priceOf : N → ℚ) (app : App R N) : Prop where
  consistent : Consistent menu priceOf app
  names : ∀ name ∈ app.cart, ∃ row, menu.name row = name

omit [Fintype R] in
/-- A plus tap on a menu without repeated names keeps the shown quantities right. -/
theorem ShowsCart.store_plus (h : ShowsCart menu app) (hinjective : Function.Injective menu.name)
    (row : R) (total : ℚ) :
    ShowsCart menu (app.store row (some ((app.cells row).shown + 1))
      (appendSorted app.cart (menu.name row)) total) := by
  intro r
  change (Function.update app.cells row _ r).shown =
    (appendSorted app.cart (menu.name row)).count (menu.name r)
  rw [count_appendSorted, ← h r]
  by_cases hr : r = row
  · subst hr
    rw [Function.update_self, if_pos rfl]
    rfl
  · rw [Function.update_of_ne hr, if_neg (fun heq => hr (hinjective heq).symm), add_zero]

omit [Fintype R] in
/-- A minus tap on a shown count keeps the shown quantities right. -/
theorem ShowsCart.store_minus (h : ShowsCart menu app) (hinjective : Function.Injective menu.name)
    (row : R) (count : ℕ) (hcount : (app.cells row).buyCount = some count) (total : ℚ) :
    ShowsCart menu (app.store row (if 1 < count then some (count - 1) else none)
      (app.cart.erase (menu.name row)) total) := by
  intro r
  change (Function.update app.cells row _ r).shown =
    (app.cart.erase (menu.name row)).count (menu.name r)
  rw [List.count_erase, ← h r]
  by_cases hr : r = row
  · subst hr
    have hshown : (app.cells r).shown = count := by rw [Cell.shown, hcount, Option.getD_some]
    rw [Function.update_self, hshown, beq_self_eq_true, if_pos rfl, Cell.shown]
    split_ifs with hone
    · rfl
    · rw [Option.getD_none]
      omega
  · have hne : (menu.name row == menu.name r) = false :=
      beq_eq_false_iff_ne.mpr fun heq => hr (hinjective heq).symm
    rw [Function.update_of_ne hr, hne, if_neg Bool.false_ne_true, Nat.sub_zero]

omit [Fintype R] in
/-- A new cell keeps the shown quantities right exactly if its product is not in the cart. -/
theorem ShowsCart.recreate_iff (h : ShowsCart menu app) (row : R) :
    ShowsCart menu { app with cells := Function.update app.cells row Cell.new } ↔
      menu.name row ∉ app.cart := by
  rw [← List.count_eq_zero]
  constructor
  · intro hnext
    have hrow := hnext row
    change (Function.update app.cells row Cell.new row).shown = _ at hrow
    rw [Function.update_self] at hrow
    exact hrow.symm
  · intro hzero r
    change (Function.update app.cells row Cell.new r).shown = app.cart.count (menu.name r)
    by_cases hr : r = row
    · subst hr
      rw [Function.update_self, hzero]
      rfl
    · rw [Function.update_of_ne hr]
      exact h r

omit [DecidableEq R] in
/-- New cells show the right quantities exactly if the cart is empty. -/
theorem OnMenu.showsCart_initData_iff (h : OnMenu menu priceOf app) :
    ShowsCart menu app.initData ↔ app.cart = [] := by
  constructor
  · intro hnext
    rw [List.eq_nil_iff_forall_not_mem]
    intro name hname
    obtain ⟨row, rfl⟩ := h.names name hname
    exact List.count_eq_zero.mp (hnext row).symm hname
  · intro hempty row
    change 0 = app.cart.count (menu.name row)
    rw [hempty, List.count_nil]

/-- An event on the menu keeps the cart on the menu. -/
theorem OnMenu.handle (h : OnMenu menu priceOf app)
    (hprice : ∀ row, priceOf (menu.name row) = menu.price row) (event : Event R)
    (hevent : event.onMenu = true) (havailable : app.available event = true)
    (hnext : app.handle menu event = some app') : OnMenu menu priceOf app' := by
  have hreply : event.isReply = false := by
    cases event <;> first | rfl | cases hevent
  obtain ⟨next, hhandle, hconsistent⟩ := h.consistent.handle hprice event hreply havailable
  obtain rfl := Option.some.inj (hhandle.symm.trans hnext)
  refine ⟨hconsistent, ?_⟩
  cases event with
  | plus row =>
    obtain rfl := Option.some.inj ((h.consistent.plusBtnClick_eq row).symm.trans hnext)
    intro name hname
    obtain rfl | hmem := List.mem_cons.mp ((appendSorted_perm _ _).mem_iff.mp hname)
    · exact ⟨row, rfl⟩
    · exact h.names name hmem
  | minus row =>
    obtain ⟨count, hcount⟩ :=
      Option.isSome_iff_exists.mp (Bool.and_eq_true_iff.mp havailable).2
    obtain rfl := Option.some.inj ((h.consistent.minusBtnClick_eq row count hcount).symm.trans hnext)
    intro name hname
    exact h.names name (List.mem_of_mem_erase hname)
  | recreate row =>
    obtain rfl := Option.some.inj hnext
    exact h.names
  | relaunch =>
    obtain rfl := Option.some.inj hnext
    exact h.names
  | openCheck => cases hevent
  | confirm => cases hevent
  | back => cases hevent
  | cancel => cases hevent
  | returnToMenu => cases hevent
  | reply position complete => cases hevent

/-- An event on the menu keeps the shown quantities right exactly if it makes no new cell for a product
in the cart. -/
theorem ShowsCart.handle_iff (h : ShowsCart menu app) (hmenu : OnMenu menu priceOf app)
    (hinjective : Function.Injective menu.name) (event : Event R)
    (hevent : event.onMenu = true) (havailable : app.available event = true)
    (hnext : app.handle menu event = some app') :
    ShowsCart menu app' ↔ NewCellsUnordered menu app event := by
  cases event with
  | plus row =>
    obtain rfl := Option.some.inj ((hmenu.consistent.plusBtnClick_eq row).symm.trans hnext)
    exact iff_of_true (h.store_plus hinjective row _) trivial
  | minus row =>
    obtain ⟨count, hcount⟩ :=
      Option.isSome_iff_exists.mp (Bool.and_eq_true_iff.mp havailable).2
    obtain rfl :=
      Option.some.inj ((hmenu.consistent.minusBtnClick_eq row count hcount).symm.trans hnext)
    exact iff_of_true (h.store_minus hinjective row count hcount _) trivial
  | recreate row =>
    obtain rfl := Option.some.inj hnext
    exact h.recreate_iff row
  | relaunch =>
    obtain rfl := Option.some.inj hnext
    exact hmenu.showsCart_initData_iff
  | openCheck => cases hevent
  | confirm => cases hevent
  | back => cases hevent
  | cancel => cases hevent
  | returnToMenu => cases hevent
  | reply position complete => cases hevent

/-- In every run of events on the menu the cells show the cart in every state exactly if no new cell is
made for a product that is in the cart. -/
theorem showsCart_iff (events : List (Event (Fin 25)))
    (hevents : ∀ event ∈ events, event.onMenu = true) :
    (machine products).Always (ShowsCart products) .installed events ↔
      (machine products).EachStep (NewCellsUnordered products) .installed events := by
  apply Machine.always_iff_eachStep (machine products) (OnMenu products productPriceOf) _ _
    fun event => event.onMenu = true
  · intro app event app' hmenu hshows hevent hstep
    have havailable : app.available event = true := by
      by_contra hnot
      simp [machine, hnot] at hstep
    have hnext : app.handle products event = some app' := by
      simpa [machine, havailable] using hstep
    exact ⟨hmenu.handle productPriceOf_name event hevent havailable hnext,
      hshows.handle_iff hmenu products_name_injective event hevent havailable hnext⟩
  · exact hevents
  · refine ⟨?_, ?_⟩
    · exact (Consistent.initData rfl List.Pairwise.nil :
        Consistent products productPriceOf (App.initData App.installed))
    · intro name hname
      cases hname
  · intro row
    rfl

/-- The cell of another product may come back on screen while the cart is not empty. -/
theorem showsCart_iff_otherCell :
    (machine products).Always (ShowsCart products) .installed [.plus 0, .recreate 1, .minus 0] ↔
      (machine products).EachStep (NewCellsUnordered products) .installed
        [.plus 0, .recreate 1, .minus 0] :=
  showsCart_iff [.plus 0, .recreate 1, .minus 0] (by decide)

/-- When the cell of an ordered product comes back on screen, it shows nothing. -/
theorem not_showsCart_recreate :
    ¬ (machine products).Always (ShowsCart products) .installed [.plus 0, .recreate 0] := by
  rintro ⟨-, hplus⟩
  obtain ⟨-, hrecreate⟩ := hplus _ rfl
  have hrow := hrecreate _ rfl 0
  change 0 = ["Roast beef"].count "Roast beef" at hrow
  rw [List.count_singleton_self] at hrow
  cases hrow

end Coursework.FoodHaus
