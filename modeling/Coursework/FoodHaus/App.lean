import Coursework.Transition.Observation
import Mathlib.Algebra.Order.Ring.Rat
import Mathlib.Data.List.Sort
import Mathlib.Logic.Function.Basic

/-!
# The order of a customer

The cart lives in the user defaults, under the keys `Name` and `total`. Each product cell
shows a count and keeps a copy of the names, and each check screen keeps the names and the
subtotal from its creation. Prices are exact. A step fails if it is not available on the
screen, or if a forced cast or index of its handler fails.
-/

namespace Coursework.FoodHaus

open Transition

/-- The products of the menu: the name and the price in each row. -/
structure Menu (R N : Type) where
  name : R → N
  price : R → ℚ

/-- The keys of `UserDefaults` that the app uses. -/
structure Defaults (N : Type) where
  name : Option (List N)
  total : Option ℚ
  init : Bool

/-- `PrdouctMenuTableViewCell`: the number in the label `buyCount`, and `items`. -/
structure Cell (N : Type) where
  buyCount : Option ℕ
  items : List N

/-- `CheckViewController`: `items`, and the number in the label `subTotalPrice`. -/
structure CheckViewController (N : Type) where
  items : List N
  subTotalPrice : ℚ

/-- A screen above the menu: a check screen, by the number of its opening, or the one shown after a
successful order. -/
inductive Screen where
  | check (id : ℕ)
  | successful
  deriving DecidableEq, Repr

/-- An order as it is written to the database, with the check screen that wrote it. -/
structure Order (N : Type) where
  check : ℕ
  items : List N
  subTotalPrice : ℚ

/-- The app: the user defaults, the cells of the rows, the screens above the menu, all check screens
opened so far, those that await a reply, the orders written, and the check screens cancelled. -/
structure App (R N : Type) where
  defaults : Defaults N
  cells : R → Cell N
  screens : List Screen
  checks : List (CheckViewController N)
  pending : List ℕ
  orders : List (Order N)
  cancelled : List ℕ

/-- What can happen: a tap on a button, a row that comes back on screen, the arrival of the reply to one
of the pending requests, which says whether the profile is complete, and a restart of the app. -/
inductive Event (R : Type) where
  | plus (row : R)
  | minus (row : R)
  | recreate (row : R)
  | openCheck
  | confirm
  | back
  | cancel
  | returnToMenu
  | reply (position : ℕ) (complete : Bool)
  | relaunch
  deriving DecidableEq

variable {R N : Type} [DecidableEq R] [LinearOrder N]

/-- The stored names; a missing key is read as no names. -/
def App.cart (app : App R N) : List N := app.defaults.name.getD []

/-- `UserDefaults.standard.double(forKey: "total")`. -/
def App.total (app : App R N) : ℚ := app.defaults.total.getD 0

/-- A new cell, as `cellForRowAt` makes it. -/
def Cell.new : Cell N := ⟨none, []⟩

/-- The app with a cell replaced, and names and total stored. -/
def App.store (app : App R N) (row : R) (buyCount : Option ℕ) (items : List N) (total : ℚ) :
    App R N :=
  { app with
    defaults := { app.defaults with name := some items, total := some total }
    cells := Function.update app.cells row ⟨buyCount, items⟩ }

/-- `items.append(name)` and `items.sort()`. -/
def appendSorted (items : List N) (name : N) : List N := (items ++ [name]).insertionSort (· ≤ ·)

/-- `plusBtnClick`. -/
def App.plusBtnClick (menu : Menu R N) (row : R) (app : App R N) : Option (App R N) :=
  match (app.cells row).buyCount with
  | none =>
    let items := app.defaults.name.getD (app.cells row).items
    some (app.store row (some 1) (appendSorted items (menu.name row)) (app.total + menu.price row))
  | some count =>
    match app.defaults.name with
    | none => none
    | some items =>
      some (app.store row (some (count + 1)) (appendSorted items (menu.name row))
        (app.total + menu.price row))

/-- `items.remove(at: index!)` for the first index of the name. -/
def removeFirst (items : List N) (name : N) : Option (List N) :=
  if name ∈ items then some (items.erase name) else none

/-- `minusBtnClick`. -/
def App.minusBtnClick (menu : Menu R N) (row : R) (app : App R N) : Option (App R N) :=
  match (app.cells row).buyCount, app.defaults.name with
  | some count, some items =>
    (removeFirst items (menu.name row)).map fun items =>
      app.store row (if 1 < count then some (count - 1) else none) items
        (app.total - menu.price row)
  | _, _ => none

/-- `resetPrice` and `resetItem`, and the flag `init`. -/
def App.reset (app : App R N) : App R N :=
  { app with defaults := ⟨none, none, true⟩ }

/-- `initData`, which puts a new table of products on the menu. -/
def App.initData (app : App R N) : App R N :=
  { app with
    defaults := { app.defaults with init := false }
    cells := fun _ => Cell.new }

/-- `viewWillAppear` of the menu. -/
def App.viewWillAppear (app : App R N) : App R N :=
  if app.defaults.init then app.initData else app

/-- `popToRootViewController`. -/
def App.popToRoot (app : App R N) : App R N := { app with screens := [] }.viewWillAppear

/-- The creation of a `CheckViewController` and its `viewDidLoad`. -/
def App.openCheck (app : App R N) : App R N :=
  { app with
    screens := [.check app.checks.length]
    checks := app.checks ++ [⟨app.cart, app.total⟩] }

/-- Whether the label of the subtotal, which has two decimals, reads `0.00`. -/
def CheckViewController.showsZero (check : CheckViewController N) : Bool :=
  decide (0 ≤ check.subTotalPrice ∧ check.subTotalPrice ≤ 1 / 200)

/-- The order that the callback of `confirmButon` writes, if it writes one. -/
def App.orderOf (app : App R N) (position : ℕ) (complete : Bool) : Option (Order N) :=
  match app.pending[position]? with
  | none => none
  | some id =>
    match app.checks[id]? with
    | none => none
    | some check =>
      if complete && !check.showsZero then some ⟨id, check.items, check.subTotalPrice⟩ else none

/-- The callback of `confirmButon`: it writes the order, resets the cart and shows the next screen if
its own is still shown or below, or only an alert. -/
def App.reply (position : ℕ) (complete : Bool) (app : App R N) : App R N :=
  let answered := { app with pending := app.pending.eraseIdx position }
  match app.orderOf position complete with
  | none => answered
  | some order =>
    { answered.reset with
      orders := app.orders ++ [order]
      screens :=
        if .check order.check ∈ app.screens then .successful :: app.screens else app.screens }

/-- The way back from the top screen. -/
def App.back (app : App R N) : App R N :=
  match app.screens with
  | [] => app
  | [_] => app.popToRoot
  | _ :: below => { app with screens := below }

/-- The check screen on top, if there is one. -/
def App.topCheck (app : App R N) : Option ℕ :=
  match app.screens with
  | .check id :: _ => some id
  | _ => none

/-- Whether an event can happen on the current screen. -/
def App.available (app : App R N) : Event R → Bool
  | .plus _ | .recreate _ | .openCheck => app.screens.isEmpty
  | .minus row => app.screens.isEmpty && (app.cells row).buyCount.isSome
  | .confirm | .cancel => app.topCheck.isSome
  | .back => !app.screens.isEmpty
  | .returnToMenu => decide (.successful ∈ app.screens)
  | .reply position _ => decide (position < app.pending.length)
  | .relaunch => true

/-- What an event does, unless its handler fails. -/
def App.handle (menu : Menu R N) (app : App R N) : Event R → Option (App R N)
  | .plus row => app.plusBtnClick menu row
  | .minus row => app.minusBtnClick menu row
  | .recreate row => some { app with cells := Function.update app.cells row Cell.new }
  | .openCheck => some app.openCheck
  | .confirm => app.topCheck.map fun id => { app with pending := app.pending ++ [id] }
  | .back => some app.back
  | .cancel =>
    app.topCheck.map fun id => { app.reset with cancelled := id :: app.cancelled }.popToRoot
  | .returnToMenu => some app.popToRoot
  | .reply position complete => some (app.reply position complete)
  | .relaunch => some { app with screens := [], pending := [] }.initData

/-- The app as a machine, observed by the stored names. -/
def machine (menu : Menu R N) : Machine (App R N) (Event R) (List N) where
  step app event := if app.available event then app.handle menu event else none
  observe := App.cart

/-- The app after its first launch. -/
def App.installed : App R N := ⟨⟨none, none, false⟩, fun _ => Cell.new, [], [], [], [], []⟩

end Coursework.FoodHaus
