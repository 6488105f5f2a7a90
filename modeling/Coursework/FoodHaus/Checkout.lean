import Coursework.FoodHaus.Products
import Mathlib.Tactic.NormNum

/-!
# Replies that come late

A check screen keeps the cart of the moment it was opened. The reply to its request writes
that cart as an order and empties the present one. Both agree as long as nothing was added,
removed, cancelled or ordered in between.
-/

namespace Coursework.FoodHaus

open Transition

variable {R N : Type}

/-- An order that the event writes is the stored cart, and its checkout was not cancelled. -/
def OrdersCart (app : App R N) : Event R → Prop
  | .reply position complete =>
    ∀ order, app.orderOf position complete = some order →
      order.items = app.cart ∧ order.check ∉ app.cancelled
  | _ => True

/-- The check screens opened since the last plus or minus tap, cancelled checkout or written
order. -/
def recentAfter (app : App R N) (recent : List ℕ) : Event R → List ℕ
  | .openCheck => app.checks.length :: recent
  | .plus _ | .minus _ | .cancel => []
  | .reply position complete => if (app.orderOf position complete).isSome then [] else recent
  | _ => recent

/-- The app together with its recent check screens. -/
def watched [DecidableEq R] [LinearOrder N] (menu : Menu R N) :
    Machine (App R N × List ℕ) (Event R) (List N) where
  step s event :=
    ((machine menu).step s.1 event).map fun app => (app, recentAfter s.1 s.2 event)
  observe s := s.1.cart

/-- An event writes an order from a recent check screen only. -/
def OrdersRecent (s : App R N × List ℕ) : Event R → Prop
  | .reply position complete =>
    ∀ order, s.1.orderOf position complete = some order → order.check ∈ s.2
  | _ => True

/-- Recent check screens hold the stored cart and were not cancelled. -/
structure Recorded (s : App R N × List ℕ) : Prop where
  recent : ∀ id ∈ s.2, (∃ check, s.1.checks[id]? = some check ∧ check.items = s.1.cart) ∧
    id ∉ s.1.cancelled
  cancelled : ∀ id ∈ s.1.cancelled, id < s.1.checks.length
  screens : ∀ id, .check id ∈ s.1.screens → id < s.1.checks.length

/-- An order answers a pending request and carries the items of its check screen. -/
theorem App.orderOf_eq_some {app : App R N} {position : ℕ} {complete : Bool} {order : Order N}
    (h : app.orderOf position complete = some order) :
    app.pending[position]? = some order.check ∧
      ∃ check, app.checks[order.check]? = some check ∧ order.items = check.items := by
  rw [App.orderOf] at h
  cases hid : app.pending[position]? with
  | none => simp [hid] at h
  | some id =>
    cases hcheck : app.checks[id]? with
    | none => simp [hid, hcheck] at h
    | some check =>
      simp only [hid, hcheck] at h
      split at h
      · obtain rfl := Option.some.inj h
        exact ⟨rfl, check, hcheck, rfl⟩
      · cases h

/-- An order from a recent check screen is the stored cart. -/
theorem Recorded.ordersCart {s : App R N × List ℕ} (h : Recorded s) (event : Event R)
    (hrecent : OrdersRecent s event) : OrdersCart s.1 event := by
  cases event with
  | reply position complete =>
    intro order horder
    obtain ⟨⟨check, hcheck, hitems⟩, hcancelled⟩ := h.recent order.check (hrecent order horder)
    obtain ⟨-, check', hcheck', horderItems⟩ := App.orderOf_eq_some horder
    obtain rfl := Option.some.inj (hcheck.symm.trans hcheck')
    exact ⟨horderItems.trans hitems, hcancelled⟩
  | plus row => trivial
  | minus row => trivial
  | recreate row => trivial
  | openCheck => trivial
  | confirm => trivial
  | back => trivial
  | cancel => trivial
  | returnToMenu => trivial
  | relaunch => trivial

/-- What an event that leaves the cart and the check screens alone does to the rest of the app. -/
structure SameCart (app app' : App R N) : Prop where
  cart : app'.cart = app.cart
  checks : app'.checks = app.checks
  cancelled : app'.cancelled = app.cancelled
  screens : ∀ id, .check id ∈ app'.screens → .check id ∈ app.screens

/-- Such an event keeps the recent check screens. -/
theorem Recorded.of_sameCart {app app' : App R N} {recent : List ℕ} (h : Recorded (app, recent))
    (hsame : SameCart app app') : Recorded (app', recent) := by
  refine ⟨?_, ?_, ?_⟩
  · intro id hid
    change (∃ check, app'.checks[id]? = some check ∧ check.items = app'.cart) ∧ id ∉ app'.cancelled
    rw [hsame.checks, hsame.cart, hsame.cancelled]
    exact h.recent id hid
  · intro id hid
    change id ∈ app'.cancelled at hid
    change id < app'.checks.length
    rw [hsame.cancelled] at hid
    rw [hsame.checks]
    exact h.cancelled id hid
  · intro id hid
    change id < app'.checks.length
    rw [hsame.checks]
    exact h.screens id (hsame.screens id hid)

/-- Without recent check screens only the numbers of the screens matter. -/
theorem Recorded.of_forgotten {app app' : App R N} {recent : List ℕ} (h : Recorded (app, recent))
    (hchecks : app'.checks = app.checks)
    (hcancelled : ∀ id ∈ app'.cancelled, id ∈ app.cancelled ∨ .check id ∈ app.screens)
    (hscreens : ∀ id, .check id ∈ app'.screens → .check id ∈ app.screens) :
    Recorded (app', []) := by
  refine ⟨?_, ?_, ?_⟩
  · intro id hid
    cases hid
  · intro id hid
    change id < app'.checks.length
    rw [hchecks]
    obtain hid | hid := hcancelled id hid
    · exact h.cancelled id hid
    · exact h.screens id hid
  · intro id hid
    change id < app'.checks.length
    rw [hchecks]
    exact h.screens id (hscreens id hid)

/-- The way back to the menu leaves the cart alone. -/
theorem sameCart_popToRoot (app : App R N) : SameCart app app.popToRoot := by
  rw [App.popToRoot, App.viewWillAppear]
  split
  · exact ⟨rfl, rfl, rfl, fun id hid => nomatch hid⟩
  · exact ⟨rfl, rfl, rfl, fun id hid => nomatch hid⟩

/-- The way back from any screen leaves the cart alone. -/
theorem sameCart_back (app : App R N) : SameCart app app.back := by
  rw [App.back]
  split
  · exact ⟨rfl, rfl, rfl, fun id hid => hid⟩
  · exact sameCart_popToRoot app
  · rename_i below top hne hscreens
    refine ⟨rfl, rfl, rfl, ?_⟩
    intro id hid
    rw [hscreens]
    exact List.mem_cons_of_mem _ hid

/-- The check screen on top is one of the screens. -/
theorem mem_screens_of_topCheck {app : App R N} {id : ℕ} (h : app.topCheck = some id) :
    .check id ∈ app.screens := by
  rw [App.topCheck] at h
  split at h
  · rename_i top below hscreens
    obtain rfl := Option.some.inj h
    rw [hscreens]
    exact List.mem_cons_self
  · cases h

/-- A tap on a cell stores something and leaves the screens alone. -/
theorem exists_store_of_plusBtnClick [DecidableEq R] [LinearOrder N] {menu : Menu R N}
    {app app' : App R N} {row : R}
    (h : app.plusBtnClick menu row = some app') :
    ∃ buyCount items total, app' = app.store row buyCount items total := by
  rw [App.plusBtnClick] at h
  split at h
  · exact ⟨_, _, _, (Option.some.inj h).symm⟩
  · split at h
    · cases h
    · exact ⟨_, _, _, (Option.some.inj h).symm⟩

/-- A tap on a cell stores something and leaves the screens alone. -/
theorem exists_store_of_minusBtnClick [DecidableEq R] [LinearOrder N] {menu : Menu R N}
    {app app' : App R N} {row : R}
    (h : app.minusBtnClick menu row = some app') :
    ∃ buyCount items total, app' = app.store row buyCount items total := by
  rw [App.minusBtnClick] at h
  split at h
  · obtain ⟨items, -, rfl⟩ := Option.map_eq_some_iff.mp h
    exact ⟨_, _, _, rfl⟩
  · cases h

/-- A new check screen holds the stored cart. -/
theorem Recorded.openCheck {app : App R N} {recent : List ℕ} (h : Recorded (app, recent)) :
    Recorded (app.openCheck, app.checks.length :: recent) := by
  refine ⟨?_, ?_, ?_⟩
  · intro id hid
    obtain rfl | hid := List.mem_cons.mp hid
    · refine ⟨⟨⟨app.cart, app.total⟩, List.getElem?_concat_length, rfl⟩, ?_⟩
      intro hcancelled
      exact absurd (h.cancelled _ hcancelled) (lt_irrefl _)
    · obtain ⟨⟨check, hcheck, hitems⟩, hnot⟩ := h.recent id hid
      refine ⟨⟨check, ?_, hitems⟩, hnot⟩
      have hlt : id < app.checks.length := (List.getElem?_eq_some_iff.mp hcheck).1
      exact (List.getElem?_append_left hlt).trans hcheck
  · intro id hid
    have hlt := h.cancelled id hid
    change id < (app.checks ++ [_]).length
    rw [List.length_append, List.length_singleton]
    exact Nat.lt_succ_of_lt hlt
  · intro id hid
    change Screen.check id ∈ [Screen.check app.checks.length] at hid
    obtain rfl := Screen.check.inj (List.mem_singleton.mp hid)
    change app.checks.length < (app.checks ++ [_]).length
    rw [List.length_append, List.length_singleton]
    exact Nat.lt_succ_self _

/-- The reply that writes an order. -/
theorem App.reply_of_orderOf {app : App R N} {position : ℕ} {complete : Bool} {order : Order N}
    (horder : app.orderOf position complete = some order) :
    app.reply position complete =
      { app with
        defaults := ⟨none, none, true⟩
        pending := app.pending.eraseIdx position
        orders := app.orders ++ [order]
        screens :=
          if .check order.check ∈ app.screens then .successful :: app.screens else app.screens } := by
  rw [App.reply, horder]
  rfl

/-- A reply that writes no order leaves the cart alone, and one that writes an order forgets the
recent check screens. -/
theorem Recorded.reply {app : App R N} {recent : List ℕ} (h : Recorded (app, recent))
    (position : ℕ) (complete : Bool) :
    Recorded (app.reply position complete,
      recentAfter app recent (.reply position complete : Event R)) := by
  rw [recentAfter]
  cases horder : app.orderOf position complete with
  | none =>
    rw [App.reply, horder]
    exact h.of_sameCart ⟨rfl, rfl, rfl, fun id hid => hid⟩
  | some order =>
    rw [App.reply_of_orderOf horder, Option.isSome_some, if_pos rfl]
    refine h.of_forgotten ?_ ?_ ?_
    · rfl
    · intro id hid
      exact Or.inl hid
    · intro id hid
      change Screen.check id ∈ (if .check order.check ∈ app.screens then .successful :: app.screens
        else app.screens) at hid
      split at hid
      · obtain hfalse | hid := List.mem_cons.mp hid
        · cases hfalse
        · exact hid
      · exact hid

/-- Every event keeps the record of the recent check screens. -/
theorem Recorded.handle [DecidableEq R] [LinearOrder N] {menu : Menu R N} {app app' : App R N}
    {recent : List ℕ} (h : Recorded (app, recent)) (event : Event R)
    (hnext : app.handle menu event = some app') : Recorded (app', recentAfter app recent event) := by
  cases event with
  | plus row =>
    obtain ⟨_, _, _, rfl⟩ := exists_store_of_plusBtnClick hnext
    exact h.of_forgotten rfl (fun id hid => Or.inl hid) fun id hid => hid
  | minus row =>
    obtain ⟨_, _, _, rfl⟩ := exists_store_of_minusBtnClick hnext
    exact h.of_forgotten rfl (fun id hid => Or.inl hid) fun id hid => hid
  | recreate row =>
    obtain rfl := Option.some.inj hnext
    exact h.of_sameCart ⟨rfl, rfl, rfl, fun id hid => hid⟩
  | openCheck =>
    obtain rfl := Option.some.inj hnext
    exact h.openCheck
  | confirm =>
    obtain ⟨id, -, rfl⟩ := Option.map_eq_some_iff.mp hnext
    exact h.of_sameCart ⟨rfl, rfl, rfl, fun id hid => hid⟩
  | back =>
    obtain rfl := Option.some.inj hnext
    exact h.of_sameCart (sameCart_back app)
  | cancel =>
    obtain ⟨id, hid, rfl⟩ := Option.map_eq_some_iff.mp hnext
    refine h.of_forgotten ?_ ?_ ?_
    · rfl
    · intro other hother
      obtain rfl | hother := List.mem_cons.mp hother
      · exact Or.inr (mem_screens_of_topCheck hid)
      · exact Or.inl hother
    · intro other hother
      cases hother
  | returnToMenu =>
    obtain rfl := Option.some.inj hnext
    exact h.of_sameCart (sameCart_popToRoot app)
  | reply position complete =>
    obtain rfl := Option.some.inj hnext
    exact h.reply position complete
  | relaunch =>
    obtain rfl := Option.some.inj hnext
    exact h.of_sameCart ⟨rfl, rfl, rfl, fun id hid => nomatch hid⟩

/-- A step of the watched app keeps the record, and an order from a recent check screen is the stored
cart. -/
theorem Recorded.eachStep [DecidableEq R] [LinearOrder N] {menu : Menu R N}
    (events : List (Event R)) {s : App R N × List ℕ} (h : Recorded s)
    (hrecent : (watched menu).EachStep OrdersRecent s events) :
    (machine menu).EachStep OrdersCart s.1 events := by
  induction events generalizing s with
  | nil => trivial
  | cons event rest ih =>
    intro app' hstep
    have hwatched : (watched menu).step s event = some (app', recentAfter s.1 s.2 event) := by
      change ((machine menu).step s.1 event).map _ = _
      rw [hstep, Option.map_some]
    have hnext : s.1.handle menu event = some app' := by
      change (if s.1.available event then s.1.handle menu event else none) = some app' at hstep
      split at hstep
      · exact hstep
      · cases hstep
    obtain ⟨hevent, hrest⟩ := hrecent _ hwatched
    exact ⟨h.ordersCart event hevent, ih (Recorded.handle h event hnext) hrest⟩

/-- In every run whose orders come from check screens opened since the last plus or minus tap,
cancelled checkout or written order, every order is the stored cart of its moment, and no order is
written for a checkout that was cancelled. -/
theorem ordersCart_of_recent [DecidableEq R] [LinearOrder N] (menu : Menu R N)
    (events : List (Event R))
    (hrecent : (watched menu).EachStep OrdersRecent (.installed, []) events) :
    (machine menu).EachStep OrdersCart .installed events := by
  have hinstalled : Recorded ((App.installed, []) : App R N × List ℕ) := by
    refine ⟨?_, ?_, ?_⟩
    · intro id hid
      cases hid
    · intro id hid
      cases hid
    · intro id hid
      cases hid
  exact hinstalled.eachStep events hrecent

/-- A sandwich is ordered and paid for without delay. -/
theorem ordersCart_of_recent_sandwich :
    (machine products).EachStep OrdersCart .installed
      [.plus 0, .openCheck, .confirm, .reply 0 true] := by
  apply ordersCart_of_recent products
  intro s hs
  obtain rfl := Option.some.inj hs
  refine ⟨trivial, ?_⟩
  intro s hs
  obtain rfl := Option.some.inj hs
  refine ⟨trivial, ?_⟩
  intro s hs
  obtain rfl := Option.some.inj hs
  refine ⟨trivial, ?_⟩
  intro s _
  refine ⟨?_, trivial⟩
  intro order horder
  obtain ⟨hpending, -⟩ := App.orderOf_eq_some horder
  have hcheck : 0 = order.check := Option.some.inj hpending
  rw [← hcheck]
  exact List.mem_cons_self

/-- A sandwich is confirmed, the checkout is cancelled, and then the reply arrives: the cancelled
order is written. -/
theorem not_ordersCart_cancelled :
    ¬ (machine products).EachStep OrdersCart .installed
      [.plus 0, .openCheck, .confirm, .cancel, .reply 0 true] := by
  intro heach
  obtain ⟨-, heach⟩ := heach _ rfl
  obtain ⟨-, heach⟩ := heach _ rfl
  obtain ⟨-, heach⟩ := heach _ rfl
  obtain ⟨-, heach⟩ := heach _ rfl
  obtain ⟨horders, -⟩ := heach _ rfl
  have hshown : (CheckViewController.mk ["Roast beef"] (0 + products.price 0)).showsZero = false := by
    norm_num [CheckViewController.showsZero, products, productPrice]
  obtain ⟨hitems, -⟩ := horders ⟨0, ["Roast beef"], 0 + products.price 0⟩ (by
    change (if true && !(CheckViewController.mk ["Roast beef"]
      (0 + products.price 0)).showsZero then _ else none) = _
    rw [hshown]
    rfl)
  cases hitems

end Coursework.FoodHaus
