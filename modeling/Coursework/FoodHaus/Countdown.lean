import Coursework.FoodHaus.Products

/-!
# The countdown after an order

The screen that follows an order counts from five down and returns to the menu. Its counter is a
timer that nobody stops: it goes on when the screen has been left, and each of its ticks reaches
every screen of this kind, which looks at its own counter only.
-/

namespace Coursework.FoodHaus

open Transition

/-- `ConfirmViewController`: its counter, by the number of its creation, and the number in
`timerLabel`, if there is one. -/
structure ConfirmViewController where
  counter : ℕ
  timerLabel : Option ℤ
  deriving DecidableEq, Repr

/-- The app with the numbers of the counters made since its launch, and the confirm screens above
the menu, the top one first. -/
structure TimedApp (R N : Type) where
  app : App R N
  counters : List ℤ
  confirms : List ConfirmViewController

/-- An event of the app, or a tick of the timer of a counter. -/
inductive TimedEvent (R : Type) where
  | app (event : Event R)
  | tick (counter : ℕ)
  deriving DecidableEq

/-- The event of the app, if it is one. -/
def TimedEvent.appEvent {R : Type} : TimedEvent R → Option (Event R)
  | .app event => some event
  | .tick _ => none

/-- `currentNumber` of a counter. -/
def currentNumber (counters : List ℤ) (counter : ℕ) : ℤ := counters[counter]?.getD 0

/-- `updateView`, as long as the number is positive. -/
def ConfirmViewController.updateView (counters : List ℤ) (screen : ConfirmViewController) :
    ConfirmViewController :=
  { screen with timerLabel := some (currentNumber counters screen.counter) }

/-- `updateView` returns to the menu at any other number. -/
def ConfirmViewController.pops (counters : List ℤ) (screen : ConfirmViewController) : Bool :=
  decide (currentNumber counters screen.counter ≤ 0)

variable {R N : Type} [DecidableEq R] [LinearOrder N]

/-- The confirm screens above the menu. -/
def App.confirmCount (app : App R N) : ℕ := app.screens.count .successful

/-- The confirm screens after an event of the app: a new one has a new counter, and those that were
left are gone. A relaunch stops all timers. -/
def TimedApp.after (timed : TimedApp R N) (event : Event R) (app : App R N) : TimedApp R N :=
  if event = .relaunch then ⟨app, [], []⟩
  else if timed.app.confirmCount < app.confirmCount then
    ⟨app, timed.counters ++ [5], ⟨timed.counters.length, none⟩ :: timed.confirms⟩
  else
    ⟨app, timed.counters, timed.confirms.drop (timed.confirms.length - app.confirmCount)⟩

/-- A tick takes one from its number and has all confirm screens updated. -/
def TimedApp.tick (timed : TimedApp R N) (counter : ℕ) : TimedApp R N :=
  let counters := timed.counters.modify counter (· - 1)
  if timed.confirms.any (·.pops counters) then ⟨timed.app.popToRoot, counters, []⟩
  else ⟨timed.app, counters, timed.confirms.map (·.updateView counters)⟩

/-- The app with its timers as a machine, observed by the stored names. -/
def timedMachine (menu : Menu R N) : Machine (TimedApp R N) (TimedEvent R) (List N) where
  step timed
    | .app event => ((machine menu).step timed.app event).map (timed.after event)
    | .tick counter => if counter < timed.counters.length then some (timed.tick counter) else none
  observe timed := timed.app.cart

/-- The app after its first launch, with no timer. -/
def TimedApp.installed : TimedApp R N := ⟨.installed, [], []⟩

/-- The screen of a counter is above the menu. -/
def TimedApp.Shows (timed : TimedApp R N) (counter : ℕ) : Prop :=
  ∃ screen ∈ timed.confirms, screen.counter = counter

/-- The ticks of each counter since the last launch, from those before an event. -/
def countTicks (ticks : ℕ → ℕ) : TimedEvent R → ℕ → ℕ
  | .app event => if event = .relaunch then fun _ => 0 else ticks
  | .tick counter => Function.update ticks counter (ticks counter + 1)

/-- Each counter has counted its ticks, and each confirm screen shows the number of its own counter,
which is positive, once that has ticked. -/
structure Counting (timed : TimedApp R N) (ticks : ℕ → ℕ) : Prop where
  screens : timed.confirms.length = timed.app.confirmCount
  counters : ∀ counter < timed.counters.length,
    currentNumber timed.counters counter = 5 - ticks counter
  fresh : ∀ counter, timed.counters.length ≤ counter → ticks counter = 0
  made : ∀ screen ∈ timed.confirms, screen.counter < timed.counters.length
  positive : ∀ screen ∈ timed.confirms, ticks screen.counter < 5
  label : ∀ screen ∈ timed.confirms,
    screen.timerLabel = some (5 - (ticks screen.counter : ℤ)) ∨
      ticks screen.counter = 0 ∧ screen.timerLabel = none

/-- A tick takes one from the number of its own counter only. -/
theorem currentNumber_modify {counters : List ℤ} {counter : ℕ} (hlt : counter < counters.length)
    (other : ℕ) :
    currentNumber (counters.modify counter (· - 1)) other =
      currentNumber counters other - if other = counter then 1 else 0 := by
  rw [currentNumber, currentNumber, List.getElem?_modify]
  by_cases hsame : other = counter
  · subst hsame
    simp only [List.getElem?_eq_getElem hlt, if_true, Option.map_eq_map, Option.map_some,
      Option.getD_some]
  · simp only [if_neg hsame, if_neg (Ne.symm hsame), sub_zero, Option.map_eq_map, Option.map_id']

/-- A new counter leaves the numbers of the others. -/
theorem currentNumber_append {counters : List ℤ} {counter : ℕ} (hlt : counter < counters.length)
    (number : ℤ) : currentNumber (counters ++ [number]) counter = currentNumber counters counter := by
  rw [currentNumber, currentNumber, List.getElem?_append_left hlt]

/-- A new counter has its number. -/
theorem currentNumber_new (counters : List ℤ) (number : ℤ) :
    currentNumber (counters ++ [number]) counters.length = number := by
  rw [currentNumber, List.getElem?_concat_length, Option.getD_some]

omit [DecidableEq R] [LinearOrder N] in
/-- The way back to the menu leaves no screen above it. -/
theorem App.popToRoot_screens (app : App R N) : app.popToRoot.screens = [] := by
  rw [App.popToRoot, App.viewWillAppear]
  split <;> rfl

omit [DecidableEq R] [LinearOrder N] in
/-- No confirm screen is left above the menu. -/
theorem App.confirmCount_popToRoot (app : App R N) : app.popToRoot.confirmCount = 0 := by
  rw [App.confirmCount, App.popToRoot_screens, List.count_nil]

/-- No event shows two confirm screens. -/
theorem App.confirmCount_step {menu : Menu R N} {app app' : App R N} {event : Event R}
    (hstep : (machine menu).step app event = some app') :
    app'.confirmCount ≤ app.confirmCount + 1 := by
  have hsame : app'.screens = app.screens → app'.confirmCount ≤ app.confirmCount + 1 := by
    intro hscreens
    rw [App.confirmCount, hscreens]
    exact Nat.le_succ _
  have hnone : app'.confirmCount = 0 → app'.confirmCount ≤ app.confirmCount + 1 := by
    intro hzero
    rw [hzero]
    exact Nat.zero_le _
  change (if app.available event = true then app.handle menu event else none) = some app' at hstep
  split at hstep
  · cases event with
    | plus row =>
      apply hsame
      change app.plusBtnClick menu row = some app' at hstep
      unfold App.plusBtnClick at hstep
      split at hstep
      · exact Option.some.inj hstep ▸ rfl
      · split at hstep
        · cases hstep
        · exact Option.some.inj hstep ▸ rfl
    | minus row =>
      apply hsame
      change app.minusBtnClick menu row = some app' at hstep
      unfold App.minusBtnClick at hstep
      split at hstep
      · obtain ⟨items, -, rfl⟩ := Option.map_eq_some_iff.mp hstep
        rfl
      · cases hstep
    | recreate row => exact hsame (Option.some.inj hstep ▸ rfl)
    | openCheck => exact hnone (Option.some.inj hstep ▸ rfl)
    | confirm =>
      obtain ⟨id, -, rfl⟩ := Option.map_eq_some_iff.mp hstep
      exact hsame rfl
    | back =>
      obtain rfl := Option.some.inj hstep
      rw [App.back]
      split
      · exact Nat.le_succ _
      · rw [App.confirmCount_popToRoot]
        exact Nat.zero_le _
      · rename_i hscreens
        rw [App.confirmCount, App.confirmCount, hscreens]
        exact Nat.le_succ_of_le List.count_le_count_cons
    | cancel =>
      obtain ⟨id, -, rfl⟩ := Option.map_eq_some_iff.mp hstep
      exact hnone (App.confirmCount_popToRoot _)
    | returnToMenu => exact hnone (Option.some.inj hstep ▸ App.confirmCount_popToRoot _)
    | reply position complete =>
      obtain rfl := Option.some.inj hstep
      rw [App.reply]
      split
      · exact Nat.le_succ _
      · rename_i order _
        by_cases hmem : Screen.check order.check ∈ app.screens
        · rw [App.confirmCount, if_pos hmem, List.count_cons_self]
          exact Nat.le_refl _
        · rw [App.confirmCount, if_neg hmem]
          exact Nat.le_succ _
    | relaunch => exact hnone (Option.some.inj hstep ▸ rfl)
  · cases hstep

section Count

variable {timed : TimedApp R N} {ticks : ℕ → ℕ}

omit [DecidableEq R] [LinearOrder N] in
/-- What a confirm screen sees of its own counter. -/
theorem Counting.number (h : Counting timed ticks) {screen : ConfirmViewController}
    (hscreen : screen ∈ timed.confirms) :
    currentNumber timed.counters screen.counter = 5 - ticks screen.counter :=
  h.counters screen.counter (h.made screen hscreen)

omit [LinearOrder N] in
/-- An event of the app makes a counter for a new screen, and forgets the screens that were left. -/
theorem Counting.after (h : Counting timed ticks) (event : Event R) {app : App R N}
    (hcount : app.confirmCount ≤ timed.app.confirmCount + 1)
    (hlaunch : event = .relaunch → app.confirmCount = 0) :
    Counting (timed.after event app) (countTicks ticks (.app event)) := by
  rw [TimedApp.after, countTicks]
  by_cases hevent : event = .relaunch
  · rw [if_pos hevent, if_pos hevent]
    exact ⟨(hlaunch hevent).symm, fun _ hlt => absurd hlt (Nat.not_lt_zero _), fun _ _ => rfl, nofun,
      nofun, nofun⟩
  rw [if_neg hevent, if_neg hevent]
  by_cases hnew : timed.app.confirmCount < app.confirmCount
  · rw [if_pos hnew]
    have hzero := h.fresh timed.counters.length (Nat.le_refl _)
    have hlength : (timed.counters ++ [(5 : ℤ)]).length = timed.counters.length + 1 :=
      List.length_append
    refine ⟨?_, fun counter hlt => ?_, fun counter hle => h.fresh counter ?_, fun screen hscreen => ?_,
      fun screen hscreen => ?_, fun screen hscreen => ?_⟩
    · change timed.confirms.length + 1 = app.confirmCount
      have hscreens := h.screens
      omega
    · change currentNumber (timed.counters ++ [5]) counter = _
      rcases Nat.lt_succ_iff_lt_or_eq.mp (hlength ▸ hlt) with hold | rfl
      · rw [currentNumber_append hold]
        exact h.counters counter hold
      · rw [currentNumber_new, hzero]
        rfl
    · change (timed.counters ++ [(5 : ℤ)]).length ≤ counter at hle
      omega
    all_goals rcases List.mem_cons.mp hscreen with rfl | hold
    · exact hlength ▸ Nat.lt_succ_self _
    · exact hlength ▸ Nat.lt_succ_of_lt (h.made screen hold)
    · exact hzero ▸ Nat.succ_pos 4
    · exact h.positive screen hold
    · exact Or.inr ⟨hzero, rfl⟩
    · exact h.label screen hold
  · rw [if_neg hnew]
    refine ⟨?_, h.counters, h.fresh, fun screen hscreen => h.made screen (List.mem_of_mem_drop hscreen),
      fun screen hscreen => h.positive screen (List.mem_of_mem_drop hscreen),
      fun screen hscreen => h.label screen (List.mem_of_mem_drop hscreen)⟩
    have hscreens := h.screens
    change (timed.confirms.drop _).length = app.confirmCount
    rw [List.length_drop]
    omega

omit [DecidableEq R] [LinearOrder N] in
/-- A confirm screen returns to the menu at the fifth tick of its own counter. -/
theorem Counting.pops_iff (h : Counting timed ticks) {counter : ℕ}
    (hlt : counter < timed.counters.length) :
    timed.confirms.any (·.pops (timed.counters.modify counter (· - 1))) = true ↔
      timed.Shows counter ∧ ticks counter = 4 := by
  rw [List.any_eq_true]
  have hpops : ∀ screen ∈ timed.confirms,
      (screen.pops (timed.counters.modify counter (· - 1)) = true ↔
        screen.counter = counter ∧ ticks counter = 4) := by
    intro screen hscreen
    have hpositive := h.positive screen hscreen
    rw [ConfirmViewController.pops, decide_eq_true_eq, currentNumber_modify hlt,
      h.number hscreen]
    split
    · rename_i hsame
      rw [hsame] at hpositive ⊢
      omega
    · omega
  constructor
  · rintro ⟨screen, hscreen, hpop⟩
    obtain ⟨hsame, hfour⟩ := (hpops screen hscreen).mp hpop
    exact ⟨⟨screen, hscreen, hsame⟩, hfour⟩
  · rintro ⟨⟨screen, hscreen, hsame⟩, hfour⟩
    exact ⟨screen, hscreen, (hpops screen hscreen).mpr ⟨hsame, hfour⟩⟩

omit [LinearOrder N] in
/-- A tick counts its own counter down. -/
theorem Counting.tick (h : Counting timed ticks) {counter : ℕ}
    (hlt : counter < timed.counters.length) :
    Counting (timed.tick counter) (countTicks ticks (.tick counter : TimedEvent R)) := by
  have hticks : ∀ other, countTicks ticks (.tick counter : TimedEvent R) other =
      ticks other + if other = counter then 1 else 0 := by
    intro other
    rw [countTicks]
    by_cases hsame : other = counter
    · subst hsame
      rw [Function.update_self, if_pos rfl]
    · rw [Function.update_of_ne hsame, if_neg hsame, Nat.add_zero]
  have hlength : (timed.counters.modify counter (· - 1)).length = timed.counters.length :=
    List.length_modify _ _ _
  have hcounters : ∀ other < (timed.counters.modify counter (· - 1)).length,
      currentNumber (timed.counters.modify counter (· - 1)) other =
        5 - countTicks ticks (.tick counter : TimedEvent R) other := by
    intro other hother
    rw [currentNumber_modify hlt, hticks, h.counters other (hlength ▸ hother)]
    split <;> omega
  have hfresh : ∀ other, (timed.counters.modify counter (· - 1)).length ≤ other →
      countTicks ticks (.tick counter : TimedEvent R) other = 0 := by
    intro other hle
    rw [hlength] at hle
    rw [hticks, h.fresh other hle, if_neg (by omega)]
  rw [TimedApp.tick]
  by_cases hpops : timed.confirms.any (·.pops (timed.counters.modify counter (· - 1))) = true
  · rw [if_pos hpops]
    exact ⟨(App.confirmCount_popToRoot timed.app).symm, hcounters, hfresh, nofun, nofun, nofun⟩
  · rw [if_neg hpops]
    have hnot := fun hboth => hpops ((h.pops_iff hlt).mpr hboth)
    refine ⟨(List.length_map _).trans h.screens, hcounters, hfresh, ?_, ?_, ?_⟩
    all_goals
      intro screen hscreen
      obtain ⟨before, hbefore, rfl⟩ := List.mem_map.mp hscreen
    · exact hlength ▸ h.made before hbefore
    · have hpositive := h.positive before hbefore
      change countTicks ticks (.tick counter : TimedEvent R) before.counter < 5
      rw [hticks]
      split
      · rename_i hsame
        have hfour : ticks counter ≠ 4 := fun hfour => hnot ⟨⟨before, hbefore, hsame⟩, hfour⟩
        rw [hsame] at hpositive ⊢
        omega
      · exact hpositive
    · left
      change some (currentNumber _ before.counter) = some (5 - (countTicks ticks
        (.tick counter : TimedEvent R) before.counter : ℤ))
      rw [hcounters before.counter (hlength ▸ h.made before hbefore)]

end Count

section Run

variable {menu : Menu R N} {timed timed' : TimedApp R N} {ticks : ℕ → ℕ}

/-- Every event keeps count. -/
theorem Counting.step (h : Counting timed ticks) {event : TimedEvent R}
    (hstep : (timedMachine menu).step timed event = some timed') :
    Counting timed' (countTicks ticks event) := by
  cases event with
  | app event =>
    obtain ⟨app, happ, rfl⟩ := Option.map_eq_some_iff.mp hstep
    refine h.after event (App.confirmCount_step happ) ?_
    rintro rfl
    exact Option.some.inj happ ▸ rfl
  | tick counter =>
    change (if counter < timed.counters.length then some (timed.tick counter) else none) =
      some timed' at hstep
    split at hstep
    · rename_i hlt
      exact Option.some.inj hstep ▸ h.tick hlt
    · cases hstep

omit [DecidableEq R] [LinearOrder N] in
/-- The app before its first event has made no counter. -/
theorem Counting.installed : Counting (.installed : TimedApp R N) fun _ => 0 :=
  ⟨rfl, fun _ hlt => absurd hlt (Nat.not_lt_zero _), fun _ _ => rfl, nofun, nofun, nofun⟩

/-- Every run keeps count. -/
theorem Counting.run (h : Counting timed ticks) (events : List (TimedEvent R))
    (hrun : (timedMachine menu).run timed events = some timed') :
    Counting timed' (events.foldl countTicks ticks) := by
  induction events generalizing timed ticks with
  | nil =>
    obtain rfl := Option.some.inj hrun
    exact h
  | cons event rest ih =>
    obtain ⟨next, hnext, hrest⟩ := Option.bind_eq_some_iff.mp hrun
    exact ih (h.step hnext) hrest

/-- The events of the app in a run, but for the returns to the menu. -/
def withoutReturns (events : List (Event R)) : List (Event R) := events.filter (· ≠ .returnToMenu)

/-- A tick is a return to the menu for the app, or nothing at all. -/
theorem Counting.replays (h : Counting timed ticks) {event : TimedEvent R}
    (hstep : (timedMachine menu).step timed event = some timed') :
    ∃ replayed, (machine menu).run timed.app replayed = some timed'.app ∧
      withoutReturns replayed = withoutReturns event.appEvent.toList := by
  cases event with
  | app event =>
    obtain ⟨app, happ, rfl⟩ := Option.map_eq_some_iff.mp hstep
    have hafter : (timed.after event app).app = app := by
      rw [TimedApp.after]
      split
      · rfl
      · split <;> rfl
    refine ⟨[event], ?_, rfl⟩
    rw [hafter]
    exact Option.bind_eq_some_iff.mpr ⟨app, happ, rfl⟩
  | tick counter =>
    change (if counter < timed.counters.length then some (timed.tick counter) else none) =
      some timed' at hstep
    split at hstep
    · rename_i hlt
      obtain rfl := Option.some.inj hstep
      rw [TimedApp.tick]
      by_cases hpops : timed.confirms.any (·.pops (timed.counters.modify counter (· - 1))) = true
      · -- a screen that returns is above the menu, so that its app has a button to return
        obtain ⟨⟨screen, hscreen, -⟩, -⟩ := (h.pops_iff hlt).mp hpops
        have hmem : Screen.successful ∈ timed.app.screens := by
          rw [← List.count_pos_iff]
          exact (List.length_pos_of_mem hscreen).trans_eq h.screens
        refine ⟨[.returnToMenu], ?_, rfl⟩
        rw [if_pos hpops]
        refine Option.bind_eq_some_iff.mpr ⟨timed.app.popToRoot, ?_, rfl⟩
        exact if_pos (decide_eq_true hmem)
      · refine ⟨[], ?_, rfl⟩
        rw [if_neg hpops]
        rfl
    · cases hstep

/-- For the app, a run with timers is a run with some more returns to the menu, and some fewer. -/
theorem Counting.run_replays (h : Counting timed ticks) (events : List (TimedEvent R))
    (hrun : (timedMachine menu).run timed events = some timed') :
    ∃ replayed, (machine menu).run timed.app replayed = some timed'.app ∧
      withoutReturns replayed = withoutReturns (events.filterMap TimedEvent.appEvent) := by
  induction events generalizing timed ticks with
  | nil =>
    obtain rfl := Option.some.inj hrun
    exact ⟨[], rfl, rfl⟩
  | cons event rest ih =>
    obtain ⟨next, hnext, hrest⟩ := Option.bind_eq_some_iff.mp hrun
    obtain ⟨front, hfront, hsame⟩ := h.replays hnext
    obtain ⟨back, hback, hlater⟩ := ih (h.step hnext) hrest
    refine ⟨front ++ back, ?_, ?_⟩
    · rw [Machine.run_append, hfront]
      exact hback
    · rw [withoutReturns, List.filter_append]
      change withoutReturns front ++ withoutReturns back = _
      rw [hsame, hlater, withoutReturns, withoutReturns, ← List.filter_append]
      cases event <;> rfl

/-- Whatever happens, each confirm screen above the menu shows what is left of five after the ticks
of its own counter, once it has ticked, and the app returns to the menu at the fifth of them and at
no other tick. For the app it is as if somebody had tapped on the way back then, so that what holds
of all its runs holds with timers too. -/
theorem run_countdown (menu : Menu R N) (events : List (TimedEvent R)) (timed : TimedApp R N)
    (hrun : (timedMachine menu).run .installed events = some timed) :
    let ticks := events.foldl countTicks fun _ => 0
    timed.confirms.length = timed.app.confirmCount ∧
    (∀ screen ∈ timed.confirms, ticks screen.counter < 5 ∧
      (screen.timerLabel = some (5 - (ticks screen.counter : ℤ)) ∨
        ticks screen.counter = 0 ∧ screen.timerLabel = none)) ∧
    (∀ counter timed', (timedMachine menu).step timed (.tick counter) = some timed' →
      (timed.Shows counter ∧ ticks counter = 4 →
        timed'.app = timed.app.popToRoot ∧ timed'.confirms = []) ∧
      (¬(timed.Shows counter ∧ ticks counter = 4) →
        timed'.app = timed.app ∧
          timed'.confirms.map (·.counter) = timed.confirms.map (·.counter))) ∧
    ∃ replayed, (machine menu).run .installed replayed = some timed.app ∧
      withoutReturns replayed = withoutReturns (events.filterMap TimedEvent.appEvent) := by
  intro ticks
  have h : Counting timed ticks := Counting.installed.run events hrun
  refine ⟨h.screens, fun screen hscreen => ⟨h.positive screen hscreen, h.label screen hscreen⟩, ?_,
    Counting.installed.run_replays events hrun⟩
  intro counter timed' hstep
  change (if counter < timed.counters.length then some (timed.tick counter) else none) =
    some timed' at hstep
  split at hstep
  · rename_i hlt
    obtain rfl := Option.some.inj hstep
    rw [← h.pops_iff hlt, TimedApp.tick]
    refine ⟨fun hpops => ?_, fun hpops => ?_⟩
    · rw [if_pos hpops]
      exact ⟨rfl, rfl⟩
    · rw [if_neg hpops]
      exact ⟨rfl, List.map_map.trans rfl⟩
  · cases hstep

/-- A sandwich is ordered, its screen is left after a tick, and another one is ordered. -/
def orderTwice : List (TimedEvent (Fin 25)) :=
  [.app (.plus 0), .app .openCheck, .app .confirm, .app (.reply 0 true), .tick 0,
    .app .returnToMenu, .app (.plus 0), .app .openCheck, .app .confirm, .app (.reply 0 true),
    .tick 0, .tick 1]

/-- The second screen shows the four that are left of its own counter. -/
theorem run_countdown_orderTwice :
    ∃ timed, (timedMachine products).run .installed orderTwice = some timed ∧
      timed.confirms = [⟨1, some 4⟩] ∧ timed.app.confirmCount = 1 ∧
      ∃ replayed, (machine products).run .installed replayed = some timed.app ∧
        withoutReturns replayed = withoutReturns (orderTwice.filterMap TimedEvent.appEvent) := by
  have hconfirms : ((timedMachine products).run .installed orderTwice).map TimedApp.confirms =
      some [⟨1, some 4⟩] := by decide +kernel
  obtain ⟨timed, hrun, hshown⟩ := Option.map_eq_some_iff.mp hconfirms
  obtain ⟨hlength, -, -, hreplayed⟩ := run_countdown products orderTwice timed hrun
  exact ⟨timed, hrun, hshown, hlength.symm.trans (congrArg List.length hshown), hreplayed⟩

end Run

section Leaks

/-- The counters of the confirm screens above the menu, with their numbers. The labels show them
from the first tick of any counter on. -/
def TimedApp.numbers (timed : TimedApp R N) : List (ℕ × ℤ) :=
  timed.confirms.map fun screen => (screen.counter, currentNumber timed.counters screen.counter)

/-- A tick of a counter, for one of them. -/
def countDown (counter : ℕ) (number : ℕ × ℤ) : ℕ × ℤ :=
  (number.1, number.2 - if number.1 = counter then 1 else 0)

/-- A confirm screen whose label shows the number of its counter. -/
def labelled (number : ℕ × ℤ) : ConfirmViewController := ⟨number.1, some number.2⟩

/-- Another screen with the same counter shows the same, or nothing yet where this one shows 5. -/
def ConfirmViewController.ShowsFirst (screen other : ConfirmViewController) : Prop :=
  other.counter = screen.counter ∧
    (other.timerLabel = screen.timerLabel ∨ other.timerLabel = none ∧ screen.timerLabel = some 5)

/-- A tick of a counter whose screen was left. -/
def TimedApp.Leaks (timed : TimedApp R N) (event : TimedEvent R) : Prop :=
  ∃ counter, event = .tick counter ∧ ¬timed.Shows counter

variable {menu : Menu R N} {timed other timed' : TimedApp R N} {ticks : ℕ → ℕ}

omit [DecidableEq R] [LinearOrder N] in
/-- The counters with numbers are those of the screens above the menu. -/
theorem TimedApp.shows_iff (timed : TimedApp R N) (counter : ℕ) :
    timed.Shows counter ↔ counter ∈ timed.numbers.map Prod.fst := by
  rw [TimedApp.numbers, List.map_map, List.mem_map]
  rfl

omit [DecidableEq R] [LinearOrder N] in
/-- What a tick does is seen from the numbers, which all labels show after it. -/
theorem TimedApp.tick_numbers (timed : TimedApp R N) {counter : ℕ}
    (hlt : counter < timed.counters.length) :
    (timed.tick counter).app =
        (if (timed.numbers.map (countDown counter)).any (fun number => decide (number.2 ≤ 0)) then
          timed.app.popToRoot
        else timed.app) ∧
      (timed.tick counter).numbers =
        (if (timed.numbers.map (countDown counter)).any (fun number => decide (number.2 ≤ 0)) then []
        else timed.numbers.map (countDown counter)) ∧
      (timed.tick counter).confirms = (timed.tick counter).numbers.map labelled := by
  have hnumbers : (timed.confirms.map fun screen : ConfirmViewController =>
      (screen.counter, currentNumber (timed.counters.modify counter (· - 1)) screen.counter)) =
        timed.numbers.map (countDown counter) := by
    rw [TimedApp.numbers, List.map_map]
    apply List.map_congr_left
    intro screen _
    rw [currentNumber_modify hlt]
    rfl
  have hpops : timed.confirms.any (·.pops (timed.counters.modify counter (· - 1))) =
      (timed.numbers.map (countDown counter)).any (fun number => decide (number.2 ≤ 0)) := by
    rw [← hnumbers, List.any_map]
    rfl
  rw [TimedApp.tick, hpops]
  split
  · exact ⟨rfl, rfl, rfl⟩
  · refine ⟨rfl, ?_, ?_⟩
    · rw [← hnumbers, TimedApp.numbers, List.map_map]
      rfl
    · rw [TimedApp.numbers, List.map_map, List.map_map]
      rfl

/-- Two states of the app with timers that only differ in the numbers of counters whose screens were
left, and in labels that show a 5 in one of them and nothing yet in the other. -/
structure Alike (timed other : TimedApp R N) : Prop where
  app : timed.app = other.app
  counters : timed.counters.length = other.counters.length
  numbers : timed.numbers = other.numbers
  labels : List.Forall₂ ConfirmViewController.ShowsFirst timed.confirms other.confirms

/-- A screen shows what it shows. -/
theorem ConfirmViewController.ShowsFirst.refl (screen : ConfirmViewController) :
    screen.ShowsFirst screen := ⟨rfl, Or.inl rfl⟩

omit [DecidableEq R] [LinearOrder N] in
/-- Both show the same counters. -/
theorem Alike.shows_iff (h : Alike timed other) (counter : ℕ) :
    timed.Shows counter ↔ other.Shows counter := by
  rw [TimedApp.shows_iff, TimedApp.shows_iff, h.numbers]

omit [LinearOrder N] in
/-- An event of the app does the same to both. -/
theorem Alike.after (h : Alike timed other) (hcounting : Counting timed ticks) (event : Event R)
    (app : App R N) : Alike (timed.after event app) (other.after event app) := by
  have hother : ∀ screen ∈ other.confirms, screen.counter < other.counters.length := by
    intro screen hscreen
    obtain ⟨same, hsame, heq⟩ := (h.shows_iff screen.counter).mpr ⟨screen, hscreen, rfl⟩
    rw [← heq, ← h.counters]
    exact hcounting.made same hsame
  have hconfirms : timed.confirms.length = other.confirms.length := by
    exact h.labels.length_eq
  have hnew : ∀ timed : TimedApp R N,
      (∀ screen ∈ timed.confirms, screen.counter < timed.counters.length) →
        TimedApp.numbers ⟨app, timed.counters ++ [5],
          ⟨timed.counters.length, none⟩ :: timed.confirms⟩ =
            (timed.counters.length, 5) :: timed.numbers := by
    intro timed hmade
    change (timed.counters.length, currentNumber (timed.counters ++ [5]) timed.counters.length) ::
      timed.confirms.map _ = _
    rw [currentNumber_new, TimedApp.numbers]
    congr 1
    apply List.map_congr_left
    intro screen hscreen
    rw [currentNumber_append (hmade screen hscreen)]
  rw [TimedApp.after, TimedApp.after, h.app]
  split
  · exact ⟨rfl, rfl, rfl, List.Forall₂.nil⟩
  · split
    · refine ⟨rfl, ?_, ?_, ?_⟩
      · rw [List.length_append, List.length_append, h.counters]
      · rw [hnew timed hcounting.made, hnew other hother, h.counters, h.numbers]
      · rw [h.counters]
        exact h.labels.cons (.refl _)
    · refine ⟨rfl, h.counters, ?_, hconfirms ▸ List.forall₂_drop _ h.labels⟩
      have hshown := congrArg (List.drop (timed.confirms.length - app.confirmCount)) h.numbers
      rw [TimedApp.numbers, TimedApp.numbers, ← List.map_drop, ← List.map_drop] at hshown
      rw [← hconfirms]
      exact hshown

omit [DecidableEq R] [LinearOrder N] in
/-- A tick makes no counter and stops none. -/
theorem TimedApp.length_counters_tick (timed : TimedApp R N) (counter : ℕ) :
    (timed.tick counter).counters.length = timed.counters.length := by
  rw [TimedApp.tick]
  split <;> exact List.length_modify _ _ _

omit [DecidableEq R] [LinearOrder N] in
/-- A tick does the same to both. -/
theorem Alike.tick (h : Alike timed other) {counter : ℕ} (hlt : counter < timed.counters.length) :
    Alike (timed.tick counter) (other.tick counter) := by
  obtain ⟨happ, hnumbers, hlabels⟩ := timed.tick_numbers hlt
  obtain ⟨happ', hnumbers', hlabels'⟩ := other.tick_numbers (h.counters ▸ hlt)
  have hsame : (timed.tick counter).numbers = (other.tick counter).numbers := by
    rw [hnumbers, hnumbers', h.numbers]
  refine ⟨?_, ?_, hsame, ?_⟩
  · rw [happ, happ', h.numbers, h.app]
  · rw [TimedApp.length_counters_tick, TimedApp.length_counters_tick, h.counters]
  · rw [hlabels, hlabels', hsame]
    exact List.forall₂_same.mpr fun screen _ => .refl screen

omit [DecidableEq R] [LinearOrder N] in
/-- A tick of a counter whose screen was left changes nothing but its number, and labels without one,
which then show a 5. -/
theorem Alike.leak (h : Alike timed other) (hcounting : Counting timed ticks) {counter : ℕ}
    (hlt : counter < timed.counters.length) (hleft : ¬timed.Shows counter) :
    Alike (timed.tick counter) other := by
  have hsame : timed.numbers.map (countDown counter) = timed.numbers := by
    apply List.map_congr_left (g := id) _ |>.trans (List.map_id _)
    intro number hmem
    have hother : number.1 ≠ counter := by
      rintro rfl
      exact hleft ((timed.shows_iff number.1).mpr (List.mem_map_of_mem hmem))
    rw [countDown, if_neg hother, sub_zero]
    rfl
  have hstays : timed.numbers.any (fun number => decide (number.2 ≤ 0)) = false := by
    rw [List.any_eq_false]
    intro number hmem
    obtain ⟨screen, hscreen, rfl⟩ := List.mem_map.mp hmem
    have hpositive := hcounting.positive screen hscreen
    rw [decide_eq_true_eq, hcounting.number hscreen]
    omega
  obtain ⟨happ, hnumbers, hlabels⟩ := timed.tick_numbers hlt
  rw [hsame, hstays] at happ hnumbers
  have hfilled : ∀ screen ∈ timed.confirms, ∀ other, screen.ShowsFirst other →
      (labelled (screen.counter, currentNumber timed.counters screen.counter)).ShowsFirst other := by
    rintro screen hscreen other ⟨hcounter, hlabel⟩
    refine ⟨hcounter, ?_⟩
    rw [labelled, hcounting.number hscreen]
    rcases hcounting.label screen hscreen with hnumber | ⟨hzero, hnone⟩
    · rwa [hnumber] at hlabel
    · rw [hnone] at hlabel
      rw [hzero]
      exact Or.inr ⟨hlabel.elim id And.left, rfl⟩
  refine ⟨happ.trans h.app, ?_, hnumbers.trans h.numbers, ?_⟩
  · rw [TimedApp.length_counters_tick, h.counters]
  · have hboth := List.forall₂_and_left timed.confirms other.confirms |>.mpr ⟨hfilled, h.labels⟩
    rw [hlabels, hnumbers, if_neg Bool.false_ne_true, TimedApp.numbers, List.map_map,
      List.forall₂_map_left_iff]
    exact hboth.imp fun screen other h => h.1 other h.2

/-- An event that is not a tick of a counter whose screen was left happens to both. -/
theorem Alike.step (h : Alike timed other) (hcounting : Counting timed ticks)
    {event : TimedEvent R} (hstep : (timedMachine menu).step timed event = some timed') :
    ∃ other', (timedMachine menu).step other event = some other' ∧ Alike timed' other' := by
  cases event with
  | app event =>
    obtain ⟨app, happ, rfl⟩ := Option.map_eq_some_iff.mp hstep
    refine ⟨other.after event app, ?_, h.after hcounting event app⟩
    rw [h.app] at happ
    exact Option.map_eq_some_iff.mpr ⟨app, happ, rfl⟩
  | tick counter =>
    change (if counter < timed.counters.length then some (timed.tick counter) else none) =
      some timed' at hstep
    split at hstep
    · rename_i hlt
      obtain rfl := Option.some.inj hstep
      exact ⟨other.tick counter, if_pos (h.counters ▸ hlt), h.tick hlt⟩
    · cases hstep

/-- Without the ticks of counters whose screens were left, every run shows the same. -/
theorem Alike.run (h : Alike timed other) (hcounting : Counting timed ticks)
    (events : List (TimedEvent R)) (hrun : (timedMachine menu).run timed events = some timed') :
    ∃ kept other', kept.Sublist events ∧
      kept.filterMap TimedEvent.appEvent = events.filterMap TimedEvent.appEvent ∧
      (timedMachine menu).EachStep (fun timed event => ¬timed.Leaks event) other kept ∧
      (timedMachine menu).run other kept = some other' ∧ Alike timed' other' := by
  induction events generalizing timed other ticks with
  | nil =>
    obtain rfl := Option.some.inj hrun
    exact ⟨[], other, List.Sublist.refl _, rfl, trivial, rfl, h⟩
  | cons event rest ih =>
    obtain ⟨next, hnext, hrest⟩ := Option.bind_eq_some_iff.mp hrun
    by_cases hleaks : timed.Leaks event
    · obtain ⟨counter, rfl, hleft⟩ := hleaks
      have hlt : counter < timed.counters.length := by
        by_contra hge
        change (if counter < timed.counters.length then _ else none) = _ at hnext
        rw [if_neg hge] at hnext
        cases hnext
      obtain rfl : timed.tick counter = next := Option.some.inj ((if_pos hlt).symm.trans hnext)
      obtain ⟨kept, other', hsub, happs, heach, hkept, halike⟩ :=
        ih (h.leak hcounting hlt hleft) (hcounting.step hnext) hrest
      exact ⟨kept, other', hsub.cons _, happs, heach, hkept, halike⟩
    · obtain ⟨next', hnext', hsame⟩ := h.step hcounting hnext
      obtain ⟨kept, other', hsub, happs, heach, hkept, halike⟩ :=
        ih hsame (hcounting.step hnext) hrest
      refine ⟨event :: kept, other', hsub.cons_cons _, ?_, ?_, ?_, halike⟩
      · rw [List.filterMap_cons, List.filterMap_cons, happs]
      · intro next'' hnext''
        rw [hnext'] at hnext''
        obtain rfl := Option.some.inj hnext''
        refine ⟨?_, heach⟩
        rintro ⟨counter, rfl, hleft⟩
        exact hleaks ⟨counter, rfl, fun hshows => hleft ((h.shows_iff counter).mp hshows)⟩
      · exact Option.bind_eq_some_iff.mpr ⟨next', hnext', hkept⟩

/-- The timers that go on when their screens have been left do nothing but fill labels early: with
the same events of the app and without any tick of theirs, the app, the confirm screens and the
numbers of their counters come to be the same. The labels do as well, but for those that such a tick
has filled with the 5 that a counter starts from. -/
theorem run_leaks (menu : Menu R N) (events : List (TimedEvent R)) (timed : TimedApp R N)
    (hrun : (timedMachine menu).run .installed events = some timed) :
    ∃ kept other, kept.Sublist events ∧
      kept.filterMap TimedEvent.appEvent = events.filterMap TimedEvent.appEvent ∧
      (timedMachine menu).EachStep (fun timed event => ¬timed.Leaks event) .installed kept ∧
      (timedMachine menu).run .installed kept = some other ∧
      other.app = timed.app ∧ other.numbers = timed.numbers ∧
      List.Forall₂ ConfirmViewController.ShowsFirst timed.confirms other.confirms := by
  have hsame : Alike (.installed : TimedApp R N) .installed := ⟨rfl, rfl, rfl, .nil⟩
  obtain ⟨kept, other, hsub, happs, heach, hkept, h⟩ := hsame.run Counting.installed events hrun
  exact ⟨kept, other, hsub, happs, heach, hkept, h.app.symm, h.numbers.symm, h.labels⟩

/-- Without the second tick of the first counter the second screen shows the same. -/
theorem run_leaks_orderTwice :
    ∃ timed kept other, (timedMachine products).run .installed orderTwice = some timed ∧
      kept.Sublist orderTwice ∧
      kept.filterMap TimedEvent.appEvent = orderTwice.filterMap TimedEvent.appEvent ∧
      (timedMachine products).EachStep (fun timed event => ¬timed.Leaks event) .installed kept ∧
      (timedMachine products).run .installed kept = some other ∧
      other.app = timed.app ∧ other.numbers = timed.numbers ∧ other.confirms = [⟨1, some 4⟩] := by
  have hends : ((timedMachine products).run .installed orderTwice).map TimedApp.confirms =
      some [⟨1, some 4⟩] := by decide +kernel
  obtain ⟨timed, hrun, hshown⟩ := Option.map_eq_some_iff.mp hends
  obtain ⟨kept, other, hsub, happs, heach, hkept, happ, hnumbers, hlabels⟩ :=
    run_leaks products orderTwice timed hrun
  refine ⟨timed, kept, other, hrun, hsub, happs, heach, hkept, happ, hnumbers, ?_⟩
  rw [hshown] at hlabels
  obtain ⟨screen, rest, hscreen, hrest, hconfirms⟩ := List.forall₂_cons_left_iff.mp hlabels
  obtain rfl := List.forall₂_nil_left_iff.mp hrest
  obtain ⟨counter, timerLabel⟩ := screen
  obtain ⟨rfl, rfl | ⟨-, hfive⟩⟩ := hscreen
  · exact hconfirms
  · cases hfive

/-- The second tick of the first counter fills the label of the second screen, whose own counter has
not ticked yet. -/
example : ((timedMachine products).run .installed (orderTwice.take 10)).map TimedApp.confirms =
      some [⟨1, none⟩] ∧
    ((timedMachine products).run .installed (orderTwice.take 11)).map TimedApp.confirms =
      some [⟨1, some 5⟩] := by decide +kernel

end Leaks

end Coursework.FoodHaus
