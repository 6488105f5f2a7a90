import Coursework.GalacticMail.Credit
import Coursework.GalacticMail.Levels

/-!
# The moons of a game

The moon that a ship is launched from is lost, and three more come with each level: a level
has room for three landings. Enter docks a ship in flight without a landing, and a landing is
lost then. There is always a moon left to land on.
-/

namespace Coursework.GalacticMail

open TankGame (Trigonometry)
open Transition

/-- The ship is in flight, and enter has not been held down since the launch. -/
def InFlight (panel : AnimationPanel) : Prop :=
  panel.moonLanded = false ∧ panel.initPosition = false

instance : DecidablePred InFlight := fun _ => inferInstanceAs (Decidable (_ ∧ _))

/-- The landings that the levels up to this one have room for, less those that there have been or
can still be with the moons that are left. -/
def AnimationPanel.lost (panel : AnimationPanel) : ℤ :=
  3 * panel.level + 1 -
    (panel.moonAnimations.length + panel.landings + if InFlight panel then 1 else 0)

/-- What the stages of a paint keep from the dock on: so many landings are lost, and a ship at the
dock has landed. -/
structure Losing (lost : ℤ) (panel : AnimationPanel) : Prop where
  initPosition : panel.initPosition = false
  lost : panel.lost = lost
  landed : panel.moonLanded = true → panel.ship.landed = true

/-- A launch takes the ship from its moon, and loses no landing. -/
theorem Losing.dock {panel docked : AnimationPanel} (hinit : panel.initPosition = false)
    (hdock : panel.dock = some docked) : Losing panel.lost docked := by
  rw [AnimationPanel.dock] at hdock
  split at hdock
  · rename_i hmoonLanded
    obtain ⟨moon, hmoon, rfl⟩ := Option.map_eq_some_iff.mp hdock
    have hlt : panel.moonCounter < panel.moonAnimations.length :=
      (List.getElem?_eq_some_iff.mp hmoon).1
    obtain ⟨curScore, earnPoints, start, docked, hdockAt⟩ := panel.dockAt_eq moon
    rw [hdockAt]
    split
    · rename_i hlanded
      exact ⟨hinit, rfl, fun _ => hlanded⟩
    · refine ⟨hinit, ?_, fun hlanded => absurd hlanded Bool.false_ne_true⟩
      have hlength := List.length_eraseIdx_of_lt hlt
      simp only [AnimationPanel.lost, InFlight, hmoonLanded, hinit, hlength, and_self, if_true,
        Bool.true_eq_false, false_and, if_false]
      omega
  · rename_i hflight
    obtain rfl := Option.some.inj hdock
    exact ⟨hinit, rfl, fun hlanded => absurd hlanded hflight⟩

/-- A landing makes up for the flight. -/
theorem Losing.land {lost : ℤ} {panel : AnimationPanel} (h : Losing lost panel)
    (hflight : panel.moonLanded = false) (counter : ℕ) :
    Losing lost (panel.countLanding.land counter) := by
  refine ⟨h.initPosition, ?_, fun _ => rfl⟩
  have hlost := h.lost
  simp only [AnimationPanel.lost, InFlight, hflight, h.initPosition, and_self, if_true] at hlost
  simp only [AnimationPanel.lost, InFlight, AnimationPanel.land, AnimationPanel.countLanding,
    Bool.true_eq_false, false_and, if_false]
  omega

section Moves

variable (trig : Trigonometry)

/-- The loops over moons and asteroids lose no landing. -/
theorem Losing.painted {lost : ℤ} {panel : AnimationPanel} (h : Losing lost panel) (draw : Draw) :
    Losing lost (panel.painted trig draw) := by
  have hmoved : ∀ panel : AnimationPanel, Losing lost panel → Losing lost (panel.moveMoons trig) := by
    intro panel h
    refine ⟨h.initPosition, ?_, h.landed⟩
    have hlength : (panel.moveMoons trig).moonAnimations.length = panel.moonAnimations.length :=
      List.length_map _
    rw [← h.lost, AnimationPanel.lost, AnimationPanel.lost, hlength]
    rfl
  have hmoons : Losing lost (panel.paintMoons trig draw) := by
    rcases panel.paintMoons_eq trig draw with hsame | ⟨hflight, counter, -, hland⟩
    · exact hsame ▸ hmoved panel h
    · exact hland ▸ hmoved _ (h.land hflight counter)
  obtain ⟨destroy, hpaint, -⟩ := (panel.paintMoons trig draw).paintAsteroids_eq trig draw
  rw [AnimationPanel.painted, hpaint]
  exact ⟨hmoons.initPosition, hmoons.lost, hmoons.landed⟩

/-- The next level has three moons more, and room for three landings more. -/
theorem Losing.risen {lost : ℤ} {panel : AnimationPanel} (h : Losing lost panel)
    (hone : panel.moonAnimations.length = 1) (draw : Draw) :
    (panel.risen draw).lost = lost ∧ (panel.risen draw).moonAnimations.length = 4 := by
  have hfour : (panel.risen draw).moonAnimations.length = 4 := by
    rw [AnimationPanel.risen, List.length_append, List.length_map, List.length_map, hone,
      List.length_range]
  refine ⟨?_, hfour⟩
  have hlost := h.lost
  rw [AnimationPanel.lost, hone] at hlost
  rw [AnimationPanel.lost, hfour]
  change 3 * (panel.level + 1) + 1 - (_ + panel.landings + if InFlight panel then 1 else 0) = _
  omega

/-- What a paint can do: it breaks off at the dock, or it ends a game, or the game goes on, in the
next level from the last moon on. -/
theorem Round.paint_cases {panel : AnimationPanel} (h : Round panel) (draw : Draw) :
    ((panel.fill draw).init.dock = none ∧ panel.step trig (.paint draw) = (panel.fill draw).init) ∨
    ∃ docked, (panel.fill draw).init.dock = some docked ∧
      (Cleared (docked.painted trig draw).crash.reset ∧
          (docked.painted trig draw).crash.reset.landings = 0 ∧
          panel.step trig (.paint draw) = (docked.painted trig draw).crash.reset.fly trig ∨
        Stocked (docked.painted trig draw) ∧ panel.step trig (.paint draw) =
          (if (docked.painted trig draw).moonAnimations.length = 1 ∧
              (docked.painted trig draw).ship.landed = true then
            (docked.painted trig draw).risen draw
          else docked.painted trig draw).fly trig) := by
  rw [AnimationPanel.step, AnimationPanel.paintComponent]
  cases hresult : (panel.fill draw).init.dock with
  | none => exact Or.inl ⟨rfl, rfl⟩
  | some docked =>
    refine Or.inr ⟨docked, rfl, ?_⟩
    have hdocked := AnimationPanel.dock_keeps hresult (h.ready draw) fun moon _ =>
      (h.ready draw).dockAt moon
    have hpainted : Stocked (docked.painted trig draw) :=
      (hdocked.paintMoons trig draw).paintAsteroids trig draw
    change _ ∧ _ ∧
      AnimationPanel.left (((docked.painted trig draw).crash.reset.levelUp draw).map _) = _ ∨ _ ∧
      AnimationPanel.left (((docked.painted trig draw).crash.reset.levelUp draw).map _) = _
    rcases hpainted.reset with ⟨hcleared, hdied⟩ | ⟨hsame, -⟩
    · left
      rw [hcleared.levelUp draw]
      refine ⟨hcleared, ?_, rfl⟩
      by_cases hcrashed : (docked.painted trig draw).crash.died = true
      · rw [AnimationPanel.reset, if_pos hcrashed]
      · rw [AnimationPanel.reset, if_neg hcrashed] at hdied
        exact absurd hdied hcrashed
    · right
      rw [hsame, hpainted.levelUp_eq draw]
      exact ⟨hpainted, rfl⟩

end Moves

/-- The landings that a panel has lost; a new game has lost none. -/
def AnimationPanel.lostBefore (panel : AnimationPanel) : ℤ :=
  if panel.moonNum = 4 then panel.lost else 0

/-- There is a moon to land on, and at the dock one more. -/
structure Supplied (panel : AnimationPanel) : Prop where
  moons : 1 ≤ panel.moonAnimations.length
  docked : panel.moonLanded = true → panel.moonCounter < panel.moonAnimations.length →
    2 ≤ panel.moonAnimations.length

/-- A panel between two events: no landings are counted before a new game, and a game has its
moons. -/
structure Going (panel : AnimationPanel) : Prop where
  round : Round panel
  landings : panel.moonNum = 0 → panel.landings = 0
  supplied : panel.moonNum = 4 → Supplied panel

/-- What a paint finds at the dock: the landings lost so far, and a moon more than a launch takes
away. -/
theorem Going.ready {panel : AnimationPanel} (h : Going panel) (draw : Draw) :
    let ready := (panel.fill draw).init
    ready.initPosition = false ∧ ready.lost = panel.lostBefore ∧
      1 ≤ ready.moonAnimations.length ∧
      (ready.moonLanded = true → ready.moonCounter < ready.moonAnimations.length →
        1 ≤ ready.remaining) := by
  rw [AnimationPanel.lostBefore]
  rcases h.round with hcleared | ⟨hstocked, -⟩
  · rw [hcleared.fill_eq draw, hcleared.moonNum, if_neg (Nat.succ_ne_zero 3).symm]
    refine ⟨rfl, ?_, ?_, ?_⟩
    · simp [AnimationPanel.lost, InFlight, hcleared.level, h.landings hcleared.moonNum]
    · rw [List.length_map, List.length_range]
      exact Nat.succ_pos 3
    · intro _ _
      rw [AnimationPanel.remaining, if_neg fun hlaunch => absurd hlaunch.2.symm Bool.false_ne_true,
        List.length_map, List.length_range]
      exact Nat.succ_pos 3
  · obtain ⟨hmoons, hdocked⟩ := h.supplied hstocked.moonNum
    rw [hstocked.fill_eq draw, hstocked.moonNum, if_pos rfl, AnimationPanel.init]
    split
    · rename_i hinit
      refine ⟨rfl, ?_, hmoons, fun _ _ => ?_⟩
      · simp [AnimationPanel.lost, InFlight, hinit]
      · rw [AnimationPanel.remaining,
          if_neg fun hlaunch => absurd hlaunch.2.symm Bool.false_ne_true]
        exact hmoons
    · rename_i hinit
      refine ⟨Bool.eq_false_iff.mpr hinit, rfl, hmoons, fun hlanded hlt => ?_⟩
      rw [AnimationPanel.remaining]
      split
      · exact Nat.le_sub_one_of_lt (hdocked hlanded hlt)
      · exact hmoons

/-- A paint leaves a moon to land on, and loses no landing. -/
theorem Going.paint {panel : AnimationPanel} (trig : Trigonometry) (h : Going panel)
    (draw : Draw) :
    Going (panel.step trig (.paint draw)) ∧
      ((panel.step trig (.paint draw)).moonNum = 4 →
        (panel.step trig (.paint draw)).lost = panel.lostBefore) := by
  have hround := h.round.paint trig draw
  obtain ⟨hinit, hlost, hmoons, hremaining⟩ := h.ready draw
  have hreadyNum := (h.round.ready draw).moonNum
  rcases h.round.paint_cases trig draw with ⟨hnone, hstep⟩ | ⟨docked, hdock, hstep⟩
  · rw [hstep] at hround ⊢
    refine ⟨⟨hround, fun hzero => ?_, fun _ => ⟨hmoons, fun hlanded hlt => ?_⟩⟩, fun _ => hlost⟩
    · exact absurd (hreadyNum.symm.trans hzero) (Nat.succ_ne_zero 3)
    · obtain ⟨docked, hdock⟩ := (panel.fill draw).init.exists_dock fun _ => hlt
      rw [hnone] at hdock
      cases hdock
  · have hdocking := (panel.fill draw).init.docking docked hdock
    have hlosing := (Losing.dock hinit hdock).painted trig draw
    obtain ⟨-, -, hlength, -⟩ := docked.painted_eq trig draw
    have hleft : 1 ≤ (docked.painted trig draw).moonAnimations.length := by
      rw [hlength, hdocking.moons]
      by_cases hlanded : (panel.fill draw).init.moonLanded = true
      · exact hremaining hlanded (hdocking.moon hlanded)
      · rw [AnimationPanel.remaining, if_neg fun hlaunch => hlanded hlaunch.1]
        exact hmoons
    rcases hstep with ⟨hcleared, hnone, hstep⟩ | ⟨hstocked, hstep⟩
    · rw [hstep] at hround ⊢
      have hzero : ((docked.painted trig draw).crash.reset.fly trig).moonNum = 0 := hcleared.moonNum
      refine ⟨⟨hround, fun _ => hnone, fun hfour => ?_⟩, fun hfour => ?_⟩
      · exact absurd (hfour.symm.trans hzero) (Nat.succ_ne_zero 3)
      · exact absurd (hfour.symm.trans hzero) (Nat.succ_ne_zero 3)
    · by_cases hlast : (docked.painted trig draw).moonAnimations.length = 1 ∧
          (docked.painted trig draw).ship.landed = true
      · rw [hstep, if_pos hlast] at hround ⊢
        obtain ⟨hsame, hfour⟩ := hlosing.risen hlast.1 draw
        refine ⟨⟨hround, fun hzero => ?_, fun _ => ⟨?_, fun _ _ => ?_⟩⟩,
          fun _ => hsame.trans hlost⟩
        · exact absurd (hstocked.moonNum.symm.trans hzero) (Nat.succ_ne_zero 3)
        · exact (Nat.le_add_left 1 3).trans_eq hfour.symm
        · exact (Nat.le_add_left 2 2).trans_eq hfour.symm
      · rw [hstep, if_neg hlast] at hround ⊢
        refine ⟨⟨hround, fun hzero => ?_, fun _ => ⟨hleft, fun hdocked _ => ?_⟩⟩,
          fun _ => hlosing.lost.trans hlost⟩
        · exact absurd (hstocked.moonNum.symm.trans hzero) (Nat.succ_ne_zero 3)
        · have hnotOne : (docked.painted trig draw).moonAnimations.length ≠ 1 := fun hone =>
            hlast ⟨hone, hlosing.landed hdocked⟩
          change 2 ≤ (docked.painted trig draw).moonAnimations.length
          omega

/-- A key leaves the moons alone. -/
theorem Going.setKey {panel : AnimationPanel} (h : Going panel) (key : Key) (down : Bool) :
    Going (panel.setKey key down) := by
  refine ⟨h.round.setKey key down, h.landings, fun hfour => ?_⟩
  exact ⟨(h.supplied hfour).moons, (h.supplied hfour).docked⟩

/-- A tick leaves the moons alone, and loses a landing exactly if enter is held down in flight. -/
theorem Going.tick {panel : AnimationPanel} (h : Going panel) :
    Going panel.tick ∧ panel.tick.moonNum = panel.moonNum ∧
      panel.tick.lost =
        panel.lost + if panel.pressed .enter = true ∧ InFlight panel then 1 else 0 := by
  have hround := h.round.tick
  obtain ⟨ship, -, -, htick⟩ := panel.tick_eq
  rw [htick] at hround ⊢
  by_cases henter : panel.pressed .enter = true
  · rw [if_pos henter] at hround ⊢
    refine ⟨⟨hround, h.landings, fun hfour => ?_⟩, rfl, ?_⟩
    · exact ⟨(h.supplied hfour).moons, (h.supplied hfour).docked⟩
    · have hdocked : ¬InFlight { panel with
          ship := ship, initPosition := true, start := true, died := false } :=
        fun hflight => Bool.false_ne_true hflight.2.symm
      rw [AnimationPanel.lost, if_neg hdocked, AnimationPanel.lost]
      simp only [henter, true_and]
      split <;> omega
  · rw [if_neg henter] at hround ⊢
    refine ⟨⟨hround, h.landings, fun hfour => ?_⟩, rfl, ?_⟩
    · exact ⟨(h.supplied hfour).moons, (h.supplied hfour).docked⟩
    · rw [if_neg fun hboth => henter hboth.1, Int.add_zero]
      rfl

/-- A new panel has no landings. -/
theorem Going.new : Going .new :=
  ⟨Or.inl .new, fun _ => rfl, fun hfour => absurd hfour (Nat.succ_ne_zero 3).symm⟩

/-- A game loses no landings, or some. -/
theorem Going.run (trig : Trigonometry) (events : List Event) :
    let panel := (game trig).run .new events
    Going panel ∧ 0 ≤ panel.lostBefore := by
  refine (game trig).run_invariant (fun panel => Going panel ∧ 0 ≤ panel.lostBefore) ?_ .new
    ⟨.new, le_rfl⟩ events
  rintro panel event ⟨h, hlost⟩
  cases event with
  | keyPressed key => exact ⟨h.setKey key true, hlost⟩
  | keyReleased key => exact ⟨h.setKey key false, hlost⟩
  | tick =>
    obtain ⟨hgoing, hnum, hmore⟩ := h.tick
    refine ⟨hgoing, ?_⟩
    change 0 ≤ panel.tick.lostBefore
    rw [AnimationPanel.lostBefore] at hlost ⊢
    rw [hnum, hmore]
    split at hlost
    · rw [if_pos ‹_›]
      split <;> omega
    · rw [if_neg ‹_›]
  | paint draw =>
    obtain ⟨hgoing, hsame⟩ := h.paint trig draw
    refine ⟨hgoing, ?_⟩
    change 0 ≤ (panel.step trig (.paint draw)).lostBefore
    rw [AnimationPanel.lostBefore]
    split
    · rename_i hfour
      rwa [hsame hfour]
    · exact le_rfl

/-- Every moon that is lost is one that the ship has left for a landing or is leaving. -/
def Balanced (panel : AnimationPanel) : Prop :=
  panel.moonNum = 4 →
    panel.moonAnimations.length + panel.landings + (if InFlight panel then 1 else 0) =
      3 * panel.level + 1

/-- A balanced game has lost no landing. -/
theorem balanced_iff (panel : AnimationPanel) : Balanced panel ↔ panel.lostBefore = 0 := by
  rw [Balanced, AnimationPanel.lostBefore]
  by_cases hfour : panel.moonNum = 4
  · rw [if_pos hfour, AnimationPanel.lost, sub_eq_zero]
    exact (forall_prop_of_true hfour).trans eq_comm
  · rw [if_neg hfour]
    exact iff_of_true (fun h => absurd h hfour) rfl

/-- Whatever is played, the moons that are left and the landings come to three for each level and one
more, one of them the flight that the ship may be in, exactly as long as enter is not held down
in flight. -/
theorem run_balanced_iff (trig : Trigonometry) (events : List Event) :
    (∀ front, front <+: events → Balanced ((game trig).run .new front)) ↔
      ∀ front, front ++ [.tick] <+: events →
        ((game trig).run .new front).pressed .enter = true →
          ¬InFlight ((game trig).run .new front) := by
  rw [(game trig).forall_prefix_iff Going Balanced
    (fun panel event => event = .tick → panel.pressed .enter = true → ¬InFlight panel) ?_ .new
    .new (fun hfour => absurd hfour (Nat.succ_ne_zero 3).symm)]
  · constructor
    · intro h front hfront
      exact h front .tick hfront rfl
    · rintro h front event hfront rfl
      exact h front hfront
  · intro panel event h hbalanced
    cases event with
    | keyPressed key => exact ⟨h.setKey key true, iff_of_true hbalanced nofun⟩
    | keyReleased key => exact ⟨h.setKey key false, iff_of_true hbalanced nofun⟩
    | tick =>
      obtain ⟨hgoing, hnum, hmore⟩ := h.tick
      refine ⟨hgoing, ?_⟩
      change Balanced panel.tick ↔ _
      rw [balanced_iff, AnimationPanel.lostBefore] at hbalanced ⊢
      rw [hnum, hmore]
      by_cases hfour : panel.moonNum = 4
      · rw [if_pos hfour] at hbalanced ⊢
        rw [hbalanced, Int.zero_add]
        by_cases hloses : panel.pressed .enter = true ∧ InFlight panel
        · rw [if_pos hloses]
          exact iff_of_false Int.one_ne_zero fun hsafe => hsafe rfl hloses.1 hloses.2
        · rw [if_neg hloses]
          exact iff_of_true rfl fun _ henter hflight => hloses ⟨henter, hflight⟩
      · rw [if_neg hfour]
        refine iff_of_true rfl fun _ _ hflight => ?_
        rcases h.round with hcleared | ⟨hstocked, -⟩
        · exact absurd (hflight.2.symm.trans hcleared.initPosition) Bool.false_ne_true
        · exact hfour hstocked.moonNum
    | paint draw =>
      obtain ⟨hgoing, hsame⟩ := h.paint trig draw
      refine ⟨hgoing, iff_of_true ?_ nofun⟩
      change Balanced (panel.step trig (.paint draw))
      rw [balanced_iff] at hbalanced ⊢
      rw [AnimationPanel.lostBefore]
      split
      · rename_i hfour
        exact (hsame hfour).trans hbalanced
      · rfl

end Coursework.GalacticMail
