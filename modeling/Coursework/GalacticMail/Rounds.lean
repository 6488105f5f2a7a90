import Coursework.GalacticMail.KeyboardPanel

/-!
# Rounds of Galactic Mail

What each stage of a paint can do. Between two events, the panel either is cleared for a new
game, or has its four asteroids and at most four moons.
-/

namespace Coursework.GalacticMail

open TankGame (Trigonometry)
open Transition

/-- A panel from which a paint starts a new game. -/
structure Cleared (panel : AnimationPanel) : Prop where
  level : panel.level = 1
  curScore : panel.curScore = 1000
  moonNum : panel.moonNum = 0
  asteroidNum : panel.asteroidNum = 0
  moonCounter : panel.moonCounter < 4
  initPosition : panel.initPosition = true
  destroy : panel.destroy = false
  earnPoints : panel.earnPoints = false
  step : panel.ship.step = initStep
  moonAnimations : panel.moonAnimations = []
  asteroidAnimations : panel.asteroidAnimations = []

/-- A panel with moons and asteroids. -/
structure Stocked (panel : AnimationPanel) : Prop where
  moonNum : panel.moonNum = 4
  asteroidNum : panel.asteroidNum = 4
  moonCounter : panel.moonCounter < 4
  moons_le : panel.moonAnimations.length ≤ 4
  asteroids : panel.asteroidAnimations.length = 4

/-- A panel on which no ship has crashed. -/
structure Alive (panel : AnimationPanel) : Prop where
  died : panel.died = false
  destroy : panel.destroy = false

/-- A panel between two events. -/
def Round (panel : AnimationPanel) : Prop := Cleared panel ∨ Stocked panel ∧ Alive panel

/-- A paint makes moons and asteroids on a cleared panel. -/
theorem Cleared.fill_eq {panel : AnimationPanel} (h : Cleared panel) (draw : Draw) :
    (panel.fill draw).init = { panel with
      moonAnimations := (List.range 4).map fun k => .new moonSize (draw.moon k)
      moonNum := 4
      asteroidAnimations := (List.range 4).map fun k => .new asteroidSize (draw.asteroid k)
      asteroidNum := 4
      moonLanded := true
      ship := panel.ship.setLanded true
      initPosition := false } := by
  rw [AnimationPanel.init, AnimationPanel.fill, h.moonNum, h.asteroidNum, h.moonAnimations,
    h.asteroidAnimations]
  exact if_pos h.initPosition

/-- A paint makes no moons and asteroids while a game is on. -/
theorem Stocked.fill_eq {panel : AnimationPanel} (h : Stocked panel) (draw : Draw) :
    panel.fill draw = panel := by
  have hmoons : panel.moonAnimations ++
      (List.range (4 - panel.moonNum)).map (fun k => Animation.new moonSize (draw.moon k)) =
        panel.moonAnimations := by
    rw [h.moonNum]
    exact List.append_nil _
  have hasteroids : panel.asteroidAnimations ++ (List.range (4 - panel.asteroidNum)).map
      (fun k => Animation.new asteroidSize (draw.asteroid k)) = panel.asteroidAnimations := by
    rw [h.asteroidNum]
    exact List.append_nil _
  have hmoonNum : max panel.moonNum 4 = panel.moonNum := by
    rw [h.moonNum]
    rfl
  have hasteroidNum : max panel.asteroidNum 4 = panel.asteroidNum := by
    rw [h.asteroidNum]
    rfl
  rw [AnimationPanel.fill, hmoons, hasteroids, hmoonNum, hasteroidNum]

/-- The score after `setScore`. -/
def AnimationPanel.paid (panel : AnimationPanel) : Int32 :=
  (if panel.earnPoints then panel.curScore + score else panel.curScore) - 1

/-- What `setScore` does. -/
theorem AnimationPanel.setScore_eq (panel : AnimationPanel) :
    panel.setScore = { panel with
      curScore := panel.paid
      earnPoints := false
      start := if panel.paid < 0 then false else panel.start
      docked := panel.docked + 1 } := by
  have hcredit : panel.credit = { panel with
      curScore := if panel.earnPoints then panel.curScore + score else panel.curScore
      earnPoints := false } := by
    rw [AnimationPanel.credit]
    split
    · rfl
    · rename_i hearn
      rw [← Bool.eq_false_iff.mpr hearn]
  rw [AnimationPanel.setScore, hcredit]
  change (if panel.paid < 0 then _ else _) = _
  split <;> rfl

/-- At the dock, the score changes, and a launch removes the moon. -/
theorem AnimationPanel.dockAt_eq (panel : AnimationPanel) (moon : Animation) :
    ∃ curScore earnPoints start docked,
      panel.dockAt moon =
        if panel.ship.landed then
          { panel with
            curScore := curScore, earnPoints := earnPoints, start := start, docked := docked
            ship := panel.ship.place moon.x moon.y }
        else
          { panel with
            curScore := curScore, earnPoints := earnPoints, start := start, docked := docked
            ship := panel.ship.place moon.x moon.y
            moonAnimations := panel.moonAnimations.eraseIdx panel.moonCounter
            moonLanded := false } := by
  rw [AnimationPanel.dockAt, AnimationPanel.stay, AnimationPanel.setScore_eq]
  split <;> exact ⟨_, _, _, _, rfl⟩

/-- Nothing at the dock takes the ship to the dock again. -/
theorem AnimationPanel.dockAt_initPosition (panel : AnimationPanel) (moon : Animation) :
    (panel.dockAt moon).initPosition = panel.initPosition := by
  obtain ⟨curScore, earnPoints, start, docked, hdock⟩ := panel.dockAt_eq moon
  rw [hdock]
  split <;> rfl

/-- The test of a moon lands the ship on it, or does nothing. -/
theorem foldl_meetMoon (draw : Draw) (indices : List ℕ) (panel : AnimationPanel) :
    indices.foldl (AnimationPanel.meetMoon draw) panel = panel ∨
      panel.moonLanded = false ∧ ∃ counter ∈ indices,
        indices.foldl (AnimationPanel.meetMoon draw) panel = panel.countLanding.land counter := by
  have hlanded : ∀ (rest : List ℕ) (landed : AnimationPanel), landed.moonLanded = true →
      rest.foldl (AnimationPanel.meetMoon draw) landed = landed := by
    intro rest landed h
    induction rest with
    | nil => rfl
    | cons counter rest ih =>
      rw [List.foldl_cons, AnimationPanel.meetMoon, h, Bool.not_true, Bool.and_false,
        if_neg Bool.false_ne_true, ih]
  induction indices with
  | nil => exact Or.inl rfl
  | cons counter rest ih =>
    rw [List.foldl_cons, AnimationPanel.meetMoon]
    split
    · rename_i hcontact
      rw [Bool.and_eq_true, Bool.not_eq_true'] at hcontact
      exact Or.inr ⟨hcontact.2, counter, List.mem_cons_self, hlanded rest _ rfl⟩
    · refine ih.imp_right ?_
      rintro ⟨hflight, later, hlater, hland⟩
      exact ⟨hflight, later, List.mem_cons_of_mem _ hlater, hland⟩

/-- The test of the asteroids destroys the ship in flight, or does nothing. -/
theorem foldl_meetAsteroid (draw : Draw) (indices : List ℕ) (panel : AnimationPanel) :
    indices.foldl (AnimationPanel.meetAsteroid draw) panel = panel ∨
      panel.moonLanded = false ∧ panel.ship.landed = false ∧
        indices.foldl (AnimationPanel.meetAsteroid draw) panel = { panel with destroy := true } := by
  induction indices generalizing panel with
  | nil => exact Or.inl rfl
  | cons counter rest ih =>
    rw [List.foldl_cons, AnimationPanel.meetAsteroid]
    split
    · rename_i hcontact
      rw [Bool.and_eq_true, Bool.and_eq_true, Bool.not_eq_true', Bool.not_eq_true'] at hcontact
      refine Or.inr ⟨hcontact.1.2, hcontact.2, ?_⟩
      rcases ih { panel with destroy := true } with hsame | ⟨-, -, hdestroyed⟩
      · exact hsame
      · exact hdestroyed
    · exact ih panel

/-- The panel is ready for the dock. -/
theorem Round.ready {panel : AnimationPanel} (h : Round panel) (draw : Draw) :
    Stocked (panel.fill draw).init := by
  rcases h with hcleared | ⟨hstocked, -⟩
  · rw [hcleared.fill_eq draw]
    refine ⟨rfl, rfl, hcleared.moonCounter, ?_, ?_⟩
    · exact (List.length_map _).trans_le List.length_range.le
    · exact (List.length_map _).trans List.length_range
  · rw [hstocked.fill_eq draw, AnimationPanel.init]
    split <;> exact ⟨hstocked.moonNum, hstocked.asteroidNum, hstocked.moonCounter,
      hstocked.moons_le, hstocked.asteroids⟩

/-- A launch leaves fewer moons. -/
theorem Stocked.dockAt {panel : AnimationPanel} (h : Stocked panel) (moon : Animation) :
    Stocked (panel.dockAt moon) := by
  obtain ⟨curScore, earnPoints, start, docked, hdock⟩ := panel.dockAt_eq moon
  rw [hdock]
  split
  · exact ⟨h.moonNum, h.asteroidNum, h.moonCounter, h.moons_le, h.asteroids⟩
  · exact ⟨h.moonNum, h.asteroidNum, h.moonCounter,
      (List.length_eraseIdx_le _ _).trans h.moons_le, h.asteroids⟩

/-- What the branch for the dock keeps. -/
theorem AnimationPanel.dock_keeps {P : AnimationPanel → Prop} {panel docked : AnimationPanel}
    (hresult : panel.dock = some docked) (h : P panel)
    (hdock : ∀ moon, panel.moonLanded = true → P (panel.dockAt moon)) : P docked := by
  rw [AnimationPanel.dock] at hresult
  split at hresult
  · rename_i hlanded
    obtain ⟨moon, -, rfl⟩ := Option.map_eq_some_iff.mp hresult
    exact hdock moon hlanded
  · exact Option.some.inj hresult ▸ h

/-- The panel of the next level: the last moon, faster, and three new ones; everything else is faster as
well. -/
def AnimationPanel.risen (panel : AnimationPanel) (draw : Draw) : AnimationPanel :=
  { panel with
    moonAnimations := panel.moonAnimations.map (fun moon => moon.setSpeed speedIncreased) ++
      (List.range 3).map fun k =>
        (Animation.new moonSize (draw.moon (4 + k))).setSpeed speedIncreased
    asteroidAnimations :=
      panel.asteroidAnimations.map fun asteroid => asteroid.setSpeed speedIncreased
    ship := panel.ship.setStep speedIncreased
    level := panel.level + 1 }

section Moves

variable (trig : Trigonometry)

/-- All moons have moved. -/
def AnimationPanel.moveMoons (panel : AnimationPanel) : AnimationPanel :=
  { panel with moonAnimations := panel.moonAnimations.map (Animation.repaint trig) }

/-- All asteroids have moved. -/
def AnimationPanel.moveAsteroids (panel : AnimationPanel) : AnimationPanel :=
  { panel with asteroidAnimations := panel.asteroidAnimations.map (Animation.repaint trig) }

/-- The panel after both loops. -/
def AnimationPanel.painted (panel : AnimationPanel) (draw : Draw) : AnimationPanel :=
  (panel.paintMoons trig draw).paintAsteroids trig draw

/-- The loop over the moons lands the ship on one of them at most. -/
theorem AnimationPanel.paintMoons_eq (panel : AnimationPanel) (draw : Draw) :
    panel.paintMoons trig draw = panel.moveMoons trig ∨
      panel.moonLanded = false ∧ ∃ counter < panel.moonAnimations.length,
        panel.paintMoons trig draw = (panel.countLanding.land counter).moveMoons trig := by
  rw [AnimationPanel.paintMoons]
  rcases foldl_meetMoon draw (List.range panel.moonAnimations.length) panel with
    hsame | ⟨hflight, counter, hcounter, hland⟩
  · rw [hsame]
    exact Or.inl rfl
  · rw [hland]
    exact Or.inr ⟨hflight, counter, List.mem_range.mp hcounter, rfl⟩

/-- The loop over the asteroids destroys the ship in flight only. -/
theorem AnimationPanel.paintAsteroids_eq (panel : AnimationPanel) (draw : Draw) :
    ∃ destroy,
      panel.paintAsteroids trig draw = ({ panel with destroy := destroy }).moveAsteroids trig ∧
      (destroy = panel.destroy ∨ panel.moonLanded = false ∧ panel.ship.landed = false) := by
  rw [AnimationPanel.paintAsteroids]
  rcases foldl_meetAsteroid draw (List.range panel.asteroidAnimations.length) panel with
    hsame | ⟨hflight, hlanded, hdestroyed⟩
  · rw [hsame]
    exact ⟨panel.destroy, rfl, Or.inl rfl⟩
  · rw [hdestroyed]
    exact ⟨true, rfl, Or.inr ⟨hflight, hlanded⟩⟩

/-- The ship lands on one of at most four moons. -/
theorem Stocked.paintMoons {panel : AnimationPanel} (h : Stocked panel) (draw : Draw) :
    Stocked (panel.paintMoons trig draw) := by
  have hmoons : (panel.moonAnimations.map (Animation.repaint trig)).length ≤ 4 :=
    (List.length_map _).trans_le h.moons_le
  rcases panel.paintMoons_eq trig draw with hsame | ⟨-, counter, hcounter, hland⟩
  · rw [hsame]
    exact ⟨h.moonNum, h.asteroidNum, h.moonCounter, hmoons, h.asteroids⟩
  · rw [hland]
    exact ⟨h.moonNum, h.asteroidNum, hcounter.trans_le h.moons_le, hmoons, h.asteroids⟩

/-- No asteroid is lost. -/
theorem Stocked.paintAsteroids {panel : AnimationPanel} (h : Stocked panel) (draw : Draw) :
    Stocked (panel.paintAsteroids trig draw) := by
  obtain ⟨destroy, hpaint, -⟩ := panel.paintAsteroids_eq trig draw
  rw [hpaint]
  exact ⟨h.moonNum, h.asteroidNum, h.moonCounter, h.moons_le, (List.length_map _).trans h.asteroids⟩

end Moves

/-- After a crash the panel is cleared, and otherwise nothing happens. -/
theorem Stocked.reset {panel : AnimationPanel} (h : Stocked panel) :
    Cleared panel.crash.reset ∧ panel.crash.reset.died = true ∨
      panel.crash.reset = panel ∧ Alive panel := by
  have hcleared : ∀ crashed : AnimationPanel, crashed.moonCounter < 4 → crashed.died = true →
      Cleared crashed.reset ∧ crashed.reset.died = true := by
    intro crashed hcounter hdied
    rw [AnimationPanel.reset, if_pos hdied]
    exact ⟨⟨rfl, rfl, rfl, rfl, hcounter, rfl, rfl, rfl, rfl, rfl, rfl⟩, hdied⟩
  by_cases hdestroy : panel.destroy = true
  · rw [AnimationPanel.crash, if_pos hdestroy]
    exact Or.inl (hcleared _ h.moonCounter rfl)
  · rw [AnimationPanel.crash, if_neg hdestroy]
    by_cases hdied : panel.died = true
    · exact Or.inl (hcleared panel h.moonCounter hdied)
    · rw [AnimationPanel.reset, if_neg hdied]
      exact Or.inr ⟨rfl, Bool.eq_false_iff.mpr hdied, Bool.eq_false_iff.mpr hdestroy⟩

/-- A cleared panel is on no way to the next level. -/
theorem Cleared.levelUp {panel : AnimationPanel} (h : Cleared panel) (draw : Draw) :
    panel.levelUp draw = .ok panel := by
  rw [AnimationPanel.levelUp, h.moonAnimations]
  exact if_neg fun hone => absurd hone.1 (Nat.succ_ne_zero 0).symm

/-- The next level starts at the last moon. -/
theorem Stocked.levelUp_eq {panel : AnimationPanel} (h : Stocked panel) (draw : Draw) :
    panel.levelUp draw =
      .ok (if panel.moonAnimations.length = 1 ∧ panel.ship.landed = true then panel.risen draw
        else panel) := by
  rw [AnimationPanel.levelUp]
  split
  · have hspeeds : setSpeeds 4 panel.asteroidAnimations =
        some (panel.asteroidAnimations.map fun asteroid => asteroid.setSpeed speedIncreased) := by
      rw [setSpeeds, if_pos h.asteroids.ge, List.take_of_length_le h.asteroids.le,
        List.drop_eq_nil_of_le h.asteroids.le, List.append_nil]
    simp only [AnimationPanel.nextLevel, hspeeds]
    rfl
  · rfl

/-- There are four moons again in the next level. -/
theorem Stocked.risen {panel : AnimationPanel} (h : Stocked panel)
    (hone : panel.moonAnimations.length = 1) (draw : Draw) : Stocked (panel.risen draw) := by
  refine ⟨h.moonNum, h.asteroidNum, h.moonCounter, ?_, (List.length_map _).trans h.asteroids⟩
  rw [AnimationPanel.risen, List.length_append, List.length_map, List.length_map, hone,
    List.length_range]

/-- The flight of the ship leaves a cleared panel cleared. -/
theorem Cleared.fly {panel : AnimationPanel} (trig : Trigonometry) (h : Cleared panel) :
    Cleared (panel.fly trig) :=
  ⟨h.level, h.curScore, h.moonNum, h.asteroidNum, h.moonCounter, h.initPosition, h.destroy,
    h.earnPoints, h.step, h.moonAnimations, h.asteroidAnimations⟩

/-- The flight of the ship leaves moons and asteroids alone. -/
theorem Stocked.fly {panel : AnimationPanel} (trig : Trigonometry) (h : Stocked panel) :
    Stocked (panel.fly trig) :=
  ⟨h.moonNum, h.asteroidNum, h.moonCounter, h.moons_le, h.asteroids⟩

/-- A paint breaks off during a game only. -/
theorem Round.alive_of_dock {panel : AnimationPanel} (h : Round panel) (draw : Draw)
    (hdock : (panel.fill draw).init.dock = none) : Alive (panel.fill draw).init := by
  rcases h with hcleared | ⟨hstocked, halive⟩
  · rw [hcleared.fill_eq draw, AnimationPanel.dock, if_pos rfl, Option.map_eq_none_iff,
      List.getElem?_eq_none_iff, List.length_map, List.length_range] at hdock
    exact absurd hcleared.moonCounter (Nat.not_lt_of_le hdock)
  · rw [hstocked.fill_eq draw, AnimationPanel.init]
    split <;> exact ⟨halive.died, halive.destroy⟩

/-- What the stages of a paint keep, the paint keeps, whether it is finished or broken off. -/
theorem Round.paint_keeps {P : AnimationPanel → Prop} (trig : Trigonometry)
    {panel : AnimationPanel} (h : Round panel) (draw : Draw)
    (hready : P (panel.fill draw).init)
    (hdock : ∀ moon, (panel.fill draw).init.moonLanded = true →
      P ((panel.fill draw).init.dockAt moon))
    (hmoons : ∀ panel, P panel → P (panel.moveMoons trig))
    (hland : ∀ panel counter, panel.moonLanded = false → counter < panel.moonAnimations.length →
      P panel → P (panel.countLanding.land counter))
    (hasteroids : ∀ panel, P panel → P (panel.moveAsteroids trig))
    (hdestroy : ∀ panel, panel.moonLanded = false → panel.ship.landed = false → ∀ destroy,
      P panel → P { panel with destroy := destroy })
    (hreset : ∀ panel, Stocked panel → P panel → P panel.crash.reset)
    (hlevel : ∀ docked, (panel.fill draw).init.dock = some docked →
      (docked.painted trig draw).moonAnimations.length = 1 →
      (docked.painted trig draw).ship.landed = true →
      P (docked.painted trig draw) → P ((docked.painted trig draw).risen draw))
    (hfly : ∀ panel, P panel → P (panel.fly trig)) :
    Round (panel.step trig (.paint draw)) ∧ P (panel.step trig (.paint draw)) := by
  have hstocked := h.ready draw
  rw [AnimationPanel.step, AnimationPanel.paintComponent]
  cases hresult : (panel.fill draw).init.dock with
  | none => exact ⟨Or.inr ⟨hstocked, h.alive_of_dock draw hresult⟩, hready⟩
  | some docked =>
    simp only
    have hdocked := AnimationPanel.dock_keeps hresult hstocked fun moon _ => hstocked.dockAt moon
    have hPdocked := AnimationPanel.dock_keeps hresult hready hdock
    have hmet := hdocked.paintMoons trig draw
    have hpainted := hmet.paintAsteroids trig draw
    have hPmet : P (docked.paintMoons trig draw) := by
      rcases docked.paintMoons_eq trig draw with hsame | ⟨hflight, counter, hcounter, hmoon⟩
      · exact hsame ▸ hmoons docked hPdocked
      · exact hmoon ▸ hmoons _ (hland docked counter hflight hcounter hPdocked)
    have hPpainted : P ((docked.paintMoons trig draw).paintAsteroids trig draw) := by
      obtain ⟨destroy, hpaint, rfl | ⟨hflight, hlanded⟩⟩ :=
        (docked.paintMoons trig draw).paintAsteroids_eq trig draw
      · exact hpaint ▸ hasteroids _ hPmet
      · exact hpaint ▸ hasteroids _ (hdestroy _ hflight hlanded destroy hPmet)
    have hP := hreset _ hpainted hPpainted
    rcases hpainted.reset with ⟨hcleared, -⟩ | ⟨hsame, halive⟩
    · rw [hcleared.levelUp draw]
      exact ⟨Or.inl (hcleared.fly trig), hfly _ hP⟩
    · rw [hsame]
      rw [hpainted.levelUp_eq draw]
      split
      · rename_i hlast
        exact ⟨Or.inr ⟨(hpainted.risen hlast.1 draw).fly trig, halive.died, halive.destroy⟩,
          hfly _ (hlevel docked hresult hlast.1 hlast.2 hPpainted)⟩
      · exact ⟨Or.inr ⟨hpainted.fly trig, halive.died, halive.destroy⟩, hfly _ hPpainted⟩

/-- A paint leads from round to round. -/
theorem Round.paint {panel : AnimationPanel} (trig : Trigonometry) (h : Round panel)
    (draw : Draw) : Round (panel.step trig (.paint draw)) :=
  (h.paint_keeps (P := fun _ => True) trig draw trivial (fun _ _ => trivial)
    (fun _ _ => trivial) (fun _ _ _ _ _ => trivial) (fun _ _ => trivial)
    (fun _ _ _ _ _ => trivial) (fun _ _ _ => trivial) (fun _ _ _ _ _ => trivial)
    fun _ _ => trivial).1

/-- Nothing but a paint changes the moons and asteroids. -/
theorem Stocked.tick {panel : AnimationPanel} (h : Stocked panel) : Stocked panel.tick := by
  obtain ⟨ship, -, -, htick⟩ := panel.tick_eq
  rw [htick]
  split <;> exact ⟨h.moonNum, h.asteroidNum, h.moonCounter, h.moons_le, h.asteroids⟩

/-- A tick leaves a cleared panel cleared. -/
theorem Cleared.tick {panel : AnimationPanel} (h : Cleared panel) : Cleared panel.tick := by
  obtain ⟨ship, hstep, -, htick⟩ := panel.tick_eq
  rw [htick]
  split
  · exact ⟨h.level, h.curScore, h.moonNum, h.asteroidNum, h.moonCounter, rfl, h.destroy,
      h.earnPoints, hstep.trans h.step, h.moonAnimations, h.asteroidAnimations⟩
  · exact ⟨h.level, h.curScore, h.moonNum, h.asteroidNum, h.moonCounter, h.initPosition, h.destroy,
      h.earnPoints, hstep.trans h.step, h.moonAnimations, h.asteroidAnimations⟩

/-- A new panel is cleared. -/
theorem Cleared.new : Cleared .new :=
  ⟨rfl, rfl, rfl, rfl, Nat.succ_pos 3, rfl, rfl, rfl, rfl, rfl, rfl⟩

/-- A key leaves the round alone. -/
theorem Round.setKey {panel : AnimationPanel} (h : Round panel) (key : Key) (down : Bool) :
    Round (panel.setKey key down) := by
  rcases h with h | ⟨h, halive⟩
  · exact Or.inl ⟨h.level, h.curScore, h.moonNum, h.asteroidNum, h.moonCounter, h.initPosition,
      h.destroy, h.earnPoints, h.step, h.moonAnimations, h.asteroidAnimations⟩
  · exact Or.inr ⟨⟨h.moonNum, h.asteroidNum, h.moonCounter, h.moons_le, h.asteroids⟩,
      halive.died, halive.destroy⟩

/-- A tick leaves the round alone. -/
theorem Round.tick {panel : AnimationPanel} (h : Round panel) : Round panel.tick := by
  rcases h with hcleared | ⟨hstocked, halive⟩
  · exact Or.inl hcleared.tick
  · refine Or.inr ⟨hstocked.tick, ?_⟩
    obtain ⟨ship, -, -, htick⟩ := panel.tick_eq
    rw [htick]
    split
    · exact ⟨rfl, halive.destroy⟩
    · exact ⟨halive.died, halive.destroy⟩

/-- The panel is between two rounds or within one after every run. -/
theorem Round.run (trig : Trigonometry) (events : List Event) :
    Round ((game trig).run .new events) := by
  refine (game trig).run_invariant Round ?_ .new (Or.inl .new) events
  intro panel event h
  cases event with
  | keyPressed key => exact h.setKey key true
  | keyReleased key => exact h.setKey key false
  | tick => exact h.tick
  | paint draw => exact h.paint trig draw

end Coursework.GalacticMail
