import Coursework.GalacticMail.Dock

/-!
# Starting again

Enter starts a game on a panel that a crash has cleared. When the score has fallen below zero, the
panel is not cleared, and the score that enter finds ends the game again.
-/

namespace Coursework.GalacticMail

open TankGame (Trigonometry)
open Transition

/-- The score of a paint at the dock does not depend on the ship. -/
theorem AnimationPanel.stay_setShip (panel : AnimationPanel) (ship : ShipObject) :
    (panel.setShip ship).stay = panel.stay.setShip ship := by
  rw [AnimationPanel.stay, AnimationPanel.stay, AnimationPanel.setScore_eq,
    AnimationPanel.setScore_eq]
  change (if panel.start then _ else _) = _
  split <;> rfl

/-- At the dock, a ship that is not launched only pays for the stay. -/
theorem AnimationPanel.dockAt_landed (panel : AnimationPanel) (moon : Animation)
    (hlanded : panel.ship.landed = true) :
    panel.dockAt moon = panel.stay.setShip (panel.ship.place moon.x moon.y) := by
  rw [AnimationPanel.dockAt, AnimationPanel.stay_setShip, AnimationPanel.launch]
  exact if_pos hlanded

/-- A panel whose ship is docked. -/
structure Docked (panel : AnimationPanel) : Prop where
  moonLanded : panel.moonLanded = true
  landed : panel.ship.landed = true
  moonCounter : panel.moonCounter < panel.moonAnimations.length
  several : panel.moonAnimations.length ≠ 1
  destroy : panel.destroy = false
  died : panel.died = false

/-- A stay leaves everything but the score alone. -/
theorem Docked.stay {panel : AnimationPanel} (h : Docked panel) : Docked panel.stay := by
  rw [AnimationPanel.stay, AnimationPanel.setScore_eq]
  split <;> exact ⟨h.moonLanded, h.landed, h.moonCounter, h.several, h.destroy, h.died⟩

/-- A docked ship meets no moon. -/
theorem Docked.paintMoons {panel : AnimationPanel} (trig : Trigonometry) (h : Docked panel)
    (draw : Draw) :
    panel.paintMoons trig draw = panel.moveMoons trig := by
  rcases panel.paintMoons_eq trig draw with hsame | ⟨hflight, -⟩
  · exact hsame
  · exact absurd (hflight.symm.trans h.moonLanded) Bool.false_ne_true

/-- A docked ship meets no asteroid. -/
theorem Docked.paintAsteroids {panel : AnimationPanel} (trig : Trigonometry) (h : Docked panel)
    (draw : Draw) :
    panel.paintAsteroids trig draw = panel.moveAsteroids trig := by
  obtain ⟨destroy, hpaint, rfl | ⟨hflight, -⟩⟩ := panel.paintAsteroids_eq trig draw
  · exact hpaint
  · exact absurd (hflight.symm.trans h.moonLanded) Bool.false_ne_true

/-- A docked ship neither crashes nor reaches the next level. -/
theorem Docked.finish {panel : AnimationPanel} (h : Docked panel) (draw : Draw) :
    panel.crash.reset.levelUp draw = .ok panel := by
  rw [AnimationPanel.crash, h.destroy, if_neg Bool.false_ne_true, AnimationPanel.reset, h.died,
    if_neg Bool.false_ne_true, AnimationPanel.levelUp]
  exact if_neg fun hone => h.several hone.1

/-- A paint that finds the ship docked, and in no launch, only counts the score and moves
everything. -/
theorem Docked.step_paint {panel : AnimationPanel} (trig : Trigonometry) (draw : Draw)
    (h : Docked (panel.fill draw).init) :
    ∃ ship : ShipObject, ship.step = (panel.fill draw).init.stay.ship.step ∧ ship.landed = true ∧
      panel.step trig (.paint draw) = { (panel.fill draw).init.stay with
        ship := ship
        moonAnimations := (panel.fill draw).init.stay.moonAnimations.map (Animation.repaint trig)
        asteroidAnimations :=
          (panel.fill draw).init.stay.asteroidAnimations.map (Animation.repaint trig) } := by
  let ready := (panel.fill draw).init
  have hmoon : ready.moonAnimations[ready.moonCounter]? =
      some (ready.moonAnimations.get ⟨ready.moonCounter, h.moonCounter⟩) :=
    List.getElem?_eq_getElem h.moonCounter
  let moon := ready.moonAnimations.get ⟨ready.moonCounter, h.moonCounter⟩
  let docked := ready.stay.setShip (ready.ship.place moon.x moon.y)
  have hdock : ready.dock = some docked := by
    rw [AnimationPanel.dock, if_pos h.moonLanded, hmoon, Option.map_some,
      ready.dockAt_landed _ h.landed]
  have hdocked : Docked docked :=
    ⟨h.stay.moonLanded, h.landed, h.stay.moonCounter, h.stay.several, h.stay.destroy, h.stay.died⟩
  let met := docked.moveMoons trig
  have hlength : met.moonAnimations.length = docked.moonAnimations.length := List.length_map _
  have hmet : Docked met :=
    ⟨hdocked.moonLanded, hdocked.landed, hdocked.moonCounter.trans_eq hlength.symm,
      hlength ▸ hdocked.several, hdocked.destroy, hdocked.died⟩
  let painted := met.moveAsteroids trig
  have hpainted : Docked painted :=
    ⟨hmet.moonLanded, hmet.landed, hmet.moonCounter, hmet.several, hmet.destroy, hmet.died⟩
  have hpaint : panel.paintComponent trig draw = .ok (painted.fly trig) := by
    rw [AnimationPanel.paintComponent, show (panel.fill draw).init.dock = some docked from hdock]
    simp only
    rw [hdocked.paintMoons trig draw, hmet.paintAsteroids trig draw, hpainted.finish draw]
    rfl
  refine ⟨(painted.fly trig).ship, ?_, h.landed, ?_⟩
  · change ready.ship.step = ready.stay.ship.step
    rw [AnimationPanel.stay, AnimationPanel.setScore_eq]
    split <;> rfl
  · rw [AnimationPanel.step, hpaint]
    rfl

/-- The game is over: after a crash, or since the score fell below zero. -/
def Over (panel : AnimationPanel) : Prop :=
  panel.died = true ∨ panel.start = false ∧ panel.curScore < 0

/-- A game has just started. -/
structure Fresh (panel : AnimationPanel) : Prop where
  start : panel.start = true
  died : panel.died = false
  level : panel.level = 1
  curScore : panel.curScore = 999
  moons : panel.moonAnimations.length = 4
  moonSpeed : ∀ moon ∈ panel.moonAnimations, moon.speed = initSpeed
  asteroids : panel.asteroidAnimations.length = 4
  asteroidSpeed : ∀ asteroid ∈ panel.asteroidAnimations, asteroid.speed = initSpeed
  step : panel.ship.step = initStep
  moonLanded : panel.moonLanded = true
  landed : panel.ship.landed = true

/-- Enter is held down in one tick, and a paint follows. -/
def restart (draw : Draw) : List Event :=
  [.keyPressed .enter, .tick, .paint draw, .keyReleased .enter]

/-- The panel after a tick with enter. -/
def AnimationPanel.entered (panel : AnimationPanel) : AnimationPanel :=
  (panel.setKey .enter true).tick

/-- Enter starts a game. -/
theorem AnimationPanel.entered_eq (panel : AnimationPanel) :
    panel.entered.start = true ∧ panel.entered.died = false ∧
      panel.entered.curScore = panel.curScore := by
  obtain ⟨ship, -, -, htick⟩ := (panel.setKey .enter true).tick_eq
  have hpressed : (panel.setKey .enter true).pressed .enter = true := by
    rw [AnimationPanel.setKey]
    exact Function.update_self Key.enter true panel.pressed
  rw [AnimationPanel.entered, htick, if_pos hpressed]
  exact ⟨rfl, rfl, rfl⟩

/-- Enter leaves a cleared panel cleared. -/
theorem Cleared.entered {panel : AnimationPanel} (h : Cleared panel) : Cleared panel.entered :=
  Cleared.tick ⟨h.level, h.curScore, h.moonNum, h.asteroidNum, h.moonCounter, h.initPosition,
    h.destroy, h.earnPoints, h.step, h.moonAnimations, h.asteroidAnimations⟩

/-- The ship is docked in the first paint of a game. -/
theorem Cleared.docked {panel : AnimationPanel} (h : Cleared panel) (halive : panel.died = false)
    (draw : Draw) : Docked (panel.fill draw).init := by
  rw [h.fill_eq draw]
  refine ⟨rfl, rfl, ?_, ?_, h.destroy, halive⟩
  · exact h.moonCounter.trans_eq ((List.length_map _).trans List.length_range).symm
  · simp only [List.length_map, List.length_range]
    exact (Nat.succ_ne_succ_iff.mpr (Nat.succ_ne_zero 2))

section Moves

variable (trig : Trigonometry)

/-- What comes after a restart. -/
theorem run_restart (panel : AnimationPanel) (draw : Draw) :
    (game trig).run panel (restart draw) =
      (panel.entered.step trig (.paint draw)).setKey .enter false :=
  rfl

/-- Enter starts a new game on a cleared panel. -/
theorem Cleared.restart {panel : AnimationPanel} (h : Cleared panel) (draw : Draw) :
    Fresh ((game trig).run panel (restart draw)) := by
  obtain ⟨hstart, halive, -⟩ := panel.entered_eq
  have hentered := h.entered
  obtain ⟨ship, hstep, hlanded, hpaint⟩ := (hentered.docked halive draw).step_paint trig draw
  have hready := hentered.fill_eq draw
  have hpaid : (panel.entered.fill draw).init.paid = 999 := by
    rw [hready, AnimationPanel.paid, hentered.earnPoints, hentered.curScore]
    rfl
  have hstay : (panel.entered.fill draw).init.stay =
      { (panel.entered.fill draw).init with
        curScore := 999
        earnPoints := false
        docked := (panel.entered.fill draw).init.docked + 1 } := by
    have hbefore : (panel.entered.fill draw).init.start = true := by
      rw [hready]
      exact hstart
    rw [AnimationPanel.stay, if_pos hbefore, AnimationPanel.setScore_eq, hpaid, if_neg (by decide)]
  have hspeed : ∀ (size : ℤ) (choice : ℕ → Choice), ∀ animation ∈
      ((List.range 4).map fun k => Animation.new size (choice k)).map (Animation.repaint trig),
      animation.speed = initSpeed := by
    intro size choice animation hanimation
    obtain ⟨before, hbefore, rfl⟩ := List.mem_map.mp hanimation
    obtain ⟨k, -, rfl⟩ := List.mem_map.mp hbefore
    rfl
  rw [hstay, hready] at hstep hpaint
  rw [run_restart, hpaint]
  exact ⟨hstart, halive, hentered.level, rfl, rfl, hspeed _ _, rfl, hspeed _ _,
    hstep.trans hentered.step, rfl, hlanded⟩

end Moves

/-- The score after a paint at the dock. -/
theorem AnimationPanel.dockAt_curScore (panel : AnimationPanel) (moon : Animation) :
    (panel.dockAt moon).curScore = panel.curScore ∨
      (panel.dockAt moon).curScore = panel.paid := by
  have hstay : (panel.dockAt moon).curScore = panel.stay.curScore := by
    rw [AnimationPanel.dockAt, AnimationPanel.stay_setShip, AnimationPanel.launch]
    split <;> rfl
  rw [hstay, AnimationPanel.stay]
  split
  · rw [AnimationPanel.setScore_eq]
    exact Or.inr rfl
  · exact Or.inl rfl

/-- No score below zero is the one of a game that has just started, nor the next one. -/
theorem AnimationPanel.paid_ne {panel : AnimationPanel} (h : panel.curScore < 0) :
    panel.curScore ≠ 999 ∧ panel.paid ≠ 999 := by
  have hzero : ¬(0 : Int32) < 0 := by decide
  have hlarge : ¬(999 : Int32) < 0 ∧ ¬(1000 : Int32) < 0 := by decide
  refine ⟨fun hsame => hlarge.1 (hsame ▸ h), fun hsame => ?_⟩
  rw [AnimationPanel.paid, score] at hsame
  split at hsame
  · have : panel.curScore = 0 := by grind
    exact hzero (this ▸ h)
  · have : panel.curScore = 1000 := by grind
    exact hlarge.2 (this ▸ h)

/-- A paint leaves a score below zero below that of a game that has just started, unless the ship
crashes. -/
theorem Round.not_fresh_paint {panel : AnimationPanel} (trig : Trigonometry) (h : Round panel)
    (hscore : panel.curScore < 0) (draw : Draw) :
    ¬Fresh (panel.step trig (.paint draw)) := by
  have hready : (panel.fill draw).init.curScore = panel.curScore := by
    rw [AnimationPanel.init]
    split <;> rfl
  rw [← hready] at hscore
  obtain ⟨hcurScore, hpaid⟩ := AnimationPanel.paid_ne hscore
  have hpainted := h.paint_keeps (P := fun panel => panel.died = true ∨ panel.curScore ≠ 999)
    trig draw (Or.inr hcurScore) ?_ (fun _ hP => hP) (fun _ _ _ _ hP => hP) (fun _ hP => hP)
    (fun _ _ _ _ hP => hP) ?_ (fun _ _ _ _ hP => hP) fun _ hP => hP
  · rintro hfresh
    rcases hpainted.2 with hdied | hne
    · exact Bool.false_ne_true (hfresh.died.symm.trans hdied)
    · exact hne hfresh.curScore
  · intro moon _
    rcases (panel.fill draw).init.dockAt_curScore moon with hdock | hdock
    · exact Or.inr (hdock ▸ hcurScore)
    · exact Or.inr (hdock ▸ hpaid)
  · intro panel hstocked hP
    rcases hstocked.reset with ⟨-, hdied⟩ | ⟨hsame, -⟩
    · exact Or.inl hdied
    · rw [hsame]
      exact hP

/-- Enter starts no new game while the score is below zero. -/
theorem Round.not_fresh_restart {panel : AnimationPanel} (trig : Trigonometry) (h : Round panel)
    (hscore : panel.curScore < 0) (draw : Draw) :
    ¬Fresh ((game trig).run panel (restart draw)) := by
  obtain ⟨-, -, hentered⟩ := panel.entered_eq
  rw [run_restart]
  intro hfresh
  refine Round.not_fresh_paint trig (h.setKey .enter true).tick (hentered ▸ hscore) draw ?_
  exact ⟨hfresh.start, hfresh.died, hfresh.level, hfresh.curScore, hfresh.moons, hfresh.moonSpeed,
    hfresh.asteroids, hfresh.asteroidSpeed, hfresh.step, hfresh.moonLanded, hfresh.landed⟩

/-- Enter starts a new game after a run that ended a game exactly if the game ended with a crash. -/
theorem run_restart_iff (trig : Trigonometry) (events : List Event) (draw : Draw)
    (hover : Over ((game trig).run .new events)) :
    Fresh ((game trig).run .new (events ++ restart draw)) ↔
      ((game trig).run .new events).died = true := by
  have hround := Round.run trig events
  rw [TotalMachine.run_append]
  constructor
  · intro hfresh
    refine hover.resolve_right fun hlow => ?_
    exact hround.not_fresh_restart trig hlow.2 draw hfresh
  · intro hdied
    rcases hround with hcleared | ⟨-, halive⟩
    · exact hcleared.restart trig draw
    · exact absurd (halive.died.symm.trans hdied) Bool.false_ne_true

/-- The ship is launched into an asteroid. -/
def crashed : List Event :=
  opening ++ [.keyPressed .space, .tick, .keyReleased .space,
    .paint { Draw.quiet with touchesAsteroid := fun _ => true }]

/-- Enter starts a new game after the crash of the first ship. -/
theorem run_restart_iff_crashed :
    Fresh ((game TankGame.eastward).run .new (crashed ++ restart .quiet)) ↔
      ((game TankGame.eastward).run .new crashed).died = true :=
  run_restart_iff TankGame.eastward crashed .quiet (Or.inl (by decide +kernel))

/-- A game in which the ship stays at the dock with a score. -/
structure Idle (curScore : ℕ) (panel : AnimationPanel) : Prop where
  docked : Docked panel
  stocked : Stocked panel
  initPosition : panel.initPosition = false
  start : panel.start = true
  earnPoints : panel.earnPoints = false
  curScore : panel.curScore.toInt = curScore

/-- A paint finds the ship at the dock. -/
theorem Idle.ready {curScore : ℕ} {panel : AnimationPanel} (h : Idle curScore panel)
    (draw : Draw) : (panel.fill draw).init = panel := by
  rw [h.stocked.fill_eq draw, AnimationPanel.init, h.initPosition, if_neg Bool.false_ne_true]

/-- A paint at the dock costs one point. -/
theorem Idle.stay {curScore : ℕ} {panel : AnimationPanel} (h : Idle curScore panel) :
    (panel.curScore - 1).toInt = curScore - 1 ∧
      panel.stay = { panel with
        curScore := panel.curScore - 1
        earnPoints := false
        start := if panel.curScore - 1 < 0 then false else panel.start
        docked := panel.docked + 1 } := by
  have hpaid : panel.paid = panel.curScore - 1 := by
    rw [AnimationPanel.paid, h.earnPoints, if_neg Bool.false_ne_true]
  refine ⟨?_, ?_⟩
  · have hbound := panel.curScore.toInt_lt
    have hone : (1 : Int32).toInt = 1 := rfl
    rw [Java.toInt_sub_of_bounds, h.curScore, hone]
    · rw [h.curScore, hone]
      omega
    · rw [hone]
      omega
  · rw [AnimationPanel.stay, if_pos h.start, AnimationPanel.setScore_eq, hpaid]

/-- A ship that stays at the dock loses a point in a paint. -/
theorem Idle.paint {curScore : ℕ} {panel : AnimationPanel} (trig : Trigonometry)
    (h : Idle (curScore + 1) panel) (draw : Draw) :
    Idle curScore (panel.step trig (.paint draw)) := by
  have hready := h.ready draw
  obtain ⟨ship, -, hlanded, hpaint⟩ := (hready.symm ▸ h.docked).step_paint trig draw
  obtain ⟨hpaid, hstay⟩ := h.stay
  have hscore : ¬panel.curScore - 1 < 0 := by
    rw [Int32.lt_iff_toInt_lt, hpaid]
    exact Int.not_lt.mpr (Int.le_sub_one_of_lt (Int.natCast_pos.mpr (Nat.succ_pos curScore)))
  have hafter : (panel.curScore - 1).toInt = curScore := by
    rw [hpaid, Int.natCast_succ, Int.add_sub_cancel]
  rw [hready, hstay, if_neg hscore] at hpaint
  have hlength : (panel.moonAnimations.map (Animation.repaint trig)).length =
      panel.moonAnimations.length := List.length_map _
  rw [hpaint]
  exact ⟨⟨h.docked.moonLanded, hlanded, h.docked.moonCounter.trans_eq hlength.symm,
      fun hone => h.docked.several (hlength.symm.trans hone), h.docked.destroy, h.docked.died⟩,
    ⟨h.stocked.moonNum, h.stocked.asteroidNum, h.stocked.moonCounter,
      hlength.trans_le h.stocked.moons_le, (List.length_map _).trans h.stocked.asteroids⟩,
    h.initPosition, h.start, rfl, hafter⟩

/-- The last point of the score is the end of the game. -/
theorem Idle.ended {panel : AnimationPanel} (trig : Trigonometry) (h : Idle 0 panel)
    (draw : Draw) : (panel.step trig (.paint draw)).start = false ∧
      (panel.step trig (.paint draw)).curScore < 0 := by
  have hready := h.ready draw
  obtain ⟨ship, -, hlanded, hpaint⟩ := (hready.symm ▸ h.docked).step_paint trig draw
  obtain ⟨hpaid, hstay⟩ := h.stay
  have hscore : panel.curScore - 1 < 0 := by
    rw [Int32.lt_iff_toInt_lt, hpaid]
    exact Int.negSucc_lt_zero 0
  rw [hready, hstay, if_pos hscore] at hpaint
  rw [hpaint]
  exact ⟨rfl, hscore⟩

/-- The ship stays at the dock for as many paints as there are points, and for one more. -/
theorem Idle.run {curScore : ℕ} {panel : AnimationPanel} (trig : Trigonometry)
    (h : Idle curScore panel) (draw : Draw) :
    ((game trig).run panel (List.replicate (curScore + 1) (.paint draw))).start = false ∧
      ((game trig).run panel (List.replicate (curScore + 1) (.paint draw))).curScore < 0 := by
  induction curScore generalizing panel with
  | zero => exact h.ended trig draw
  | succ curScore ih => exact ih (h.paint trig draw)

/-- The ship stays at the dock of a new game. -/
theorem Idle.opening : Idle 999 ((game TankGame.eastward).run .new opening) :=
  ⟨⟨rfl, rfl, by decide +kernel, by decide +kernel, rfl, rfl⟩,
    ⟨rfl, rfl, by decide +kernel, by decide +kernel, rfl⟩, rfl, rfl, rfl, rfl⟩

/-- The ship stays at the dock until the score is below zero. -/
def waited : List Event := opening ++ List.replicate 1000 (.paint .quiet)

/-- The game is over then, and enter starts no new one. -/
theorem not_fresh_waited :
    Over ((game TankGame.eastward).run .new waited) ∧
      ¬Fresh ((game TankGame.eastward).run .new (waited ++ restart .quiet)) := by
  have hover := Idle.opening.run TankGame.eastward .quiet
  rw [← TotalMachine.run_append] at hover
  refine ⟨Or.inr hover, ?_⟩
  rw [TotalMachine.run_append]
  exact (Round.run TankGame.eastward waited).not_fresh_restart TankGame.eastward hover.2 .quiet

end Coursework.GalacticMail
