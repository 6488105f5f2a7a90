import Coursework.GalacticMail.Dock

/-!
# Speed and level

The next level makes everything faster by the same amount. The moons that it makes are new, and
start from the speed of the first level: they are too slow from the third level on.
-/

namespace Coursework.GalacticMail

open TankGame (Trigonometry)
open Transition

/-- Moons, asteroids and the ship have the speed of the level. -/
structure AtSpeed (panel : AnimationPanel) : Prop where
  moons : ∀ moon ∈ panel.moonAnimations, moon.speed = 8 + 3 * (panel.level - 1)
  asteroids : ∀ asteroid ∈ panel.asteroidAnimations, asteroid.speed = 8 + 3 * (panel.level - 1)
  step : panel.ship.step = 10 + 3 * (panel.level - 1)

/-- In a game with moons and asteroids, everything has the speed of the level. -/
def Scaled (panel : AnimationPanel) : Prop :=
  panel.died = false → panel.moonAnimations ≠ [] → panel.asteroidAnimations ≠ [] → AtSpeed panel

/-- The number of moons that a paint does not launch the ship from. -/
def AnimationPanel.remaining (panel : AnimationPanel) : ℕ :=
  if panel.moonLanded = true ∧ panel.ship.landed = false then panel.moonAnimations.length - 1
  else panel.moonAnimations.length

/-- A paint finds the ship docked at the only moon, or lands it there. -/
def Rises (panel : AnimationPanel) (draw : Draw) : Prop :=
  DockInBounds panel draw ∧ (panel.fill draw).init.remaining = 1 ∧
    ((panel.fill draw).init.ship.landed = true ∨ draw.touchesMoon 0 = true)

/-- The dock is left if there is a moon, or if the ship is in flight. -/
theorem AnimationPanel.exists_dock (panel : AnimationPanel)
    (hmoon : panel.moonLanded = true → panel.moonCounter < panel.moonAnimations.length) :
    ∃ docked, panel.dock = some docked := by
  rw [AnimationPanel.dock]
  split
  · rename_i hlanded
    rw [List.getElem?_eq_getElem (hmoon hlanded), Option.map_some]
    exact ⟨_, rfl⟩
  · exact ⟨_, rfl⟩

/-- What the dock leaves. -/
structure Docking (panel docked : AnimationPanel) : Prop where
  moon : panel.moonLanded = true → panel.moonCounter < panel.moonAnimations.length
  moons : docked.moonAnimations.length = panel.remaining
  asteroids : docked.asteroidAnimations = panel.asteroidAnimations
  scoreDataList : docked.scoreDataList = panel.scoreDataList
  landed : docked.ship.landed = panel.ship.landed
  flight : panel.ship.landed = false → docked.moonLanded = false
  level : docked.level = panel.level
  died : docked.died = panel.died
  destroy : docked.destroy = panel.destroy

/-- A ship that is docked is launched unless it is landed. -/
theorem AnimationPanel.docking (panel docked : AnimationPanel)
    (hdock : panel.dock = some docked) : Docking panel docked := by
  rw [AnimationPanel.dock] at hdock
  split at hdock
  · rename_i hmoonLanded
    obtain ⟨moon, hmoon, rfl⟩ := Option.map_eq_some_iff.mp hdock
    have hlt : panel.moonCounter < panel.moonAnimations.length :=
      (List.getElem?_eq_some_iff.mp hmoon).1
    obtain ⟨curScore, earnPoints, start, docked, hdockAt⟩ := panel.dockAt_eq moon
    rw [hdockAt]
    split
    · rename_i hlanded
      refine ⟨fun _ => hlt, ?_, rfl, rfl, rfl, fun hflight => ?_, rfl, rfl, rfl⟩
      · rw [AnimationPanel.remaining, if_neg]
        rintro ⟨-, hflight⟩
        exact absurd (hflight.symm.trans hlanded) Bool.false_ne_true
      · exact absurd (hflight.symm.trans hlanded) Bool.false_ne_true
    · rename_i hflight
      refine ⟨fun _ => hlt, ?_, rfl, rfl, rfl, fun _ => rfl, rfl, rfl, rfl⟩
      rw [AnimationPanel.remaining, if_pos ⟨hmoonLanded, Bool.eq_false_iff.mpr hflight⟩]
      exact List.length_eraseIdx_of_lt hlt
  · rename_i hflight
    obtain rfl := Option.some.inj hdock
    refine ⟨fun hlanded => absurd hlanded hflight, ?_, rfl, rfl, rfl,
      fun _ => Bool.eq_false_iff.mpr hflight, rfl, rfl, rfl⟩
    rw [AnimationPanel.remaining, if_neg fun h => hflight h.1]

/-- A launch leaves the others at their speed. -/
theorem AtSpeed.dockAt {panel : AnimationPanel} (h : AtSpeed panel) (moon : Animation) :
    AtSpeed (panel.dockAt moon) := by
  obtain ⟨curScore, earnPoints, start, docked, hdock⟩ := panel.dockAt_eq moon
  rw [hdock]
  split
  · exact ⟨h.moons, h.asteroids, h.step⟩
  · exact ⟨fun moon hmoon => h.moons moon (List.mem_of_mem_eraseIdx hmoon), h.asteroids, h.step⟩

/-- A crash brings everything back to the first level. -/
theorem AtSpeed.reset {panel : AnimationPanel} (h : AtSpeed panel) :
    AtSpeed panel.crash.reset := by
  have hcrash : AtSpeed panel.crash := by
    rw [AnimationPanel.crash]
    split
    · exact ⟨h.moons, h.asteroids, h.step⟩
    · exact h
  rw [AnimationPanel.reset]
  split
  · exact ⟨fun _ hmoon => absurd hmoon List.not_mem_nil,
      fun _ hasteroid => absurd hasteroid List.not_mem_nil, rfl⟩
  · exact hcrash

/-- From the first level to the second, everything is at the same speed. -/
theorem AtSpeed.risen {panel : AnimationPanel} (h : AtSpeed panel) (hlevel : panel.level = 1)
    (draw : Draw) : AtSpeed (panel.risen draw) := by
  obtain ⟨hmoons, hasteroids, hstep⟩ := h
  rw [hlevel] at hmoons hasteroids hstep
  have hfaster : ∀ animations : List Animation, (∀ animation ∈ animations,
      animation.speed = 8 + 3 * (1 - 1)) → ∀ animation ∈ animations.map
        (fun animation => animation.setSpeed speedIncreased),
          animation.speed = 8 + 3 * (1 + 1 - 1) := by
    intro animations hspeed animation hanimation
    obtain ⟨before, hbefore, rfl⟩ := List.mem_map.mp hanimation
    exact congrArg (· + speedIncreased) (hspeed before hbefore)
  rw [AnimationPanel.risen, hlevel]
  refine ⟨?_, hfaster panel.asteroidAnimations hasteroids,
    congrArg (· + speedIncreased) hstep⟩
  intro moon hmoon
  rcases List.mem_append.mp hmoon with hold | hnew
  · exact hfaster panel.moonAnimations hmoons moon hold
  · obtain ⟨k, -, rfl⟩ := List.mem_map.mp hnew
    rfl

/-- Everything in the first paint of a game is new. -/
theorem Cleared.atSpeed {panel : AnimationPanel} (h : Cleared panel) (draw : Draw) :
    AtSpeed (panel.fill draw).init := by
  have hnew : ∀ (size : ℤ) (choice : ℕ → Choice), ∀ animation ∈
      (List.range 4).map (fun k => Animation.new size (choice k)),
        animation.speed = 8 + 3 * (1 - 1) := by
    intro size choice animation hanimation
    obtain ⟨k, -, rfl⟩ := List.mem_map.mp hanimation
    rfl
  rw [h.fill_eq draw, h.level]
  exact ⟨hnew _ _, hnew _ _, h.step⟩

/-- There are no new moons in the next level that are as fast as they should be from the third level
on. -/
theorem not_atSpeed_risen (panel : AnimationPanel) (draw : Draw) (hlevel : 2 ≤ panel.level) :
    ¬AtSpeed (panel.risen draw) := by
  intro h
  have hnew : (Animation.new moonSize (draw.moon (4 + 0))).setSpeed speedIncreased ∈
      (panel.risen draw).moonAnimations := by
    refine List.mem_append_right _ (List.mem_map.mpr ⟨0, ?_, rfl⟩)
    exact List.mem_range.mpr (Nat.succ_pos 2)
  have hspeed : (11 : ℤ) = 8 + 3 * (panel.level + 1 - 1) := h.moons _ hnew
  omega

section Moves

variable (trig : Trigonometry)

/-- What the loops over moons and asteroids leave. -/
theorem AnimationPanel.painted_eq (panel : AnimationPanel) (draw : Draw) :
    (panel.painted trig draw).level = panel.level ∧
      (panel.painted trig draw).died = panel.died ∧
      (panel.painted trig draw).moonAnimations.length = panel.moonAnimations.length ∧
      ((panel.painted trig draw).ship.landed = true →
        (panel.painted trig draw).destroy = panel.destroy) := by
  have hlength : (panel.moonAnimations.map (Animation.repaint trig)).length =
      panel.moonAnimations.length := List.length_map _
  obtain ⟨destroy, hpaint, hdestroy⟩ := (panel.paintMoons trig draw).paintAsteroids_eq trig draw
  rw [AnimationPanel.painted, hpaint]
  have hmoons : (panel.paintMoons trig draw).level = panel.level ∧
      (panel.paintMoons trig draw).died = panel.died ∧
      (panel.paintMoons trig draw).moonAnimations.length = panel.moonAnimations.length ∧
      (panel.paintMoons trig draw).destroy = panel.destroy := by
    rcases panel.paintMoons_eq trig draw with hsame | ⟨-, counter, -, hland⟩
    · rw [hsame]
      exact ⟨rfl, rfl, hlength, rfl⟩
    · rw [hland]
      exact ⟨rfl, rfl, hlength, rfl⟩
  refine ⟨hmoons.1, hmoons.2.1, hmoons.2.2.1, fun hlanded => ?_⟩
  refine (hdestroy.resolve_right ?_).trans hmoons.2.2.2
  rintro ⟨-, hflight⟩
  exact absurd (hflight.symm.trans hlanded) Bool.false_ne_true

/-- With one moon, the ship is landed after the loops if it was before, or touches the moon. -/
theorem AnimationPanel.painted_landed (panel : AnimationPanel) (draw : Draw)
    (hone : panel.moonAnimations.length = 1) :
    (panel.painted trig draw).ship.landed = true ↔
      panel.ship.landed = true ∨ panel.moonLanded = false ∧ draw.touchesMoon 0 = true := by
  obtain ⟨destroy, hpaint, -⟩ := (panel.paintMoons trig draw).paintAsteroids_eq trig draw
  rw [AnimationPanel.painted, hpaint]
  change (panel.paintMoons trig draw).ship.landed = true ↔ _
  rw [AnimationPanel.paintMoons, hone]
  change (panel.meetMoon draw 0).ship.landed = true ↔ _
  rw [AnimationPanel.meetMoon]
  split
  · rename_i hmeet
    rw [Bool.and_eq_true, Bool.not_eq_true'] at hmeet
    exact iff_of_true rfl (Or.inr hmeet.symm)
  · rename_i hmeet
    rw [Bool.and_eq_true, Bool.not_eq_true'] at hmeet
    exact ⟨Or.inl, fun h => h.resolve_right fun hmet => hmeet hmet.symm⟩

/-- When a paint takes the branch of the next level. -/
theorem rises_iff (panel : AnimationPanel) (draw : Draw) :
    Rises panel draw ↔ ∃ docked, (panel.fill draw).init.dock = some docked ∧
      (docked.painted trig draw).moonAnimations.length = 1 ∧
      (docked.painted trig draw).ship.landed = true := by
  constructor
  · rintro ⟨hmoon, hone, hmet⟩
    obtain ⟨docked, hdock⟩ := (panel.fill draw).init.exists_dock hmoon
    have hdocking := (panel.fill draw).init.docking docked hdock
    obtain ⟨-, -, hlength, -⟩ := docked.painted_eq trig draw
    have hdockedOne := hdocking.moons.trans hone
    refine ⟨docked, hdock, hlength.trans hdockedOne, ?_⟩
    rw [docked.painted_landed trig draw hdockedOne, hdocking.landed]
    by_cases hlanded : (panel.fill draw).init.ship.landed = true
    · exact Or.inl hlanded
    · exact Or.inr ⟨hdocking.flight (Bool.eq_false_iff.mpr hlanded), hmet.resolve_left hlanded⟩
  · rintro ⟨docked, hdock, hone, hlanded⟩
    have hdocking := (panel.fill draw).init.docking docked hdock
    obtain ⟨-, -, hlength, -⟩ := docked.painted_eq trig draw
    rw [hlength] at hone
    rw [docked.painted_landed trig draw hone, hdocking.landed] at hlanded
    exact ⟨hdocking.moon, hdocking.moons.symm.trans hone, hlanded.imp_right And.right⟩

/-- A paint that takes the branch of the next level. -/
theorem Stocked.step_rises {panel : AnimationPanel} (h : Stocked panel) (halive : Alive panel)
    (draw : Draw) (hrises : Rises panel draw) :
    ∃ last, last.level = panel.level ∧ Stocked last ∧ last.died = false ∧
      panel.step trig (.paint draw) = (last.risen draw).fly trig := by
  obtain ⟨docked, hdock, hone, hlanded⟩ := (rises_iff trig panel draw).mp hrises
  have hdocking := (panel.fill draw).init.docking docked hdock
  obtain ⟨hlevel, hdied, -, hdestroy⟩ := docked.painted_eq trig draw
  have hready : (panel.fill draw).init.level = panel.level ∧
      (panel.fill draw).init.died = false ∧ (panel.fill draw).init.destroy = false := by
    rw [h.fill_eq draw, AnimationPanel.init]
    split <;> exact ⟨rfl, halive.died, halive.destroy⟩
  have hsafe := (hdestroy hlanded).trans (hdocking.destroy.trans hready.2.2)
  have hlives := hdied.trans (hdocking.died.trans hready.2.1)
  have hstocked := Round.ready (Or.inr ⟨h, halive⟩) draw
  have hdocked := AnimationPanel.dock_keeps hdock hstocked fun moon _ => hstocked.dockAt moon
  have hpainted : Stocked (docked.painted trig draw) :=
    (hdocked.paintMoons trig draw).paintAsteroids trig draw
  have hreset : (docked.painted trig draw).crash.reset = docked.painted trig draw := by
    rw [AnimationPanel.crash, hsafe, if_neg Bool.false_ne_true, AnimationPanel.reset, hlives,
      if_neg Bool.false_ne_true]
  refine ⟨docked.painted trig draw, hlevel.trans (hdocking.level.trans hready.1), hpainted,
    hlives, ?_⟩
  rw [AnimationPanel.step, AnimationPanel.paintComponent, hdock]
  change AnimationPanel.left (((docked.painted trig draw).crash.reset.levelUp draw).map _) = _
  rw [hreset, hpainted.levelUp_eq draw, if_pos ⟨hone, hlanded⟩]
  rfl

/-- A paint without moons leaves no moons. -/
theorem Round.paint_nil {panel : AnimationPanel} (h : Round panel) (draw : Draw)
    (hnil : (panel.fill draw).init.moonAnimations = []) :
    (panel.step trig (.paint draw)).moonAnimations = [] := by
  refine (h.paint_keeps (P := fun panel => panel.moonAnimations = []) trig draw hnil ?_ ?_
    (fun _ _ _ _ hnil => hnil) (fun _ hnil => hnil) (fun _ _ _ _ hnil => hnil) ?_ ?_
    fun _ hnil => hnil).2
  · intro moon _
    obtain ⟨curScore, earnPoints, start, docked, hdock⟩ :=
      (panel.fill draw).init.dockAt_eq moon
    rw [hdock, hnil]
    split <;> rfl
  · intro panel hnil
    exact List.map_eq_nil_iff.mpr hnil
  · intro panel hstocked hnil
    rcases hstocked.reset with ⟨hcleared, -⟩ | ⟨hsame, -⟩
    · exact hcleared.moonAnimations
    · rw [hsame]
      exact hnil
  · intro docked _ hone _ hnil
    rw [hnil] at hone
    exact absurd hone (Nat.succ_ne_zero 0).symm

/-- A paint keeps the speeds unless it takes the branch of the next level from the second level
on. -/
theorem AtSpeed.paint {panel : AnimationPanel} (hround : Round panel) (hlevel : 1 ≤ panel.level)
    (draw : Draw) (h : AtSpeed (panel.fill draw).init)
    (hsafe : 2 ≤ panel.level → ¬Rises panel draw) : AtSpeed (panel.step trig (.paint draw)) := by
  have hrepaint : ∀ (animations : List Animation) (speed : ℤ), (∀ animation ∈ animations,
      animation.speed = speed) → ∀ animation ∈ animations.map (Animation.repaint trig),
        animation.speed = speed := by
    intro animations speed hspeed animation hanimation
    obtain ⟨before, hbefore, rfl⟩ := List.mem_map.mp hanimation
    exact hspeed before hbefore
  refine (hround.paint_keeps trig draw h (fun moon _ => h.dockAt moon)
    (fun panel h => ⟨hrepaint panel.moonAnimations _ h.moons, h.asteroids, h.step⟩)
    (fun _ _ _ _ h => ⟨h.moons, h.asteroids, h.step⟩)
    (fun panel h => ⟨h.moons, hrepaint panel.asteroidAnimations _ h.asteroids, h.step⟩)
    (fun _ _ _ _ h => ⟨h.moons, h.asteroids, h.step⟩) (fun _ _ h => h.reset) ?_
    fun _ h => ⟨h.moons, h.asteroids, h.step⟩).2
  intro docked hdock hone hlanded h
  obtain ⟨hpaintedLevel, -⟩ := docked.painted_eq trig draw
  have hdocking := (panel.fill draw).init.docking docked hdock
  have hready : (panel.fill draw).init.level = panel.level := by
    rw [AnimationPanel.init]
    split <;> rfl
  have hfirst : ¬2 ≤ panel.level := fun htwo =>
    hsafe htwo ((rises_iff trig panel draw).mpr ⟨docked, hdock, hone, hlanded⟩)
  refine h.risen ?_ draw
  rw [hpaintedLevel, hdocking.level, hready]
  omega

/-- The level is never below the first. -/
theorem Round.paint_level {panel : AnimationPanel} (h : Round panel) (hlevel : 1 ≤ panel.level)
    (draw : Draw) : 1 ≤ (panel.step trig (.paint draw)).level := by
  have hready : 1 ≤ (panel.fill draw).init.level := by
    rw [AnimationPanel.init]
    split <;> exact hlevel
  refine (h.paint_keeps (P := fun panel => 1 ≤ panel.level) trig draw hready ?_
    (fun _ h => h) (fun _ _ _ _ h => h) (fun _ h => h) (fun _ _ _ _ h => h) ?_
    (fun _ _ _ _ h => Int.le_add_one h) fun _ h => h).2
  · intro moon _
    obtain ⟨curScore, earnPoints, start, docked, hdock⟩ :=
      (panel.fill draw).init.dockAt_eq moon
    rw [hdock]
    split <;> exact hready
  · intro panel hstocked h
    rcases hstocked.reset with ⟨hcleared, -⟩ | ⟨hsame, -⟩
    · exact hcleared.level.ge
    · rw [hsame]
      exact h

/-- When a paint leaves everything at the speed of the level. -/
theorem scaled_paint_iff {panel : AnimationPanel} (hround : Round panel)
    (hlevel : 1 ≤ panel.level) (h : Scaled panel) (draw : Draw) :
    Scaled (panel.step trig (.paint draw)) ↔ (2 ≤ panel.level → ¬Rises panel draw) := by
  constructor
  · intro hscaled htwo hrises
    rcases hround with hcleared | ⟨hstocked, halive⟩
    · rw [hcleared.level] at htwo
      exact absurd htwo (by decide)
    · obtain ⟨last, hlast, hlastStocked, hdied, hstep⟩ :=
        hstocked.step_rises trig halive draw hrises
      rw [hstep] at hscaled
      have hmoons : ((last.risen draw).fly trig).moonAnimations ≠ [] := by
        refine List.append_ne_nil_of_right_ne_nil _ ?_
        exact List.cons_ne_nil _ _
      have hasteroids : ((last.risen draw).fly trig).asteroidAnimations ≠ [] := by
        refine List.ne_nil_of_length_pos ?_
        rw [show ((last.risen draw).fly trig).asteroidAnimations.length = 4 from
          (List.length_map _).trans hlastStocked.asteroids]
        exact Nat.succ_pos 3
      obtain ⟨hspeeds, hothers, hship⟩ := hscaled hdied hmoons hasteroids
      exact not_atSpeed_risen last draw (hlast ▸ htwo) ⟨hspeeds, hothers, hship⟩
  · intro hsafe
    by_cases hnil : (panel.fill draw).init.moonAnimations = []
    · exact fun _ hmoons => absurd (hround.paint_nil trig draw hnil) hmoons
    · refine fun _ _ _ => AtSpeed.paint trig hround hlevel draw ?_ hsafe
      rcases hround with hcleared | ⟨hstocked, halive⟩
      · exact hcleared.atSpeed draw
      · have hasteroids : panel.asteroidAnimations ≠ [] := by
          refine List.ne_nil_of_length_pos ?_
          rw [hstocked.asteroids]
          exact Nat.succ_pos 3
        rw [hstocked.fill_eq draw, AnimationPanel.init] at hnil ⊢
        split
        · rename_i hinit
          rw [if_pos hinit] at hnil
          obtain ⟨hmoons, hothers, hstep⟩ := h halive.died hnil hasteroids
          exact ⟨hmoons, hothers, hstep⟩
        · rename_i hinit
          rw [if_neg hinit] at hnil
          exact h halive.died hnil hasteroids

end Moves

/-- What is not painted keeps its speed. -/
theorem Scaled.tick {panel : AnimationPanel} (h : Scaled panel) (hround : Round panel) :
    Scaled panel.tick := by
  rcases hround with hcleared | ⟨-, halive⟩
  · exact fun _ hmoons => absurd hcleared.tick.moonAnimations hmoons
  · obtain ⟨ship, hstep, -, htick⟩ := panel.tick_eq
    intro _
    rw [htick]
    split
    · intro hmoons hasteroids
      obtain ⟨hspeeds, hothers, hship⟩ := h halive.died hmoons hasteroids
      exact ⟨hspeeds, hothers, hstep.trans hship⟩
    · intro hmoons hasteroids
      obtain ⟨hspeeds, hothers, hship⟩ := h halive.died hmoons hasteroids
      exact ⟨hspeeds, hothers, hstep.trans hship⟩

/-- A panel between two events, with a level. -/
def Leveled (panel : AnimationPanel) : Prop := Round panel ∧ 1 ≤ panel.level

/-- What an event does to the speeds. -/
theorem Leveled.step {panel : AnimationPanel} (trig : Trigonometry) (h : Leveled panel)
    (event : Event) (hscaled : Scaled panel) :
    Leveled (panel.step trig event) ∧ (Scaled (panel.step trig event) ↔
      ∀ draw, event = .paint draw → 2 ≤ panel.level → ¬Rises panel draw) := by
  obtain ⟨hround, hlevel⟩ := h
  cases event with
  | keyPressed key =>
    refine ⟨⟨hround.setKey key true, hlevel⟩, iff_of_true ?_ nofun⟩
    intro hdied hmoons hasteroids
    obtain ⟨hspeeds, hothers, hship⟩ := hscaled hdied hmoons hasteroids
    exact ⟨hspeeds, hothers, hship⟩
  | keyReleased key =>
    refine ⟨⟨hround.setKey key false, hlevel⟩, iff_of_true ?_ nofun⟩
    intro hdied hmoons hasteroids
    obtain ⟨hspeeds, hothers, hship⟩ := hscaled hdied hmoons hasteroids
    exact ⟨hspeeds, hothers, hship⟩
  | tick =>
    refine ⟨⟨hround.tick, ?_⟩, iff_of_true (hscaled.tick hround) nofun⟩
    obtain ⟨ship, -, -, htick⟩ := panel.tick_eq
    change 1 ≤ panel.tick.level
    rw [htick]
    split <;> exact hlevel
  | paint draw =>
    refine ⟨⟨hround.paint trig draw, hround.paint_level trig hlevel draw⟩,
      (scaled_paint_iff trig hround hlevel hscaled draw).trans ?_⟩
    constructor
    · rintro hsafe _ ⟨⟩
      exact hsafe
    · exact fun hsafe => hsafe draw rfl

/-- Whatever is played, the speeds at the end of every paint are those of the level exactly as long
as no paint takes the branch of the next level from the second level on. -/
theorem run_scaled_iff (trig : Trigonometry) (events : List Event) :
    (∀ front draw, front ++ [.paint draw] <+: events →
        Scaled ((game trig).run .new (front ++ [.paint draw]))) ↔
      ∀ front draw, front ++ [.paint draw] <+: events →
        2 ≤ ((game trig).run .new front).level → ¬Rises ((game trig).run .new front) draw := by
  have hall := (game trig).forall_prefix_iff Leveled Scaled
    (fun panel event => ∀ draw, event = .paint draw → 2 ≤ panel.level → ¬Rises panel draw)
    (fun panel event hleveled hscaled => hleveled.step trig event hscaled) .new
    ⟨Or.inl .new, Int.le_refl 1⟩ (fun _ hmoons => absurd rfl hmoons) events
  have hpaints : (∀ front draw, front ++ [.paint draw] <+: events →
      Scaled ((game trig).run .new (front ++ [.paint draw]))) ↔
        ∀ front, front <+: events → Scaled ((game trig).run .new front) := by
    refine ⟨fun hscaled => ?_, fun hscaled front draw => hscaled _⟩
    have hboth : ∀ front, front <+: events →
        Leveled ((game trig).run .new front) ∧ Scaled ((game trig).run .new front) := by
      intro front
      induction front using List.reverseRecOn with
      | nil => exact fun _ => ⟨⟨Or.inl .new, Int.le_refl 1⟩, fun _ hmoons => absurd rfl hmoons⟩
      | append_singleton earlier event ih =>
        intro hfront
        obtain ⟨hleveled, hbefore⟩ := ih ((List.prefix_append earlier [event]).trans hfront)
        obtain ⟨hnext, hiff⟩ := hleveled.step trig event hbefore
        cases event with
        | paint draw =>
          have hafter := hscaled earlier draw hfront
          rw [TotalMachine.run_append_singleton] at hafter ⊢
          exact ⟨hnext, hafter⟩
        | _ =>
          rw [TotalMachine.run_append_singleton]
          exact ⟨hnext, hiff.mpr nofun⟩
    exact fun front hfront => (hboth front hfront).2
  rw [hpaints, hall]
  constructor
  · exact fun hsafe front draw hfront => hsafe front _ hfront draw rfl
  · rintro hsafe front _ hfront draw rfl
    exact hsafe front draw hfront

/-- A launch, and the landing on the first moon that is left. -/
def hop : List Event := launch ++ [.paint (.landing 0)]

/-- Six moons are visited after the first. -/
def toured : List Event := opening ++ hop ++ hop ++ hop ++ hop ++ hop ++ hop

/-- The third level has moons of the first. -/
theorem not_scaled_toured : ¬Scaled ((game TankGame.eastward).run .new toured) := by
  intro hscaled
  have hspeeds := (hscaled (by decide +kernel) (List.ne_nil_of_length_pos (by decide +kernel))
    (List.ne_nil_of_length_pos (by decide +kernel))).moons
  revert hspeeds
  decide +kernel

end Coursework.GalacticMail
