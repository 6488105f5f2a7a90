import Coursework.GalacticMail.Dock
import Coursework.Java.Rectangle

/-!
# Where the ship is tested and where it is drawn

The rectangle that is tested against moons and asteroids lies at the next place of the ship and
has the size of its image, while the ship is drawn, and comes back at the other side, at its
present place. The two are the same in flight as long as the ship was turned before, the last
flight stayed within the panel, and the ship is not on its way to the dock.
-/

namespace Coursework.GalacticMail

open Java Transition
open TankGame (Trigonometry)

/-- `getRectangle` of the ship. -/
def ShipObject.getRectangle (ship : ShipObject) : Rectangle :=
  ⟨ship.nextX, ship.nextY, ship.width, ship.height⟩

/-- A coordinate at which a frame is within reach of the panel. -/
def Within (position : ℤ) : Prop := -48 ≤ position ∧ position ≤ 600

instance decidableWithin (position : ℤ) : Decidable (Within position) :=
  inferInstanceAs (Decidable (_ ∧ _))

/-- The place of the ship is within reach of the panel. -/
structure ShipObject.Inside (ship : ShipObject) : Prop where
  x : Within ship.x
  y : Within ship.y

/-- The next place of the ship is within reach of the panel. -/
structure ShipObject.Bound (ship : ShipObject) : Prop where
  nextX : Within ship.nextX
  nextY : Within ship.nextY

/-- A paint that starts in flight tests the frame of the ship where the ship is. -/
def TestsFrame (panel : AnimationPanel) (draw : Draw) : Prop :=
  panel.moonLanded = false → panel.ship.landed = false →
    ∀ docked, (panel.fill draw).init.dock = some docked →
      docked.ship.getRectangle = ⟨docked.ship.x, docked.ship.y, 48, 48⟩

/-- In flight, the ship was turned before and the last flight stayed within the panel; or it is
taken to a dock, and the moon there, if there is one, is at the next place of a ship turned
before. -/
def FrameInPlace (panel : AnimationPanel) (draw : Draw) : Prop :=
  panel.moonLanded = false → panel.ship.landed = false →
    if panel.initPosition then
      ∀ moon, (panel.fill draw).moonAnimations[panel.moonCounter]? = some moon →
        panel.ship.width = 48 ∧ moon.x = panel.ship.nextX ∧ moon.y = panel.ship.nextY
    else panel.ship.width = 48 ∧ panel.ship.Bound

/-- The place of the ship and its next place agree exactly if the flight stayed within the panel. -/
structure ShipObject.Synced (ship : ShipObject) : Prop where
  x : ship.x = ship.nextX ↔ Within ship.nextX
  y : ship.y = ship.nextY ↔ Within ship.nextY

/-- The image of the ship is a frame or the whole strip. -/
structure ShipObject.Imaged (ship : ShipObject) : Prop where
  width : ship.width = 48 ∨ ship.width = 3456
  height : ship.height = 48

section Moves

variable (trig : Trigonometry)

/-- The stages of a paint before the flight. -/
def AnimationPanel.beforeFlight (panel : AnimationPanel) (draw : Draw) :
    Except AnimationPanel AnimationPanel :=
  match (panel.fill draw).init.dock with
  | some docked =>
    (((docked.paintMoons trig draw).paintAsteroids trig draw).crash.reset).levelUp draw
  | none => .error (panel.fill draw).init

/-- A paint ends with the flight. -/
theorem AnimationPanel.paintComponent_eq (panel : AnimationPanel) (draw : Draw) :
    panel.paintComponent trig draw =
      (panel.beforeFlight trig draw).map (AnimationPanel.fly trig) := by
  rw [AnimationPanel.paintComponent, AnimationPanel.beforeFlight]
  cases (panel.fill draw).init.dock <;> rfl

/-- The flight of a paint with the strip for an image does not leave the panel to the right, and to
the left by less than a frame or more than the strip. -/
def StripStaysInside (panel : AnimationPanel) (draw : Draw) : Prop :=
  ∀ before, panel.beforeFlight trig draw = .ok before →
    panel.ship.width = 48 ∨ Within (before.ship.forwardMove trig).nextX ∨
      (before.ship.forwardMove trig).nextX < -3456

/-- A paint tests the frame of a ship in flight where the ship is, and leaves the ship within reach
of the panel. -/
def PaintInPlace (panel : AnimationPanel) : Event → Prop
  | .paint draw => TestsFrame panel draw ∧ (panel.step trig (.paint draw)).ship.Inside
  | _ => True

/-- The condition for a paint. -/
def FliesInPlace (panel : AnimationPanel) : Event → Prop
  | .paint draw => FrameInPlace panel draw ∧ StripStaysInside trig panel draw
  | _ => True

end Moves

/-- A coordinate after a flight is within reach if the object is a frame. -/
theorem within_outOfBound (position : ℤ) : Within (outOfBound 48 position) := by
  rw [Within, outOfBound, panelSize]
  split_ifs <;> omega

/-- A coordinate after a flight of the strip is within reach if it was, or if the strip was far to
the left. -/
theorem within_outOfBound_strip_iff (position : ℤ) :
    Within (outOfBound 3456 position) ↔ Within position ∨ position < -3456 := by
  rw [Within, Within, outOfBound, panelSize]
  split_ifs <;> omega

/-- A coordinate within reach stays as it is exactly if it was within reach. -/
theorem outOfBound_eq_iff {size position : ℤ} (hsize : 48 ≤ size)
    (h : Within (outOfBound size position)) : outOfBound size position = position ↔ Within position := by
  rw [Within, outOfBound, panelSize] at h
  rw [Within, outOfBound, panelSize]
  split_ifs at h ⊢ <;> omega

/-- The tests and repaints of a paint do not move the ship. -/
theorem AnimationPanel.painted_ship (trig : Trigonometry) (panel : AnimationPanel) (draw : Draw) :
    (panel.painted trig draw).ship = panel.ship ∨
      (panel.painted trig draw).ship = panel.ship.setLanded true := by
  obtain ⟨destroy, hasteroids, -⟩ := (panel.paintMoons trig draw).paintAsteroids_eq trig draw
  rw [AnimationPanel.painted, hasteroids]
  rcases panel.paintMoons_eq trig draw with hmoons | ⟨-, counter, -, hmoons⟩
  · rw [hmoons]
    exact Or.inl rfl
  · rw [hmoons]
    exact Or.inr rfl

/-- At the dock, the ship is put on the moon. -/
theorem AnimationPanel.dockAt_ship (panel : AnimationPanel) (moon : Animation) :
    (panel.dockAt moon).ship = panel.ship.place moon.x moon.y := by
  obtain ⟨curScore, earnPoints, start, docked, hdock⟩ := panel.dockAt_eq moon
  rw [hdock]
  split <;> rfl

/-- The rectangle of a ship is that of its frame where the ship is exactly if the image is a frame
and the next place is the place. -/
theorem ShipObject.Imaged.getRectangle_eq_iff {ship : ShipObject} (h : ship.Imaged) (x y : ℤ) :
    ship.getRectangle = ⟨x, y, 48, 48⟩ ↔ ship.width = 48 ∧ x = ship.nextX ∧ y = ship.nextY := by
  rw [ShipObject.getRectangle, Rectangle.mk.injEq, h.height]
  constructor
  · rintro ⟨hx, hy, hwidth, -⟩
    exact ⟨hwidth, hx.symm, hy.symm⟩
  · rintro ⟨hwidth, hx, hy⟩
    exact ⟨hx.symm, hy.symm, hwidth, rfl⟩

/-- A ship on its way to the dock is put on the moon there, if there is one. -/
theorem AnimationPanel.dock_of_initPosition {panel : AnimationPanel}
    (hinit : panel.initPosition = true) :
    panel.init.dock = panel.moonAnimations[panel.moonCounter]?.map panel.init.dockAt := by
  rw [AnimationPanel.init, if_pos hinit]
  rfl

/-- A ship in flight that is not on its way to the dock flies on. -/
theorem AnimationPanel.dock_of_flight {panel : AnimationPanel} (hinit : panel.initPosition ≠ true)
    (hflight : panel.moonLanded = false) : panel.init.dock = some panel := by
  rw [AnimationPanel.init, if_neg hinit, AnimationPanel.dock]
  exact if_neg (hflight ▸ Bool.false_ne_true)

/-- A paint that starts in flight tests the frame of the ship where it is exactly under its
condition. -/
theorem testsFrame_iff {panel : AnimationPanel} (himaged : panel.ship.Imaged)
    (hsynced : panel.ship.Synced) (draw : Draw) : TestsFrame panel draw ↔ FrameInPlace panel draw := by
  refine imp_congr_right fun hflight => imp_congr_right fun hlanded => ?_
  by_cases hinit : panel.initPosition = true
  · have hdock : (panel.fill draw).init.dock =
        (panel.fill draw).moonAnimations[panel.moonCounter]?.map (panel.fill draw).init.dockAt :=
      AnimationPanel.dock_of_initPosition hinit
    have hship : (panel.fill draw).init.ship = panel.ship.setLanded true := by
      have hfilled : (panel.fill draw).initPosition = true := hinit
      rw [AnimationPanel.init, if_pos hfilled]
      rfl
    have hrectangle : ∀ moon : Animation,
        ((panel.fill draw).init.dockAt moon).ship.getRectangle =
            ⟨((panel.fill draw).init.dockAt moon).ship.x,
              ((panel.fill draw).init.dockAt moon).ship.y, 48, 48⟩ ↔
          panel.ship.width = 48 ∧ moon.x = panel.ship.nextX ∧ moon.y = panel.ship.nextY := by
      intro moon
      rw [AnimationPanel.dockAt_ship, hship]
      exact himaged.getRectangle_eq_iff moon.x moon.y
    rw [if_pos hinit, hdock]
    constructor
    · intro h moon hmoon
      exact (hrectangle moon).mp (h _ (by rw [hmoon, Option.map_some]))
    · intro h docked hdocked
      obtain ⟨moon, hmoon, rfl⟩ := Option.map_eq_some_iff.mp hdocked
      exact (hrectangle moon).mpr (h moon hmoon)
  · have hdock : (panel.fill draw).init.dock = some (panel.fill draw) :=
      AnimationPanel.dock_of_flight hinit hflight
    have hrectangle := himaged.getRectangle_eq_iff panel.ship.x panel.ship.y
    rw [hsynced.x, hsynced.y] at hrectangle
    rw [if_neg hinit, hdock]
    constructor
    · intro h
      obtain ⟨hwidth, hx, hy⟩ := hrectangle.mp (h (panel.fill draw) rfl)
      exact ⟨hwidth, hx, hy⟩
    · rintro ⟨hwidth, hbound⟩ docked hdocked
      obtain rfl := Option.some.inj hdocked
      exact hrectangle.mpr ⟨hwidth, hbound.nextX, hbound.nextY⟩

/-- The ship is where a run can take it, if every paint leaves it within reach of the panel. -/
structure Reached (panel : AnimationPanel) : Prop where
  round : Round panel
  imaged : panel.ship.Imaged
  synced : panel.ship.Synced
  inside : panel.ship.Inside

/-- A ship that stays where it is, and keeps its image or becomes a frame. -/
structure ShipObject.Stays (before after : ShipObject) : Prop where
  x : after.x = before.x
  y : after.y = before.y
  nextX : after.nextX = before.nextX
  nextY : after.nextY = before.nextY
  image : after.width = before.width ∧ after.height = before.height ∨
    after.width = 48 ∧ after.height = 48

/-- A ship that stays within reach is within reach. -/
theorem ShipObject.Stays.inside {before after : ShipObject} (h : before.Stays after)
    (hinside : before.Inside) : after.Inside := ⟨h.x ▸ hinside.x, h.y ▸ hinside.y⟩

/-- A ship that stays is still where a run can take it. -/
theorem Reached.of_stays {panel next : AnimationPanel} (h : Reached panel) (hround : Round next)
    (hstays : panel.ship.Stays next.ship) : Reached next where
  round := hround
  imaged := by
    rcases hstays.image with ⟨hwidth, hheight⟩ | ⟨hwidth, hheight⟩
    · exact ⟨hwidth ▸ h.imaged.width, hheight.trans h.imaged.height⟩
    · exact ⟨Or.inl hwidth, hheight⟩
  synced := by
    refine ⟨?_, ?_⟩
    · rw [hstays.x, hstays.nextX]
      exact h.synced.x
    · rw [hstays.y, hstays.nextY]
      exact h.synced.y
  inside := hstays.inside h.inside

/-- New moons and asteroids, and a ship on its way to the dock, are where the ship was. -/
theorem AnimationPanel.ready_stays (panel : AnimationPanel) (draw : Draw) :
    panel.ship.Stays (panel.fill draw).init.ship := by
  rw [AnimationPanel.init]
  split <;> exact ⟨rfl, rfl, rfl, rfl, Or.inl ⟨rfl, rfl⟩⟩

/-- A tick turns the ship at most. -/
theorem AnimationPanel.tick_stays (panel : AnimationPanel) : panel.ship.Stays panel.tick.ship := by
  have hsame : panel.ship.Stays panel.ship := ⟨rfl, rfl, rfl, rfl, Or.inl ⟨rfl, rfl⟩⟩
  have hsteer : panel.ship.Stays panel.steer.ship := by
    rw [AnimationPanel.steer]
    split
    · refine AnimationPanel.whenPressed_keeps (P := fun next => panel.ship.Stays next.ship) .space
        (AnimationPanel.whenPressed_keeps (P := fun next => panel.ship.Stays next.ship) .right
          (AnimationPanel.whenPressed_keeps (P := fun next => panel.ship.Stays next.ship) .left hsame
            ?_) ?_) ?_
      · exact fun _ h => ⟨h.x, h.y, h.nextX, h.nextY, Or.inr ⟨rfl, rfl⟩⟩
      · exact fun _ h => ⟨h.x, h.y, h.nextX, h.nextY, Or.inr ⟨rfl, rfl⟩⟩
      · exact fun _ h => ⟨h.x, h.y, h.nextX, h.nextY, h.image⟩
    · exact hsame
  rw [AnimationPanel.tick]
  exact AnimationPanel.whenPressed_keeps (P := fun next => panel.ship.Stays next.ship) .enter hsteer
    fun _ h => h

section Moves

variable (trig : Trigonometry)

/-- A crash and the start of a new game after it keep the image of the ship. -/
theorem AnimationPanel.reset_image (panel : AnimationPanel) :
    panel.crash.reset.ship.width = panel.ship.width ∧
      panel.crash.reset.ship.height = panel.ship.height := by
  rw [AnimationPanel.reset, AnimationPanel.crash]
  split_ifs <;> exact ⟨rfl, rfl⟩

/-- The dock keeps the image of the ship. -/
theorem AnimationPanel.dock_image {panel docked : AnimationPanel} (hdock : panel.init.dock = some docked) :
    docked.ship.width = panel.ship.width ∧ docked.ship.height = panel.ship.height := by
  have hinit : panel.init.ship.width = panel.ship.width ∧
      panel.init.ship.height = panel.ship.height := by
    rw [AnimationPanel.init]
    split <;> exact ⟨rfl, rfl⟩
  refine AnimationPanel.dock_keeps (P := fun next => next.ship.width = panel.ship.width ∧
    next.ship.height = panel.ship.height) hdock hinit fun moon _ => ?_
  rw [AnimationPanel.dockAt_ship]
  exact hinit

/-- The tests and repaints keep the image of the ship. -/
theorem AnimationPanel.painted_image (panel : AnimationPanel) (draw : Draw) :
    (panel.painted trig draw).ship.width = panel.ship.width ∧
      (panel.painted trig draw).ship.height = panel.ship.height := by
  rcases panel.painted_ship trig draw with hsame | hlanded
  · rw [hsame]
    exact ⟨rfl, rfl⟩
  · rw [hlanded]
    exact ⟨rfl, rfl⟩

/-- Before the flight, a paint breaks off with the ship where it was, or has not changed its
image. -/
theorem Round.beforeFlight {panel : AnimationPanel} (h : Round panel) (draw : Draw) :
    panel.beforeFlight trig draw = .error (panel.fill draw).init ∨
      ∃ before, panel.beforeFlight trig draw = .ok before ∧
        before.ship.width = panel.ship.width ∧ before.ship.height = panel.ship.height := by
  rw [AnimationPanel.beforeFlight]
  cases hdock : (panel.fill draw).init.dock with
  | none => exact Or.inl rfl
  | some docked =>
    right
    have hstocked := h.ready draw
    have hdocked : Stocked docked :=
      AnimationPanel.dock_keeps hdock hstocked fun moon _ => hstocked.dockAt moon
    have hpainted : Stocked (docked.painted trig draw) :=
      (hdocked.paintMoons trig draw).paintAsteroids trig draw
    obtain ⟨hdockWidth, hdockHeight⟩ := AnimationPanel.dock_image hdock
    obtain ⟨hpaintWidth, hpaintHeight⟩ := docked.painted_image trig draw
    have hwidth := hpaintWidth.trans hdockWidth
    have hheight := hpaintHeight.trans hdockHeight
    have hreset := (docked.painted trig draw).reset_image
    change ∃ before, (docked.painted trig draw).crash.reset.levelUp draw = .ok before ∧ _
    rcases hpainted.reset with ⟨hcleared, -⟩ | ⟨hsame, -⟩
    · rw [hcleared.levelUp draw]
      exact ⟨_, rfl, hreset.1.trans hwidth, hreset.2.trans hheight⟩
    · rw [hsame, hpainted.levelUp_eq draw]
      refine ⟨_, rfl, ?_⟩
      split
      · exact ⟨hwidth, hheight⟩
      · exact ⟨hwidth, hheight⟩

/-- A ship after its flight. -/
theorem AnimationPanel.fly_ship (panel : AnimationPanel) :
    (panel.fly trig).ship.x =
        GalacticMail.outOfBound panel.ship.width (panel.ship.forwardMove trig).nextX ∧
      (panel.fly trig).ship.y =
        GalacticMail.outOfBound panel.ship.height (panel.ship.forwardMove trig).nextY ∧
      (panel.fly trig).ship.nextX = (panel.ship.forwardMove trig).nextX ∧
      (panel.fly trig).ship.nextY = (panel.ship.forwardMove trig).nextY :=
  ⟨rfl, rfl, rfl, rfl⟩

/-- A flight of a frame or of the strip leaves the ship in step with its next place, if it is within
reach. -/
theorem AnimationPanel.fly_synced {panel : AnimationPanel} (himaged : panel.ship.Imaged)
    (hinside : (panel.fly trig).ship.Inside) : (panel.fly trig).ship.Synced := by
  have hwidth : 48 ≤ panel.ship.width := by
    rcases himaged.width with hframe | hstrip <;> omega
  exact ⟨outOfBound_eq_iff hwidth hinside.x, outOfBound_eq_iff himaged.height.ge hinside.y⟩

/-- A flight leaves the ship within reach exactly if its image is a frame or the strip stays
inside. -/
theorem AnimationPanel.fly_inside_iff {panel : AnimationPanel} (himaged : panel.ship.Imaged) :
    (panel.fly trig).ship.Inside ↔
      panel.ship.width = 48 ∨ Within (panel.ship.forwardMove trig).nextX ∨
        (panel.ship.forwardMove trig).nextX < -3456 := by
  obtain ⟨hx, hy, -⟩ := panel.fly_ship trig
  have hbottom : Within (panel.fly trig).ship.y := by
    rw [hy, himaged.height]
    exact within_outOfBound _
  have hiff : (panel.fly trig).ship.Inside ↔ Within (panel.fly trig).ship.x :=
    ⟨ShipObject.Inside.x, fun h => ⟨h, hbottom⟩⟩
  rw [hiff, hx]
  rcases himaged.width with hframe | hstrip
  · rw [hframe]
    exact iff_of_true (within_outOfBound _) (Or.inl rfl)
  · rw [hstrip, within_outOfBound_strip_iff]
    exact ⟨Or.inr, fun h => h.resolve_left (by decide)⟩

/-- A paint leaves the ship within reach exactly under its condition. -/
theorem Reached.inside_iff {panel : AnimationPanel} (h : Reached panel) (draw : Draw) :
    (panel.step trig (.paint draw)).ship.Inside ↔ StripStaysInside trig panel draw := by
  rw [StripStaysInside, AnimationPanel.step, AnimationPanel.paintComponent_eq]
  rcases h.round.beforeFlight trig draw with hbroken | ⟨before, hbefore, hwidth, hheight⟩
  · rw [hbroken]
    refine iff_of_true ((panel.ready_stays draw).inside h.inside) ?_
    intro before hbefore
    injection hbefore
  · have himaged : before.ship.Imaged :=
      ⟨hwidth ▸ h.imaged.width, hheight.trans h.imaged.height⟩
    rw [hbefore]
    refine (AnimationPanel.fly_inside_iff trig himaged).trans ?_
    rw [hwidth]
    constructor
    · rintro hstays before' hbefore'
      obtain rfl := Except.ok.inj hbefore'
      exact hstays
    · exact fun hstays => hstays before rfl

/-- A paint that leaves the ship within reach leaves it where a run can take it. -/
theorem Reached.paint {panel : AnimationPanel} (h : Reached panel) (draw : Draw)
    (hinside : (panel.step trig (.paint draw)).ship.Inside) :
    Reached (panel.step trig (.paint draw)) := by
  have hround := h.round.paint trig draw
  rw [AnimationPanel.step, AnimationPanel.paintComponent_eq] at hinside hround ⊢
  rcases h.round.beforeFlight trig draw with hbroken | ⟨before, hbefore, hwidth, hheight⟩
  · rw [hbroken] at hround ⊢
    exact h.of_stays hround (panel.ready_stays draw)
  · have himaged : before.ship.Imaged :=
      ⟨hwidth ▸ h.imaged.width, hheight.trans h.imaged.height⟩
    rw [hbefore] at hround hinside ⊢
    exact ⟨hround, ⟨himaged.width, himaged.height⟩, AnimationPanel.fly_synced trig himaged hinside,
      hinside⟩

/-- A new ship is where a run can take it. -/
theorem Reached.new : Reached .new where
  round := Or.inl .new
  imaged := ⟨Or.inr rfl, rfl⟩
  synced := ⟨iff_of_true rfl (by decide : (-48 : ℤ) ≤ 0 ∧ (0 : ℤ) ≤ 600),
    iff_of_true rfl (by decide : (-48 : ℤ) ≤ 0 ∧ (0 : ℤ) ≤ 600)⟩
  inside := ⟨(by decide : (-48 : ℤ) ≤ 0 ∧ (0 : ℤ) ≤ 600),
    (by decide : (-48 : ℤ) ≤ 0 ∧ (0 : ℤ) ≤ 600)⟩

/-- Where a run can take the panel, an event is in place exactly if it meets its condition. -/
theorem Reached.inPlace_iff {panel : AnimationPanel} (h : Reached panel) (event : Event) :
    PaintInPlace trig panel event ↔ FliesInPlace trig panel event := by
  cases event with
  | keyPressed key => exact Iff.rfl
  | keyReleased key => exact Iff.rfl
  | tick => exact Iff.rfl
  | paint draw => exact and_congr (testsFrame_iff h.imaged h.synced draw) (h.inside_iff trig draw)

/-- An event in place leaves the panel where a run can take it. -/
theorem Reached.step {panel : AnimationPanel} (h : Reached panel) (event : Event)
    (hplace : PaintInPlace trig panel event) : Reached (panel.step trig event) := by
  cases event with
  | keyPressed key => exact ⟨h.round.setKey key true, h.imaged, h.synced, h.inside⟩
  | keyReleased key => exact ⟨h.round.setKey key false, h.imaged, h.synced, h.inside⟩
  | tick => exact h.of_stays h.round.tick panel.tick_stays
  | paint draw => exact h.paint trig draw hplace.2

/-- In every run, all paints in flight test the frame of the ship where it is, and all paints leave
the ship within reach of the panel, exactly if all paints meet their conditions. -/
theorem run_paintInPlace_iff (events : List Event) :
    (∀ front event, front ++ [event] <+: events →
      PaintInPlace trig ((game trig).run .new front) event) ↔
    ∀ front event, front ++ [event] <+: events →
      FliesInPlace trig ((game trig).run .new front) event := by
  exact (game trig).forall_step_iff Reached (PaintInPlace trig) (FliesInPlace trig)
    (fun _ event h => h.inPlace_iff trig event) (fun _ event h => h.step trig event) .new .new events

/-- The ship was turned, and in flight its last flight stayed within the panel, and it is on no way
to the dock. -/
structure Steady (panel : AnimationPanel) : Prop where
  turned : panel.ship.width = 48
  flight : panel.moonLanded = false → panel.ship.landed = false →
    panel.initPosition = false ∧ panel.ship.Bound

/-- A paint of a steady panel meets its condition. -/
theorem Steady.fliesInPlace {panel : AnimationPanel} (h : Steady panel) (draw : Draw) :
    FliesInPlace trig panel (.paint draw) := by
  refine ⟨fun hmoon hlanded => ?_, fun _ _ => Or.inl h.turned⟩
  obtain ⟨hinit, hbound⟩ := h.flight hmoon hlanded
  rw [hinit, if_neg Bool.false_ne_true]
  exact ⟨h.turned, hbound⟩

/-- It is enough for a run that every paint finds the panel steady. -/
theorem run_paintInPlace_of_steady (events : List Event)
    (hsteady : ∀ front draw, front ++ [.paint draw] <+: events →
      Steady ((game trig).run .new front)) :
    ∀ front event, front ++ [event] <+: events →
      PaintInPlace trig ((game trig).run .new front) event := by
  refine ((game trig).forall_step_iff Reached (PaintInPlace trig) (FliesInPlace trig)
    (fun _ event h => h.inPlace_iff trig event) (fun _ event h => h.step trig event) .new .new
    events).mpr fun front event hfront => ?_
  cases event with
  | keyPressed key => trivial
  | keyReleased key => trivial
  | tick => trivial
  | paint draw => exact (hsteady front draw hfront).fliesInPlace trig draw

end Moves

/-- Moons that drift to the right, the first from the right border. -/
def drifting : Draw :=
  { Draw.quiet with moon := fun index => { Draw.quiet.moon index with right := index == 0 } }

/-- A game starts, the ship is turned to both sides, launched and flies over the right border. -/
def pastBorder : List Event :=
  [.keyPressed .enter, .tick, .keyReleased .enter, .keyPressed .left, .keyPressed .right, .tick,
    .keyReleased .left, .keyReleased .right, .paint drifting, .keyPressed .space, .tick,
    .keyReleased .space] ++ List.replicate 6 (.paint drifting)

/-- Without any key, the ship is drawn far to the left when the moon of its dock nears the right
border; and beyond that border it is tested where it left the panel, and drawn where it comes
back. -/
theorem not_paintInPlace_drifting :
    ((game TankGame.eastward).run .new (List.replicate 8 (.paint drifting))).ship.x = -3456 ∧
      ¬TestsFrame ((game TankGame.eastward).run .new pastBorder) drifting ∧
      ¬∀ (trig : Trigonometry) (events front : List Event) (event : Event),
        front ++ [event] <+: events → PaintInPlace trig ((game trig).run .new front) event := by
  have hdrawn : ((game TankGame.eastward).run .new
      (List.replicate 8 (.paint drifting))).ship.x = -3456 := by
    decide +kernel
  have hflight : ((game TankGame.eastward).run .new pastBorder).moonLanded = false ∧
      ((game TankGame.eastward).run .new pastBorder).ship.landed = false ∧
      ((game TankGame.eastward).run .new pastBorder).initPosition = false := by
    decide +kernel
  have hship : ((game TankGame.eastward).run .new pastBorder).ship.x = -48 ∧
      ((game TankGame.eastward).run .new pastBorder).ship.nextX = 604 ∧
      ((game TankGame.eastward).run .new pastBorder).ship.y = 0 ∧
      ((game TankGame.eastward).run .new pastBorder).ship.nextY = 0 ∧
      ((game TankGame.eastward).run .new pastBorder).ship.width = 48 ∧
      ((game TankGame.eastward).run .new pastBorder).ship.height = 48 := by
    decide +kernel
  obtain ⟨hmoon, hlanded, hinit⟩ := hflight
  obtain ⟨hx, hnextX, hy, hnextY, hwidth, hheight⟩ := hship
  have htested : ¬TestsFrame ((game TankGame.eastward).run .new pastBorder) drifting := by
    have hsynced : ((game TankGame.eastward).run .new pastBorder).ship.Synced := by
      refine ⟨?_, ?_⟩
      · rw [hx, hnextX]
        decide
      · rw [hy, hnextY]
        decide
    rw [testsFrame_iff ⟨Or.inl hwidth, hheight⟩ hsynced]
    intro h
    have hbound := h hmoon hlanded
    rw [hinit, if_neg Bool.false_ne_true] at hbound
    have hwithin := hbound.2.nextX
    rw [hnextX] at hwithin
    exact absurd hwithin (by decide)
  refine ⟨hdrawn, htested, fun h => htested ?_⟩
  exact (h TankGame.eastward _ pastBorder (.paint drifting) (List.prefix_refl _)).1

end Coursework.GalacticMail
