import Coursework.TankGame.Overlap

/-!
# Steps of a tank and its frame

The image of a tank is the whole strip of its frames until the tank is turned for the first
time, and the boxes of its tests are as wide as the image. A step is taken if the frame fits
and nothing lies under the rest of a strip.
-/

namespace Coursework.TankGame

open Java Transition

/-- The box of the frame of a tank for the tests, at a place. -/
def frameBox (x y : ℤ) : Rectangle := ⟨x, y, 54, 54⟩

/-- The box of the rest of the strip to the right of that of a frame. -/
def stripBox (x y : ℤ) : Rectangle := ⟨x + 54, y, 3776, 54⟩

/-- The image of a tank is the strip that the constructor reads. -/
def TankObject.Unturned (tank : TankObject) : Prop := tank.width = 3840

/-- The image of a tank is a frame or the whole strip. -/
structure TankObject.Imaged (tank : TankObject) : Prop where
  width : tank.width = 64 ∨ tank.Unturned
  height : tank.height = 64

/-- The test of a move: whether the step to the next place is taken. -/
def AnimationPanel.takesStep (panel : AnimationPanel) (t : Tank) (next : TankObject → TankObject) :
    Bool :=
  let tank := next (panel.tank t)
  !(tank.collisionToWall (panel.setTank t tank).setArray.breakableWall ||
    tank.collisionToTank (panel.tank t.other))

/-- A move puts the tank to its next place if the step is taken, and leaves it otherwise. -/
theorem AnimationPanel.move_eq_takesStep (panel : AnimationPanel) (t : Tank)
    (next : TankObject → TankObject) :
    panel.move t next =
      if panel.takesStep t next then
        (panel.setTank t (next (panel.tank t))).setArray.setTank t { next (panel.tank t) with
          x := (next (panel.tank t)).nextX
          y := (next (panel.tank t)).nextY }
      else (panel.setTank t (next (panel.tank t))).setArray := by
  rw [AnimationPanel.move, AnimationPanel.takesStep]
  dsimp only
  cases (next (panel.tank t)).collisionToWall
      (panel.setTank t (next (panel.tank t))).setArray.breakableWall ||
    (next (panel.tank t)).collisionToTank (panel.tank t.other) <;> rfl

/-- The frame of a tank fits at its next place: it meets no wall and not the frame of the other
tank. -/
def FrameFits (panel : AnimationPanel) (t : Tank) (next : TankObject → TankObject) : Prop :=
  let tank := next (panel.tank t)
  WallFree panel.breakableWall.wallArray (frameBox tank.nextX tank.nextY) ∧
    (frameBox tank.nextX tank.nextY).intersects
      (frameBox (panel.tank t.other).x (panel.tank t.other).y) = false

/-- Under the rest of a strip there is nothing: no wall and not the other tank, at the next place of
a tank never turned, and not the tank at its next place, if the other was never turned. -/
structure StripFree (panel : AnimationPanel) (t : Tank) (next : TankObject → TankObject) : Prop where
  walls : (next (panel.tank t)).Unturned → WallFree panel.breakableWall.wallArray
    (stripBox (next (panel.tank t)).nextX (next (panel.tank t)).nextY)
  ahead : (next (panel.tank t)).Unturned →
    (stripBox (next (panel.tank t)).nextX (next (panel.tank t)).nextY).intersects
      (frameBox (panel.tank t.other).x (panel.tank t.other).y) = false
  behind : (panel.tank t.other).Unturned →
    (frameBox (next (panel.tank t)).nextX (next (panel.tank t)).nextY).intersects
      (stripBox (panel.tank t.other).x (panel.tank t.other).y) = false
  both : (next (panel.tank t)).Unturned → (panel.tank t.other).Unturned →
    (stripBox (next (panel.tank t)).nextX (next (panel.tank t)).nextY).intersects
      (stripBox (panel.tank t.other).x (panel.tank t.other).y) = false

/-- The wall test finds nothing exactly if the box meets no wall. -/
theorem TankObject.collisionToWall_eq_false_iff (tank : TankObject) (wall : WallObject) :
    tank.collisionToWall wall = false ↔
      WallFree wall.wallArray (tank.boxAt tank.nextX tank.nextY) := by
  rw [TankObject.collisionToWall, List.any_eq_false]
  constructor
  · intro h cell hcell
    have hwall : wall.isWall cell = true := by
      rw [WallObject.isWall, Bool.or_eq_true, beq_iff_eq, beq_iff_eq]
      exact hcell
    have hbox := h cell (mem_cells cell)
    rw [hwall, Bool.true_and] at hbox
    exact Bool.eq_false_iff.mpr hbox
  · intro h cell _
    rw [Bool.and_eq_true, WallObject.isWall, Bool.or_eq_true, beq_iff_eq, beq_iff_eq]
    rintro ⟨hcell, hmeets⟩
    rw [h cell hcell] at hmeets
    cases hmeets

/-- The box of the strip meets what the box of the frame or that of the rest meets. -/
theorem intersects_strip (x y : ℤ) (second : Rectangle) :
    Rectangle.intersects ⟨x, y, 3830, 54⟩ second =
      ((frameBox x y).intersects second || (stripBox x y).intersects second) :=
  Rectangle.intersects_cut (by decide : (0 : ℤ) < 54)
    (by decide : (0 : ℤ) < 3776) second

/-- The box of a tank meets nothing that the box of the frame and that of the rest do not meet. -/
theorem TankObject.Imaged.boxAt_intersects_iff {tank : TankObject} (h : tank.Imaged) (x y : ℤ)
    (second : Rectangle) :
    (tank.boxAt x y).intersects second = false ↔
      (frameBox x y).intersects second = false ∧
        (tank.Unturned → (stripBox x y).intersects second = false) := by
  rcases h.width with hframe | hstrip
  · have hbox : tank.boxAt x y = frameBox x y := by
      rw [TankObject.boxAt, hframe, h.height]
      rfl
    have hturned : ¬tank.Unturned := by
      rw [TankObject.Unturned, hframe]
      decide
    rw [hbox]
    exact ⟨fun hfree => ⟨hfree, fun hunturned => absurd hunturned hturned⟩, And.left⟩
  · have hwidth : tank.width = 3840 := hstrip
    have hbox : tank.boxAt x y = ⟨x, y, 3830, 54⟩ := by
      rw [TankObject.boxAt, hwidth, h.height]
      rfl
    rw [hbox, intersects_strip, Bool.or_eq_false_iff]
    exact and_congr_right fun _ => ⟨fun hfree _ => hfree, fun hfree => hfree hstrip⟩

/-- The box of a tank meets no wall if the box of the frame and that of the rest meet none. -/
theorem TankObject.Imaged.wallFree_boxAt_iff {tank : TankObject} (h : tank.Imaged) (level : Level)
    (x y : ℤ) :
    WallFree level (tank.boxAt x y) ↔
      WallFree level (frameBox x y) ∧ (tank.Unturned → WallFree level (stripBox x y)) := by
  constructor
  · intro hfree
    refine ⟨fun cell hcell => ?_, fun hunturned cell hcell => ?_⟩
    · exact ((h.boxAt_intersects_iff x y _).mp (hfree cell hcell)).1
    · exact ((h.boxAt_intersects_iff x y _).mp (hfree cell hcell)).2 hunturned
  · rintro ⟨hframe, hstrip⟩ cell hcell
    exact (h.boxAt_intersects_iff x y _).mpr
      ⟨hframe cell hcell, fun hunturned => hstrip hunturned cell hcell⟩

/-- A box meets nothing of a tank if it meets neither the frame nor the rest of the strip. -/
theorem TankObject.Imaged.intersects_boxAt_iff {tank : TankObject} (h : tank.Imaged) (x y : ℤ)
    (first : Rectangle) :
    first.intersects (tank.boxAt x y) = false ↔
      first.intersects (frameBox x y) = false ∧
        (tank.Unturned → first.intersects (stripBox x y) = false) := by
  rw [Rectangle.intersects_comm, h.boxAt_intersects_iff, Rectangle.intersects_comm _ first]
  refine and_congr_right fun _ => ?_
  rw [Rectangle.intersects_comm _ first]

/-- A step is taken exactly if the frame fits and nothing lies under the rest of a strip. -/
theorem takesStep_iff {panel : AnimationPanel} (t : Tank) {next : TankObject → TankObject}
    (hsource : panel.breakableWall.source = []) (htank : (next (panel.tank t)).Imaged)
    (hother : (panel.tank t.other).Imaged) :
    panel.takesStep t next = true ↔ FrameFits panel t next ∧ StripFree panel t next := by
  have hwall : (panel.setTank t (next (panel.tank t))).setArray.breakableWall.wallArray =
      panel.breakableWall.wallArray := panel.breakableWall.setArray_wallArray hsource
  rw [AnimationPanel.takesStep, Bool.not_eq_true', Bool.or_eq_false_iff,
    TankObject.collisionToWall_eq_false_iff, hwall, htank.wallFree_boxAt_iff,
    TankObject.collisionToTank, htank.boxAt_intersects_iff, hother.intersects_boxAt_iff,
    hother.intersects_boxAt_iff]
  constructor
  · rintro ⟨⟨hframe, hstrip⟩, ⟨hmeets, hbehind⟩, hahead⟩
    exact ⟨⟨hframe, hmeets⟩, hstrip, fun h => (hahead h).1, hbehind, fun h => (hahead h).2⟩
  · rintro ⟨⟨hframe, hmeets⟩, hfree⟩
    exact ⟨⟨hframe, hfree.walls⟩, ⟨hmeets, hfree.behind⟩,
      fun h => ⟨hfree.ahead h, hfree.both h⟩⟩

/-- The step is taken exactly if the frame fits. -/
def StepFits (panel : AnimationPanel) (t : Tank) (next : TankObject → TankObject) : Prop :=
  panel.takesStep t next = true ↔ FrameFits panel t next

/-- Where the frame fits, nothing lies under the rest of a strip. -/
def FitsAsStrip (panel : AnimationPanel) (t : Tank) (next : TankObject → TankObject) : Prop :=
  FrameFits panel t next → StripFree panel t next

section Moves

variable (trig : Trigonometry)

/-- A property of every move of a tank in a tick, at the panel as it is then. -/
def AnimationPanel.EachMove (Q : AnimationPanel → Tank → (TankObject → TankObject) → Prop)
    (panel : AnimationPanel) (t : Tank) : Prop :=
  let turned := (panel.whenPressed t .left fun panel => panel.setTank t (panel.tank t).rotateLeft).whenPressed
    t .right fun panel => panel.setTank t (panel.tank t).rotateRight
  let driven := turned.whenPressed t .up fun panel => panel.move t (TankObject.forwardMove trig)
  (turned.pressed t .up = true → Q turned t (TankObject.forwardMove trig)) ∧
    (driven.pressed t .down = true → Q driven t (TankObject.reverseMove trig))

/-- A property of every move of a tick, of the second tank and then of the first. -/
def AnimationPanel.EachTickMove (Q : AnimationPanel → Tank → (TankObject → TankObject) → Prop)
    (panel : AnimationPanel) : Prop :=
  ((panel.player .tank1).endGame || (panel.player .tank2).endGame) = false →
    panel.EachMove trig Q .tank2 ∧ (panel.drive trig .tank2).EachMove trig Q .tank1

variable {trig} {Q Q' : AnimationPanel → Tank → (TankObject → TankObject) → Prop}
  {P : AnimationPanel → Prop}

/-- Properties of moves that agree under a property that is kept agree on every move of a tank. -/
theorem AnimationPanel.eachMove_congr (hkept : Kept trig P)
    (hforward : ∀ panel t, P panel →
      (Q panel t (TankObject.forwardMove trig) ↔ Q' panel t (TankObject.forwardMove trig)))
    (hreverse : ∀ panel t, P panel →
      (Q panel t (TankObject.reverseMove trig) ↔ Q' panel t (TankObject.reverseMove trig)))
    {panel : AnimationPanel} (h : P panel) (t : Tank) :
    panel.EachMove trig Q t ↔ panel.EachMove trig Q' t := by
  have hturned := whenPressed_keeps t .right
    (whenPressed_keeps t .left h fun panel => hkept.rotateLeft panel t)
    fun panel => hkept.rotateRight panel t
  have hdriven := whenPressed_keeps t .up hturned fun panel => hkept.forwardMove panel t
  exact and_congr (imp_congr_right fun _ => hforward _ t hturned)
    (imp_congr_right fun _ => hreverse _ t hdriven)

/-- They agree on every move of a tick. -/
theorem AnimationPanel.eachTickMove_congr (hkept : Kept trig P)
    (hforward : ∀ panel t, P panel →
      (Q panel t (TankObject.forwardMove trig) ↔ Q' panel t (TankObject.forwardMove trig)))
    (hreverse : ∀ panel t, P panel →
      (Q panel t (TankObject.reverseMove trig) ↔ Q' panel t (TankObject.reverseMove trig)))
    {panel : AnimationPanel} (h : P panel) :
    panel.EachTickMove trig Q ↔ panel.EachTickMove trig Q' := by
  have hdrive : P (panel.drive trig .tank2) :=
    panel.drive_keeps trig h .tank2 hkept.rotateLeft hkept.rotateRight hkept.forwardMove
      hkept.reverseMove fun panel t => hkept.animations panel _
  exact imp_congr_right fun _ => and_congr (eachMove_congr hkept hforward hreverse h .tank2)
    (eachMove_congr hkept hforward hreverse hdrive .tank1)

end Moves

/-- The level is read, and the images of the tanks have a property of their sizes. -/
structure Pictured (image : ℤ → ℤ → Prop) (level : Level) (panel : AnimationPanel) : Prop where
  grounded : Grounded level (spawn level) panel
  image : ∀ t, image (panel.tank t).width (panel.tank t).height

variable {image : ℤ → ℤ → Prop} {level : Level} {panel next : AnimationPanel}

/-- One tank may change if its image keeps the property. -/
theorem Pictured.of_update (h : Pictured image level panel)
    (hgrounded : Grounded level (spawn level) next) (t : Tank) (tank : TankObject)
    (htank : next.tank = Function.update panel.tank t tank) (himage : image tank.width tank.height) :
    Pictured image level next where
  grounded := hgrounded
  image := by
    rw [htank]
    exact (Function.forall_update_iff panel.tank
      fun _ tank => image tank.width tank.height).mpr ⟨himage, fun u _ => h.image u⟩

/-- A move keeps the images. -/
theorem Pictured.move (h : Pictured image level panel) (t : Tank) (next : TankObject → TankObject)
    (hnext : image (next (panel.tank t)).width (next (panel.tank t)).height) :
    Pictured image level (panel.move t next) := by
  have hground := h.grounded.move t next
  obtain ⟨tank, hmove, hplace⟩ := panel.move_eq t next
  rw [hmove] at hground ⊢
  refine h.of_update hground t tank rfl ?_
  rcases hplace with rfl | ⟨-, -, rfl⟩
  · exact hnext
  · exact hnext

/-- A tank that is put back keeps its image. -/
theorem Pictured.hit (h : Pictured image level panel) (t : Tank) :
    Pictured image level (panel.hit t) := by
  have htank := h.grounded.hit_tank t
  split at htank
  · exact h.of_update (h.grounded.hit t) t _ htank (h.image t)
  · exact ⟨h.grounded.hit t, htank ▸ h.image⟩

/-- Every event keeps the images, or turns them into frames. -/
theorem Pictured.kept (trig : Trigonometry) (level : Level) (hframe : image 64 64) :
    Kept trig (Pictured image level) where
  setKey := fun panel t control down h =>
    ⟨(Grounded.kept trig level (spawn level)).setKey panel t control down h.grounded, h.image⟩
  animations := fun panel animations h =>
    ⟨(Grounded.kept trig level (spawn level)).animations panel animations h.grounded, h.image⟩
  rotateLeft := fun panel t h =>
    h.of_update ((Grounded.kept trig level (spawn level)).rotateLeft panel t h.grounded) t _ rfl
      hframe
  rotateRight := fun panel t h =>
    h.of_update ((Grounded.kept trig level (spawn level)).rotateRight panel t h.grounded) t _ rfl
      hframe
  forwardMove := fun _ t h => h.move t _ (h.image t)
  reverseMove := fun _ t h => h.move t _ (h.image t)
  meetWall := by
    intro panel bullet h
    refine ⟨(Grounded.kept trig level (spawn level)).meetWall panel bullet h.grounded, ?_⟩
    rw [AnimationPanel.meetWall]
    split <;> exact h.image
  hit := fun _ t h => h.hit t
  paint := fun panel h =>
    ⟨(Grounded.kept trig level (spawn level)).paint panel h.grounded, h.image⟩

/-- The sizes of a frame or of the whole strip. -/
def FrameOrStrip (width height : ℤ) : Prop := (width = 64 ∨ width = 3840) ∧ height = 64

/-- Play starts with strips. -/
theorem Pictured.new (level : Level) : Pictured FrameOrStrip level (AnimationPanel.new level) where
  grounded := .new level
  image := by
    intro t
    cases t with
    | tank1 => exact ⟨Or.inr rfl, rfl⟩
    | tank2 => exact ⟨Or.inr rfl, rfl⟩

/-- A tank whose image has the size of a frame or of the strip. -/
theorem Pictured.imaged (h : Pictured FrameOrStrip level panel) (t : Tank) :
    (panel.tank t).Imaged := ⟨(h.image t).1, (h.image t).2⟩

/-- The moves of a tick are taken exactly if the frames fit, as long as nothing lies under the rest
of a strip where a frame fits, and not otherwise. -/
theorem Pictured.eachTickMove_iff (trig : Trigonometry) (h : Pictured FrameOrStrip level panel) :
    panel.EachTickMove trig StepFits ↔ panel.EachTickMove trig FitsAsStrip := by
  have hmove : ∀ (panel : AnimationPanel) (t : Tank) (next : TankObject → TankObject),
      Pictured FrameOrStrip level panel → (next (panel.tank t)).Imaged →
      (StepFits panel t next ↔ FitsAsStrip panel t next) := by
    intro panel t next h himaged
    rw [StepFits, FitsAsStrip, takesStep_iff t h.grounded.source himaged (h.imaged t.other)]
    exact and_iff_left_iff_imp
  refine AnimationPanel.eachTickMove_congr (Pictured.kept trig level ⟨Or.inl rfl, rfl⟩) ?_ ?_ h
  · exact fun panel t h => hmove panel t _ h ⟨(h.imaged t).width, (h.imaged t).height⟩
  · exact fun panel t h => hmove panel t _ h ⟨(h.imaged t).width, (h.imaged t).height⟩

/-- Under a frame there is no rest of a strip. -/
theorem stripFree_of_turned {panel : AnimationPanel} (t : Tank) {next : TankObject → TankObject}
    (htank : (next (panel.tank t)).width = 64) (hother : (panel.tank t.other).width = 64) :
    StripFree panel t next := by
  have hturned : ∀ tank : TankObject, tank.width = 64 → ¬tank.Unturned := by
    intro tank hwidth
    rw [TankObject.Unturned, hwidth]
    decide
  exact ⟨fun h => absurd h (hturned _ htank), fun h => absurd h (hturned _ htank),
    fun h => absurd h (hturned _ hother), fun h => absurd h (hturned _ htank)⟩

/-- Once both tanks have been turned, every move of every tick is taken exactly if the frame fits. -/
theorem Pictured.run_eachTickMove (trig : Trigonometry)
    (h : Pictured (fun width height => width = 64 ∧ height = 64) level panel)
    (events : List Event) : ((game trig).run panel events).EachTickMove trig StepFits := by
  have hlater := (Pictured.kept trig level ⟨rfl, rfl⟩).run trig h events
  have hstrip : Pictured FrameOrStrip level ((game trig).run panel events) :=
    ⟨hlater.grounded, fun t => ⟨Or.inl (hlater.image t).1, (hlater.image t).2⟩⟩
  rw [hstrip.eachTickMove_iff trig]
  refine (AnimationPanel.eachTickMove_congr (Q := fun _ _ _ => True)
    (Pictured.kept trig level ⟨rfl, rfl⟩) ?_ ?_ hlater).mp ?_
  · exact fun panel t h => iff_of_true trivial fun _ =>
      stripFree_of_turned t (h.image t).1 (h.image t.other).1
  · exact fun panel t h => iff_of_true trivial fun _ =>
      stripFree_of_turned t (h.image t).1 (h.image t.other).1
  · exact fun _ => ⟨⟨fun _ => trivial, fun _ => trivial⟩, fun _ => trivial, fun _ => trivial⟩

/-- In every run all moves are taken exactly if the frame fits as long as, at each of them, nothing
lies under the rest of a strip if the frame fits, and only as long as that. -/
theorem run_eachTickMove_iff (trig : Trigonometry) (level : Level) (events : List Event) :
    (∀ front, front ++ [.tick] <+: events →
      ((game trig).run (.new level) front).EachTickMove trig StepFits) ↔
    ∀ front, front ++ [.tick] <+: events →
      ((game trig).run (.new level) front).EachTickMove trig FitsAsStrip := by
  refine forall_congr' fun front => imp_congr_right fun _ => ?_
  have hpictured := (Pictured.kept trig level ⟨Or.inl rfl, rfl⟩).run trig (Pictured.new level) front
  exact hpictured.eachTickMove_iff trig

/-- On a level without walls the first tank can not drive up to the second one, though its frame
fits, until it is turned. -/
theorem not_eachTickMove_duel :
    ¬∀ (trig : Trigonometry) (level : Level) (events front : List Event),
      front ++ [.tick] <+: events →
        ((game trig).run (.new level) front).EachTickMove trig StepFits := by
  intro h
  have htick := h eastward duel _ [.keyPressed .tank1 .up] (List.prefix_refl _) rfl
  have hstep : StepFits ((AnimationPanel.new duel).setKey .tank1 .up true) .tank1
      (TankObject.forwardMove eastward) := htick.2.1 rfl
  have htank : ((AnimationPanel.new duel).setKey .tank1 .up true).tank = duelTank 3840 :=
    facing_new.tank
  have hwall : ((AnimationPanel.new duel).setKey .tank1 .up true).breakableWall.wallArray = duel :=
    facing_new.wallArray
  have hfits : FrameFits ((AnimationPanel.new duel).setKey .tank1 .up true) .tank1
      (TankObject.forwardMove eastward) := by
    rw [FrameFits, hwall, htank]
    exact ⟨wallFree_duel _, by decide⟩
  have hblocked : ((AnimationPanel.new duel).setKey .tank1 .up true).takesStep .tank1
      (TankObject.forwardMove eastward) = false := by
    have htouch : (((AnimationPanel.new duel).setKey .tank1 .up true).tank .tank1 |>.forwardMove
        eastward).collisionToTank
        (((AnimationPanel.new duel).setKey .tank1 .up true).tank Tank.tank1.other) = true := by
      rw [htank]
      decide
    rw [AnimationPanel.takesStep, htouch, Bool.or_true, Bool.not_true]
  exact Bool.false_ne_true (hblocked.symm.trans (hstep.mpr hfits))

end Coursework.TankGame
