import Coursework.TankGame.Graphics
import Mathlib.Logic.Function.Basic

/-!
# A paint of the tank game

The panel holds the tanks, their players, the walls and the list of animations. A paint runs
through that list by an index whose bound is read again on every turn; stopped animations
are removed and bullets may append explosions meanwhile. Health is settled afterwards.
-/

namespace Coursework.TankGame

/-- `Players`, but for the tank and the wall it refers to. The hits suffered so far are counted beside
the fields of the class. -/
structure Players where
  tankPosition : Char
  tankX : ℤ
  tankY : ℤ
  health : Int32
  lives : Int32
  point : Int32
  endGame : Bool
  hits : ℕ

/-- The constructor of `Players`. -/
def Players.new (tankPosition : Char) : Players := ⟨tankPosition, 0, 0, 200, 3, 0, false, 0⟩

/-- `hitTank`. -/
def Players.hitTank (player : Players) : Players :=
  { player with health := player.health - 40, hits := player.hits + 1 }

/-- `earnPoint`. -/
def Players.earnPoint (player : Players) : Players := { player with point := player.point + 10 }

/-- `die`. -/
def Players.die (player : Players) : Bool := player.health == 0

/-- `paintHealth`: a player without health loses a life and is given full health. -/
def Players.paintHealth (player : Players) : Players :=
  if player.health > 120 then player
  else if player.health > 40 ∧ player.health ≤ 120 then player
  else if player.health > 0 ∧ player.health ≤ 40 then player
  else { player with lives := player.lives - 1, health := 200 }

/-- `paintLives`: at no lives the game ends. -/
def Players.paintLives (player : Players) : Players :=
  if player.lives == 0 then { player with endGame := true } else player

/-- The corner of the last cell with the player's character, or the corner found before. -/
def Players.initPosition (player : Players) (wall : WallObject) : ℤ × ℤ :=
  cells.foldl
    (fun found cell =>
      if wall.wallArray cell.1 cell.2 == player.tankPosition then corner cell else found)
    (player.tankX, player.tankY)

/-- A scan for the last entry with a property finds the only one. -/
theorem foldl_ite_of_unique {α β : Type*} (p : α → Bool) (f : α → β) (entry : α)
    (hunique : ∀ other, p other = true → other = entry) (entries : List α) (start : β)
    (h : start = f entry ∨ ∃ other ∈ entries, p other = true) :
    entries.foldl (fun found other => if p other then f other else found) start = f entry := by
  induction entries generalizing start with
  | nil =>
    rcases h with rfl | ⟨other, hmem, -⟩
    · rfl
    · cases hmem
  | cons first rest ih =>
    refine ih (if p first then f first else start) ?_
    by_cases hfirst : p first = true
    · rw [if_pos hfirst, hunique first hfirst]
      exact Or.inl rfl
    · rw [if_neg hfirst]
      refine h.imp_right ?_
      rintro ⟨other, hmem, hother⟩
      rcases List.mem_cons.mp hmem with rfl | hrest
      · exact absurd hother hfirst
      · exact ⟨other, hrest, hother⟩

/-- A player starts at the only cell with the character of the player. -/
theorem Players.initPosition_of_unique (player : Players) (wall : WallObject)
    (cell : Fin 40 × Fin 39) (hcell : wall.wallArray cell.1 cell.2 = player.tankPosition)
    (hunique : ∀ other : Fin 40 × Fin 39,
      wall.wallArray other.1 other.2 = player.tankPosition → other = cell) :
    player.initPosition wall = corner cell := by
  refine foldl_ite_of_unique
    (fun other : Fin 40 × Fin 39 => wall.wallArray other.1 other.2 == player.tankPosition)
    corner cell ?_ cells _ (Or.inr ⟨cell, mem_cells cell, beq_iff_eq.mpr hcell⟩)
  intro other hother
  exact hunique other (beq_iff_eq.mp hother)

/-- The controls of a tank. -/
inductive Control where
  | left
  | right
  | up
  | down
  | fire
  deriving DecidableEq, Repr

/-- The panel: `tank1` and `tank2`, `player1` and `player2`, the walls, the animations, and the keys
held down. -/
structure AnimationPanel where
  tank : Tank → TankObject
  player : Tank → Players
  breakableWall : WallObject
  animations : List PanelAnimation
  pressed : Tank → Control → Bool

/-- The panel with one tank replaced. -/
def AnimationPanel.setTank (panel : AnimationPanel) (t : Tank) (tank : TankObject) :
    AnimationPanel :=
  { panel with tank := Function.update panel.tank t tank }

/-- The tank that was replaced. -/
@[simp]
theorem AnimationPanel.setTank_tank_self (panel : AnimationPanel) (t : Tank) (tank : TankObject) :
    (panel.setTank t tank).tank t = tank :=
  Function.update_self ..

/-- The panel with one player replaced. -/
def AnimationPanel.setPlayer (panel : AnimationPanel) (t : Tank) (player : Players) :
    AnimationPanel :=
  { panel with player := Function.update panel.player t player }

/-- The player that was replaced. -/
@[simp]
theorem AnimationPanel.setPlayer_player_self (panel : AnimationPanel) (t : Tank)
    (player : Players) : (panel.setPlayer t player).player t = player :=
  Function.update_self ..

/-- The other player stays. -/
@[simp]
theorem AnimationPanel.setPlayer_player_other (panel : AnimationPanel) (t : Tank)
    (player : Players) : (panel.setPlayer t player).player t.other = panel.player t.other :=
  Function.update_of_ne t.other_ne ..

/-- `wall.setArray()` at the start of a collision test. -/
def AnimationPanel.setArray (panel : AnimationPanel) : AnimationPanel :=
  { panel with breakableWall := panel.breakableWall.setArray }

/-- `setInitPosition` of a player. -/
def AnimationPanel.setInitPosition (panel : AnimationPanel) (t : Tank) : AnimationPanel :=
  let place := (panel.player t).initPosition panel.breakableWall
  (panel.setPlayer t { panel.player t with tankX := place.1, tankY := place.2 }).setTank t
    { panel.tank t with x := place.1, y := place.2 }

/-- The frames of `Explosion_small_strip6.png`, 192 pixels wide, in tiles of 24. -/
def explosionFrames : ℕ := 8

/-- `explosion`: an explosion at the place of a tank. -/
def AnimationPanel.explosion (panel : AnimationPanel) (t : Tank) : AnimationPanel :=
  { panel with
    animations := panel.animations ++
      [.plain (.new explosionFrames (panel.tank t).x (panel.tank t).y 5 false)] }

/-- One of the two branches of `attackTank`: the bullet touches this tank. -/
def AnimationPanel.hit (panel : AnimationPanel) (t : Tank) : AnimationPanel :=
  let struck := panel.setPlayer t (panel.player t).hitTank
  if (struck.player t).die then
    let awarded := struck.setPlayer t.other (struck.player t.other).earnPoint
    let placed := (awarded.explosion t).setInitPosition t
    placed.setTank t { placed.tank t with index := east }
  else struck

/-- The tanks that a bullet touches, in the order of the tests of `attackTank`. -/
def BulletAnimation.struck (bullet : BulletAnimation) (panel : AnimationPanel) : List Tank :=
  [bullet.tank, bullet.tank.other].filter fun t => bullet.touches (panel.tank t)

/-- `attackTank`: both boxes are taken before either branch. -/
def AnimationPanel.attackTank (panel : AnimationPanel) (bullet : BulletAnimation) :
    AnimationPanel :=
  (bullet.struck panel).foldl AnimationPanel.hit panel

/-- `collisionToTank` of a bullet. -/
def BulletAnimation.collisionToTank (bullet : BulletAnimation) (panel : AnimationPanel) : Bool :=
  bullet.touches (panel.tank bullet.tank) || bullet.touches (panel.tank bullet.tank.other)

/-- The wall test of a moved bullet. -/
def AnimationPanel.meetWall (panel : AnimationPanel) (bullet : BulletAnimation) :
    AnimationPanel × BulletAnimation :=
  let panel := panel.setArray
  if bullet.collisionToWall panel.breakableWall then
    let panel := panel.setArray
    ({ panel with breakableWall := bullet.attackWall panel.breakableWall },
      { bullet with stop := true })
  else (panel, bullet)

/-- The tank test of a moved bullet. -/
def AnimationPanel.meetTank (panel : AnimationPanel) (bullet : BulletAnimation) :
    AnimationPanel × BulletAnimation :=
  if bullet.collisionToTank panel then (panel.attackTank bullet, { bullet with stop := true })
  else (panel, bullet)

section Moves

variable (trig : Trigonometry)

/-- `repaint` of a bullet. -/
def AnimationPanel.repaintBullet (panel : AnimationPanel) (bullet : BulletAnimation) :
    AnimationPanel × BulletAnimation :=
  if bullet.stop then (panel, bullet)
  else
    let (panel, bullet) := panel.meetWall (bullet.forwardMove trig)
    panel.meetTank bullet

/-- `repaint` of the animation at an index of the list. -/
def AnimationPanel.repaintAt (panel : AnimationPanel) (counter : ℕ) :
    PanelAnimation → AnimationPanel
  | .plain animation =>
    { panel with animations := panel.animations.set counter (.plain animation.repaint) }
  | .shot bullet =>
    let (panel, bullet) := panel.repaintBullet trig bullet
    { panel with animations := panel.animations.set counter (.shot bullet) }

end Moves

end Coursework.TankGame
