import Coursework.Java.Rectangle
import Mathlib.Data.List.FinRange
import Mathlib.Data.List.ProdSigma

/-!
# Tanks, walls and animations

The objects of the tank game: where they are, the boxes that their collision tests use, and
the counters of an animation. A level is read from an open file of which nothing is left
after the first reading. Sines and cosines times an `int`, cast to `int`, are a parameter.
-/

namespace Coursework.TankGame

open Java

/-- `tank1` or `tank2`, and the player of that tank. -/
inductive Tank where
  | tank1
  | tank2
  deriving DecidableEq, Repr

/-- The opponent. -/
def Tank.other : Tank → Tank
  | .tank1 => .tank2
  | .tank2 => .tank1

/-- The opponent of the opponent. -/
theorem Tank.other_other (t : Tank) : t.other.other = t := by
  cases t <;> rfl

/-- A tank is not its opponent. -/
theorem Tank.other_ne (t : Tank) : t.other ≠ t := by
  cases t <;> exact nofun

/-- There are two tanks. -/
theorem Tank.eq_or_eq_other (t u : Tank) : u = t ∨ u = t.other := by
  cases t <;> cases u <;> decide

/-- `(int) (Math.cos(Math.toRadians(degrees)) * factor)`, and the same of the sine. -/
structure Trigonometry where
  cos : ℤ → ℤ → ℤ
  sin : ℤ → ℤ → ℤ

/-- The characters of a level file that are read. -/
abbrev Level := Fin 40 → Fin 39 → Char

/-- `WallObject`: the lines that the reader has still to give, and the array of the cells. -/
structure WallObject where
  source : List (Fin 39 → Char)
  wallArray : Level
  source_length_le : source.length ≤ 40

/-- The wall of a level file just opened. The blank array stands for one of null references, which is
overwritten before it is read. -/
def WallObject.new (level : Level) : WallObject where
  source := List.ofFn level
  wallArray := fun _ _ => ' '
  source_length_le := (List.length_ofFn).le

/-- `setArray`: the lines not yet read go to the first rows. -/
def WallObject.setArray (wall : WallObject) : WallObject where
  source := []
  wallArray := fun row =>
    if h : row < wall.source.length then wall.source.get ⟨row, h⟩ else wall.wallArray row
  source_length_le := Nat.zero_le _

/-- The first reading takes in the whole level. -/
theorem WallObject.setArray_new_wallArray (level : Level) :
    (WallObject.new level).setArray.wallArray = level := by
  funext row
  have h : row < (List.ofFn level).length := List.length_ofFn.symm ▸ row.isLt
  change (if h : row < (List.ofFn level).length then (List.ofFn level).get ⟨row, h⟩ else _) = _
  rw [dif_pos h]
  exact List.getElem_ofFn _

/-- A reader with nothing left changes nothing. -/
theorem WallObject.setArray_wallArray (wall : WallObject) (h : wall.source = []) :
    wall.setArray.wallArray = wall.wallArray := by
  funext row
  refine dif_neg ?_
  rw [h]
  exact Nat.not_lt_zero _

/-- The width and the height of the image of a wall. -/
def wallSize : ℤ := 32

/-- The cells in the order of the loops over rows and columns. -/
@[irreducible]
def cells : List (Fin 40 × Fin 39) := List.finRange 40 ×ˢ List.finRange 39

/-- The loops reach every cell. -/
theorem mem_cells (cell : Fin 40 × Fin 39) : cell ∈ cells := by
  rw [cells]
  exact List.mem_product.mpr ⟨List.mem_finRange _, List.mem_finRange _⟩

/-- Whether a cell is a wall of either kind. -/
def WallObject.isWall (wall : WallObject) (cell : Fin 40 × Fin 39) : Bool :=
  wall.wallArray cell.1 cell.2 == '1' || wall.wallArray cell.1 cell.2 == '2'

/-- The upper left corner of a cell. -/
def corner (cell : Fin 40 × Fin 39) : ℤ × ℤ := ((cell.2 : ℕ) * wallSize, (cell.1 : ℕ) * wallSize)

/-- The rectangle at a cell whose sides fall short of the image of a wall. -/
def wallBox (short : ℤ) (cell : Fin 40 × Fin 39) : Rectangle where
  x := (corner cell).1
  y := (corner cell).2
  width := wallSize - short
  height := wallSize - short

/-- `STEP`. -/
def tankStep : ℤ := 10

/-- Index 0, the direction east. -/
def east : Fin 60 := 0

/-- `TankObject`, with the width and the height of its image. Behind the border of the walls no
place of a tank comes near the bounds of an `int`. -/
structure TankObject where
  x : ℤ
  y : ℤ
  nextX : ℤ
  nextY : ℤ
  index : Fin 60
  width : ℤ
  height : ℤ

/-- A new tank: its image is the whole strip of 60 frames. -/
def TankObject.new : TankObject := ⟨0, 0, 0, 0, east, 3840, 64⟩

/-- `angle[index]`, after `setDegree`. -/
def angle (index : Fin 60) : ℤ := 6 * (index : ℕ)

/-- `rotateLeft`: the image becomes one frame. -/
def TankObject.rotateLeft (tank : TankObject) : TankObject :=
  { tank with
    index := if h : tank.index.val < 59 then ⟨tank.index.val + 1, by omega⟩ else east
    width := 64
    height := 64 }

/-- `rotateRight`: the image becomes one frame. -/
def TankObject.rotateRight (tank : TankObject) : TankObject :=
  { tank with
    index := if 0 < tank.index.val then ⟨tank.index.val - 1, by omega⟩ else 59
    width := 64
    height := 64 }

/-- `forwardMove` of a tank. -/
def TankObject.forwardMove (trig : Trigonometry) (tank : TankObject) : TankObject :=
  { tank with
    nextX := tank.x + trig.cos (angle tank.index) tankStep
    nextY := tank.y - trig.sin (angle tank.index) tankStep }

/-- `reverseMove`. -/
def TankObject.reverseMove (trig : Trigonometry) (tank : TankObject) : TankObject :=
  { tank with
    nextX := tank.x - trig.cos (angle tank.index) tankStep
    nextY := tank.y + trig.sin (angle tank.index) tankStep }

/-- The rectangle of a tank for the tests, at a given corner. -/
def TankObject.boxAt (tank : TankObject) (x y : ℤ) : Rectangle :=
  ⟨x, y, tank.width - tankStep, tank.height - tankStep⟩

/-- `collisionToWall` of a tank, once the level has been read again. -/
def TankObject.collisionToWall (tank : TankObject) (wall : WallObject) : Bool :=
  cells.any fun cell =>
    wall.isWall cell && (tank.boxAt tank.nextX tank.nextY).intersects (wallBox tankStep cell)

/-- `collisionToTank` of a tank. -/
def TankObject.collisionToTank (tank anotherTank : TankObject) : Bool :=
  (tank.boxAt tank.nextX tank.nextY).intersects (anotherTank.boxAt anotherTank.x anotherTank.y)

/-- `fireStartX`. -/
def TankObject.fireStartX (trig : Trigonometry) (tank : TankObject) : ℤ :=
  tank.x + tank.width / 2 + trig.cos (angle tank.index) (trig.cos 50 (tank.width / 2) * 2)

/-- `fireStartY`. -/
def TankObject.fireStartY (trig : Trigonometry) (tank : TankObject) : ℤ :=
  tank.y + tank.height / 2 - trig.sin (angle tank.index) (trig.cos 50 (tank.height / 2) * 2)

/-- `Animation`, with the number of frames of its sprite. -/
structure Animation where
  spriteFrames : ℕ
  x : ℤ
  y : ℤ
  frameDelay : ℕ
  loop : Bool
  frameCount : ℕ
  currentFrame : ℕ
  duration : ℕ
  stop : Bool

/-- The constructor of `Animation`. -/
def Animation.new (spriteFrames : ℕ) (x y : ℤ) (frameDelay : ℕ) (loop : Bool) : Animation :=
  ⟨spriteFrames, x, y, frameDelay, loop, 0, 0, 0, false⟩

/-- `totalTime`. -/
def Animation.totalTime (animation : Animation) : ℕ := animation.frameDelay * animation.spriteFrames

/-- `repaint` of an animation: the counters after it. -/
def Animation.repaint (animation : Animation) : Animation :=
  if animation.stop then animation
  else if animation.frameDelay < animation.frameCount + 1 then
    { animation with
      duration := animation.duration + 1
      frameCount := 0
      stop := decide (animation.totalTime < animation.duration + 1) && !animation.loop
      currentFrame := (animation.currentFrame + 1) % animation.spriteFrames }
  else
    { animation with
      duration := animation.duration + 1
      frameCount := animation.frameCount + 1 }

/-- `BulletAnimation`: the tank that fired it, its direction and its place. The other tank is
`anotherTank`, and the two players are those of the two tanks. -/
structure BulletAnimation where
  tank : Tank
  index : Fin 60
  x : ℤ
  y : ℤ
  stop : Bool

/-- `speed`. -/
def bulletSpeed : ℤ := 20

/-- `forwardMove` of a bullet. -/
def BulletAnimation.forwardMove (trig : Trigonometry) (bullet : BulletAnimation) :
    BulletAnimation :=
  { bullet with
    x := bullet.x + trig.cos (angle bullet.index) bulletSpeed
    y := bullet.y - trig.sin (angle bullet.index) bulletSpeed }

/-- The rectangle of a bullet for the tests, of a given side. -/
def BulletAnimation.box (bullet : BulletAnimation) (side : ℤ) : Rectangle :=
  ⟨bullet.x, bullet.y, side, side⟩

/-- `collisionToWall` of a bullet, once the level has been read again. -/
def BulletAnimation.collisionToWall (bullet : BulletAnimation) (wall : WallObject) : Bool :=
  cells.any fun cell => wall.isWall cell && (bullet.box 10).intersects (wallBox 0 cell)

/-- The array after `attackWall`: the breakable walls that the bullet touches are gone. -/
def BulletAnimation.attackWall (bullet : BulletAnimation) (wall : WallObject) : WallObject :=
  { wall with
    wallArray := fun row column =>
      if wall.wallArray row column == '2' && (bullet.box 10).intersects (wallBox 0 (row, column))
      then ' '
      else wall.wallArray row column }

/-- Whether a bullet touches a tank. -/
def BulletAnimation.touches (bullet : BulletAnimation) (tank : TankObject) : Bool :=
  (bullet.box 5).intersects (tank.boxAt tank.x tank.y)

/-- An entry of the list of animations: a plain one, or a bullet with its own `repaint`. -/
inductive PanelAnimation where
  | plain (animation : Animation)
  | shot (bullet : BulletAnimation)

/-- `isStopped`. -/
def PanelAnimation.isStopped : PanelAnimation → Bool
  | .plain animation => animation.stop
  | .shot bullet => bullet.stop

end Coursework.TankGame
