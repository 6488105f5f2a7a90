import Coursework.TankGame.Graphics

/-!
# Ship, moons and asteroids

The moving objects of the game. They leave the panel at one side and come back at the other.
The place and the direction in which a moon or an asteroid starts are random.
-/

namespace Coursework.GalacticMail

open TankGame (Trigonometry)

/-- `WIDTH` and `HEIGHT`. -/
def panelSize : ℤ := 600

/-- What `outOfBound` does to one coordinate of an object of a size. -/
def outOfBound (size position : ℤ) : ℤ :=
  let entered := if position + size < 0 then panelSize else position
  if panelSize < entered then 0 - size else entered

/-- The random choices for a new animation: the corner of the panel, and `randomDegree`. -/
structure Choice where
  right : Bool
  bottom : Bool
  randomDegree : Fin 359

/-- `Animation`, with the size of a frame of its sprite. -/
structure Animation where
  size : ℤ
  x : ℤ
  y : ℤ
  speed : ℤ
  randomDegree : Fin 359

/-- The width and the height of a moon. -/
def moonSize : ℤ := 64

/-- The width and the height of an asteroid. -/
def asteroidSize : ℤ := 50

/-- The speed of a new animation. -/
def initSpeed : ℤ := 8

/-- The constructors of `MoonAnimation` and `AsteroidAnimation`. -/
def Animation.new (size : ℤ) (choice : Choice) : Animation where
  size := size
  x := if choice.right then panelSize - size else 0
  y := if choice.bottom then panelSize - size else 0
  speed := initSpeed
  randomDegree := choice.randomDegree

/-- `setSpeed` of an animation adds to its speed. -/
def Animation.setSpeed (animation : Animation) (speed : ℤ) : Animation :=
  { animation with speed := animation.speed + speed }

/-- `ShipObject`, with the width and the height of its image. The step grows by 3 with a level, so
that no `int` of the ship overflows below level `2 ^ 29`. -/
structure ShipObject where
  x : ℤ
  y : ℤ
  nextX : ℤ
  nextY : ℤ
  index : Fin 72
  step : ℤ
  landed : Bool
  width : ℤ
  height : ℤ

/-- Index 0, the direction east. -/
def firstFrame : Fin 72 := ⟨0, Nat.succ_pos 71⟩

/-- Index 71. -/
def lastFrame : Fin 72 := ⟨71, Nat.lt_succ_self 71⟩

/-- The step of a new ship. -/
def initStep : ℤ := 10

/-- A new ship: its image is the whole strip of 72 frames. -/
def ShipObject.new : ShipObject := ⟨0, 0, 0, 0, firstFrame, initStep, false, 3456, 48⟩

/-- `angle[index]` of the ship, after `setDegree`. -/
def angle (index : Fin 72) : ℤ := 5 * (index : ℕ)

/-- `rotateLeft` of the ship: the image becomes one frame. -/
def ShipObject.rotateLeft (ship : ShipObject) : ShipObject :=
  { ship with
    index := if h : ship.index.val + 1 < 72 then ⟨ship.index.val + 1, h⟩ else firstFrame
    width := 48
    height := 48 }

/-- `rotateRight` of the ship: the image becomes one frame. -/
def ShipObject.rotateRight (ship : ShipObject) : ShipObject :=
  { ship with
    index :=
      if 0 < ship.index.val then
        ⟨ship.index.val - 1, Nat.lt_of_le_of_lt (Nat.sub_le _ _) ship.index.isLt⟩
      else lastFrame
    width := 48
    height := 48 }

/-- `setInitStep`. -/
def ShipObject.setInitStep (ship : ShipObject) : ShipObject := { ship with step := initStep }

/-- `setStep` adds to the step. -/
def ShipObject.setStep (ship : ShipObject) (step : ℤ) : ShipObject :=
  { ship with step := ship.step + step }

/-- `setLanded`. -/
def ShipObject.setLanded (ship : ShipObject) (landed : Bool) : ShipObject :=
  { ship with landed := landed }

/-- `setX` and `setY`. -/
def ShipObject.place (ship : ShipObject) (x y : ℤ) : ShipObject := { ship with x := x, y := y }

/-- `outOfBound` of the ship. -/
def ShipObject.outOfBound (ship : ShipObject) : ShipObject :=
  ship.place (GalacticMail.outOfBound ship.width ship.x)
    (GalacticMail.outOfBound ship.height ship.y)

section Moves

variable (trig : Trigonometry)

/-- `repaint` of a moon or an asteroid: `move` and `outOfBound`. -/
def Animation.repaint (animation : Animation) : Animation :=
  { animation with
    x := outOfBound animation.size
      (animation.x + trig.cos (animation.randomDegree : ℕ) animation.speed)
    y := outOfBound animation.size
      (animation.y + trig.sin (animation.randomDegree : ℕ) animation.speed) }

/-- `forwardMove` of the ship. -/
def ShipObject.forwardMove (ship : ShipObject) : ShipObject :=
  { ship with
    nextX := ship.x + trig.cos (angle ship.index) ship.step
    nextY := ship.y - trig.sin (angle ship.index) ship.step }

end Moves

end Coursework.GalacticMail
