import Coursework.GalacticMail.Graphics
import Coursework.Ranking.ExchangeSort
import Mathlib.Logic.Function.Basic

/-!
# A paint of Galactic Mail

The stages of a paint, in order: new moons and asteroids, the dock, landings, asteroids, a
crash, the start of a new game after one, the next level, and the flight. Which moons and
asteroids the ship touches is part of the paint. The list of moons may be too short for the
moon of the dock: the paint then breaks off.
-/

namespace Coursework.GalacticMail

open TankGame (Trigonometry)

/-- The keys. -/
inductive Key where
  | left
  | right
  | space
  | enter
  deriving DecidableEq, Repr

/-- What a paint meets: the choices for the moons and asteroids that it makes, and the moons and
asteroids that the rectangle of the ship intersects, by their indices. -/
structure Draw where
  moon : ℕ → Choice
  asteroid : ℕ → Choice
  touchesMoon : ℕ → Bool
  touchesAsteroid : ℕ → Bool

/-- The panel, with the keys held down. Beside the fields of the class, the landings and the paints
with `setScore` since the last new game are counted. No paint takes more than one level, so that
the `int` of the level lasts for `2 ^ 31 - 2` paints. -/
structure AnimationPanel where
  level : ℤ
  curScore : Int32
  moonNum : ℕ
  asteroidNum : ℕ
  moonCounter : ℕ
  start : Bool
  initPosition : Bool
  moonLanded : Bool
  destroy : Bool
  died : Bool
  earnPoints : Bool
  ship : ShipObject
  moonAnimations : List Animation
  asteroidAnimations : List Animation
  scoreDataList : List Int32
  pressed : Key → Bool
  landings : ℕ
  docked : ℕ

/-- `speedIncreased`. -/
def speedIncreased : ℤ := 3

/-- `score`: what a landing earns. -/
def score : Int32 := 1000

/-- The constructor of the panel. -/
def AnimationPanel.new : AnimationPanel where
  level := 1
  curScore := 1000
  moonNum := 0
  asteroidNum := 0
  moonCounter := 0
  start := false
  initPosition := true
  moonLanded := false
  destroy := false
  died := false
  earnPoints := false
  ship := .new
  moonAnimations := []
  asteroidAnimations := []
  scoreDataList := []
  pressed := fun _ => false
  landings := 0
  docked := 0

/-- The loops that make moons and asteroids until there have been four. -/
def AnimationPanel.fill (panel : AnimationPanel) (draw : Draw) : AnimationPanel :=
  { panel with
    moonAnimations := panel.moonAnimations ++
      (List.range (4 - panel.moonNum)).map fun k => .new moonSize (draw.moon k)
    moonNum := max panel.moonNum 4
    asteroidAnimations := panel.asteroidAnimations ++
      (List.range (4 - panel.asteroidNum)).map fun k => .new asteroidSize (draw.asteroid k)
    asteroidNum := max panel.asteroidNum 4 }

/-- The branch for `initPosition`. -/
def AnimationPanel.init (panel : AnimationPanel) : AnimationPanel :=
  if panel.initPosition then
    { panel with
      moonLanded := true
      ship := panel.ship.setLanded true
      initPosition := false }
  else panel

/-- The panel with the ship changed. -/
def AnimationPanel.setShip (panel : AnimationPanel) (ship : ShipObject) : AnimationPanel :=
  { panel with ship := ship }

/-- The credit for a landing in `setScore`. -/
def AnimationPanel.credit (panel : AnimationPanel) : AnimationPanel :=
  if panel.earnPoints then { panel with curScore := panel.curScore + score, earnPoints := false }
  else panel

/-- `setScore`. -/
def AnimationPanel.setScore (panel : AnimationPanel) : AnimationPanel :=
  let paid := { panel.credit with
    curScore := panel.credit.curScore - 1
    docked := panel.credit.docked + 1 }
  if paid.curScore < 0 then { paid with start := false } else paid

/-- The score of a paint at the dock. -/
def AnimationPanel.stay (panel : AnimationPanel) : AnimationPanel :=
  if panel.start then panel.setScore else panel

/-- The launch of a ship that is not landed. -/
def AnimationPanel.launch (panel : AnimationPanel) : AnimationPanel :=
  if panel.ship.landed then panel
  else
    { panel with
      moonAnimations := panel.moonAnimations.eraseIdx panel.moonCounter
      moonLanded := false }

/-- The branch for `moonLanded`, at the moon of the dock. -/
def AnimationPanel.dockAt (panel : AnimationPanel) (moon : Animation) : AnimationPanel :=
  (panel.setShip (panel.ship.place moon.x moon.y)).stay.launch

/-- The branch for `moonLanded`: without a moon at `moonCounter`, `get` throws an exception. -/
def AnimationPanel.dock (panel : AnimationPanel) : Option AnimationPanel :=
  if panel.moonLanded then panel.moonAnimations[panel.moonCounter]?.map panel.dockAt
  else some panel

/-- The ship lands on the moon at an index. -/
def AnimationPanel.land (panel : AnimationPanel) (counter : ℕ) : AnimationPanel :=
  { panel with
    moonLanded := true
    ship := panel.ship.setLanded true
    moonCounter := counter
    earnPoints := true }

/-- One landing more is counted. -/
def AnimationPanel.countLanding (panel : AnimationPanel) : AnimationPanel :=
  { panel with landings := panel.landings + 1 }

/-- The test of the moon at an index. The landing is counted where the test holds. -/
def AnimationPanel.meetMoon (draw : Draw) (panel : AnimationPanel) (counter : ℕ) :
    AnimationPanel :=
  if draw.touchesMoon counter && !panel.moonLanded then panel.countLanding.land counter else panel

/-- The test of the asteroid at an index. -/
def AnimationPanel.meetAsteroid (draw : Draw) (panel : AnimationPanel) (counter : ℕ) :
    AnimationPanel :=
  if draw.touchesAsteroid counter && !panel.moonLanded && !panel.ship.landed then
    { panel with destroy := true }
  else panel

/-- The branch for `destroy`. -/
def AnimationPanel.crash (panel : AnimationPanel) : AnimationPanel :=
  if panel.destroy then
    { panel with
      ship := panel.ship.place panelSize panelSize
      died := true
      scoreDataList := panel.scoreDataList ++ [panel.curScore] }
  else panel

/-- The order of the high scores: higher scores come first. -/
def higher (first second : Int32) : Prop := second ≤ first

instance : DecidableRel higher := fun first second => inferInstanceAs (Decidable (second ≤ first))

/-- The loop of `highScore` that removes entries, from an index on. -/
def removeFrom (size : ℕ) (scores : List Int32) : List Int32 :=
  if size < scores.length then removeFrom (size + 1) (scores.eraseIdx size) else scores
termination_by scores.length - size
decreasing_by
  rename_i h
  rw [List.length_eraseIdx_of_lt h]
  omega

/-- `highScore`: sorted by exchanges, and from five entries on some entries removed. -/
def highScore (scores : List Int32) : List Int32 :=
  let sorted := Ranking.exchangeSort higher scores
  if 5 ≤ sorted.length then removeFrom 5 sorted else sorted

/-- The branch for `died`. The loops over moons and asteroids there find the lists empty. -/
def AnimationPanel.reset (panel : AnimationPanel) : AnimationPanel :=
  if panel.died then
    { panel with
      destroy := false
      initPosition := true
      moonLanded := false
      earnPoints := false
      scoreDataList := highScore panel.scoreDataList
      moonAnimations := []
      asteroidAnimations := []
      moonNum := 0
      asteroidNum := 0
      curScore := 1000
      level := 1
      ship := (panel.ship.setLanded false).setInitStep
      landings := 0
      docked := 0 }
  else panel

/-- `setSpeed` of the first animations of a list, as many as are asked for; `get` throws an
exception if there are fewer. -/
def setSpeeds (count : ℕ) (animations : List Animation) : Option (List Animation) :=
  if count ≤ animations.length then
    some ((animations.take count).map (fun animation => animation.setSpeed speedIncreased) ++
      animations.drop count)
  else none

/-- The branch of the next level, for the last moon. The new moons are the fifth and the following
ones of this paint. -/
def AnimationPanel.nextLevel (panel : AnimationPanel) (draw : Draw) :
    Except AnimationPanel AnimationPanel :=
  let faster : AnimationPanel := { panel with
    moonAnimations := panel.moonAnimations.map (fun moon : Animation => moon.setSpeed speedIncreased) ++
      (List.range 3).map fun k =>
        (Animation.new moonSize (draw.moon (4 + k))).setSpeed speedIncreased }
  match setSpeeds 4 faster.asteroidAnimations with
  | some asteroids =>
    .ok { faster with
      asteroidAnimations := asteroids
      ship := faster.ship.setStep speedIncreased
      level := faster.level + 1 }
  | none =>
    .error { faster with
      asteroidAnimations :=
        faster.asteroidAnimations.map fun asteroid : Animation => asteroid.setSpeed speedIncreased }

/-- The test for the next level. -/
def AnimationPanel.levelUp (panel : AnimationPanel) (draw : Draw) :
    Except AnimationPanel AnimationPanel :=
  if panel.moonAnimations.length = 1 ∧ panel.ship.landed then panel.nextLevel draw else .ok panel

section Moves

variable (trig : Trigonometry)

/-- The loop over the moons. Each is tested before its own repaint. -/
def AnimationPanel.paintMoons (panel : AnimationPanel) (draw : Draw) : AnimationPanel :=
  let met := (List.range panel.moonAnimations.length).foldl (AnimationPanel.meetMoon draw) panel
  { met with moonAnimations := panel.moonAnimations.map (Animation.repaint trig) }

/-- The loop over the asteroids. Each is tested before its own repaint. -/
def AnimationPanel.paintAsteroids (panel : AnimationPanel) (draw : Draw) : AnimationPanel :=
  let met := (List.range panel.asteroidAnimations.length).foldl
    (AnimationPanel.meetAsteroid draw) panel
  { met with asteroidAnimations := panel.asteroidAnimations.map (Animation.repaint trig) }

/-- The flight of the ship. -/
def AnimationPanel.fly (panel : AnimationPanel) : AnimationPanel :=
  let moved := panel.ship.forwardMove trig
  { panel with ship := (moved.place moved.nextX moved.nextY).outOfBound }

/-- `paintComponent`: the panel after it, or as it is when the paint breaks off. -/
def AnimationPanel.paintComponent (panel : AnimationPanel) (draw : Draw) :
    Except AnimationPanel AnimationPanel :=
  let ready := (panel.fill draw).init
  match ready.dock with
  | some docked =>
    ((((docked.paintMoons trig draw).paintAsteroids trig draw).crash.reset).levelUp draw).map
      (AnimationPanel.fly trig)
  | none => .error ready

end Moves

end Coursework.GalacticMail
