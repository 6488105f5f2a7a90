import Coursework.TankGame.PaintLoop
import Coursework.Transition.Observation

/-!
# Ticks of the tank game

The thread of the game looks at the keys held down once in a tick, first for the second
tank and then for the first; nothing is moved or fired once a player is out of lives. Keys,
ticks and paints come in any order, each as one step.
-/

namespace Coursework.TankGame

open Transition

/-- A key event, a turn of the loop of `run`, or a paint. The arrow keys and enter control the second
tank, the keys A, D, W, S and space the first. -/
inductive Event where
  | keyPressed (t : Tank) (control : Control)
  | keyReleased (t : Tank) (control : Control)
  | tick
  | paint
  deriving DecidableEq

/-- The panel with a key held down or not. -/
def AnimationPanel.setKey (panel : AnimationPanel) (t : Tank) (control : Control) (down : Bool) :
    AnimationPanel :=
  { panel with
    pressed := Function.update panel.pressed t (Function.update (panel.pressed t) control down) }

/-- The branch that a key held down selects. -/
def AnimationPanel.whenPressed (panel : AnimationPanel) (t : Tank) (control : Control)
    (act : AnimationPanel → AnimationPanel) : AnimationPanel :=
  if panel.pressed t control then act panel else panel

/-- A step to the next place of a tank, unless the tank collides there. -/
def AnimationPanel.move (panel : AnimationPanel) (t : Tank) (next : TankObject → TankObject) :
    AnimationPanel :=
  let tank := next (panel.tank t)
  let tested := (panel.setTank t tank).setArray
  if tank.collisionToWall tested.breakableWall || tank.collisionToTank (panel.tank t.other) then
    tested
  else tested.setTank t { tank with x := tank.nextX, y := tank.nextY }

/-- The panel as play starts on a level. -/
def AnimationPanel.new (level : Level) : AnimationPanel :=
  let panel : AnimationPanel :=
    { tank := fun _ => .new
      player := fun
        | .tank1 => .new '3'
        | .tank2 => .new '4'
      breakableWall := .new level
      animations := []
      pressed := fun _ _ => false }
  (panel.setArray.setInitPosition .tank1).setInitPosition .tank2

section Moves

variable (trig : Trigonometry)

/-- A new bullet at the muzzle of a tank. -/
def AnimationPanel.fire (panel : AnimationPanel) (t : Tank) : AnimationPanel :=
  let tank := panel.tank t
  { panel with
    animations := panel.animations ++
      [.shot ⟨t, tank.index, tank.fireStartX trig, tank.fireStartY trig, false⟩] }

/-- What a tick does for one tank: one test after the other. -/
def AnimationPanel.drive (panel : AnimationPanel) (t : Tank) : AnimationPanel :=
  ((((panel.whenPressed t .left fun panel => panel.setTank t (panel.tank t).rotateLeft).whenPressed
    t .right fun panel => panel.setTank t (panel.tank t).rotateRight).whenPressed
    t .up fun panel => panel.move t (TankObject.forwardMove trig)).whenPressed
    t .down fun panel => panel.move t (TankObject.reverseMove trig)).whenPressed
    t .fire fun panel => panel.fire trig t

/-- A turn of the loop of `run`. -/
def AnimationPanel.tick (panel : AnimationPanel) : AnimationPanel :=
  if (panel.player .tank1).endGame || (panel.player .tank2).endGame then panel
  else (panel.drive trig .tank2).drive trig .tank1

/-- The branch of a key held down is taken. -/
theorem AnimationPanel.whenPressed_of_pressed (panel : AnimationPanel) {t : Tank}
    {control : Control} (h : panel.pressed t control = true)
    (act : AnimationPanel → AnimationPanel) : panel.whenPressed t control act = act panel :=
  if_pos h

/-- The branch of another key is not taken. -/
theorem AnimationPanel.whenPressed_of_released (panel : AnimationPanel) {t : Tank}
    {control : Control} (h : panel.pressed t control = false)
    (act : AnimationPanel → AnimationPanel) : panel.whenPressed t control act = panel :=
  if_neg (Bool.eq_false_iff.mp h)

/-- What the branch for a key keeps holds after the test. -/
theorem AnimationPanel.whenPressed_keeps {P : AnimationPanel → Prop} {panel : AnimationPanel}
    {act : AnimationPanel → AnimationPanel} (t : Tank) (control : Control) (h : P panel)
    (hact : ∀ panel, P panel → P (act panel)) : P (panel.whenPressed t control act) := by
  rw [AnimationPanel.whenPressed]
  split
  · exact hact panel h
  · exact h

/-- What rotations, moves and shots keep, driving a tank keeps. -/
theorem AnimationPanel.drive_keeps {P : AnimationPanel → Prop} {panel : AnimationPanel}
    (h : P panel) (t : Tank)
    (hleft : ∀ panel t, P panel → P (panel.setTank t (panel.tank t).rotateLeft))
    (hright : ∀ panel t, P panel → P (panel.setTank t (panel.tank t).rotateRight))
    (hup : ∀ panel t, P panel → P (panel.move t (TankObject.forwardMove trig)))
    (hdown : ∀ panel t, P panel → P (panel.move t (TankObject.reverseMove trig)))
    (hfire : ∀ panel t, P panel → P (panel.fire trig t)) : P (panel.drive trig t) := by
  refine whenPressed_keeps t .fire ?_ fun panel => hfire panel t
  refine whenPressed_keeps t .down ?_ fun panel => hdown panel t
  refine whenPressed_keeps t .up ?_ fun panel => hup panel t
  refine whenPressed_keeps t .right ?_ fun panel => hright panel t
  exact whenPressed_keeps t .left h fun panel => hleft panel t

/-- What rotations, moves and shots keep, a tick keeps. -/
theorem AnimationPanel.tick_keeps {P : AnimationPanel → Prop} {panel : AnimationPanel}
    (h : P panel)
    (hleft : ∀ panel t, P panel → P (panel.setTank t (panel.tank t).rotateLeft))
    (hright : ∀ panel t, P panel → P (panel.setTank t (panel.tank t).rotateRight))
    (hup : ∀ panel t, P panel → P (panel.move t (TankObject.forwardMove trig)))
    (hdown : ∀ panel t, P panel → P (panel.move t (TankObject.reverseMove trig)))
    (hfire : ∀ panel t, P panel → P (panel.fire trig t)) : P (panel.tick trig) := by
  have hdrive : ∀ panel t, P panel → P (panel.drive trig t) := fun panel t h =>
    panel.drive_keeps trig h t hleft hright hup hdown hfire
  rw [AnimationPanel.tick]
  split
  · exact h
  · exact hdrive _ _ (hdrive _ _ h)

/-- What an event does. -/
def AnimationPanel.step (panel : AnimationPanel) : Event → AnimationPanel
  | .keyPressed t control => panel.setKey t control true
  | .keyReleased t control => panel.setKey t control false
  | .tick => panel.tick trig
  | .paint => panel.paintComponent trig

/-- The game; a paint shows the players. -/
def game : TotalMachine AnimationPanel Event (Tank → Players) where
  step := AnimationPanel.step trig
  observe := AnimationPanel.player

/-- The parts of the events keep a property of the panel. -/
structure Kept (P : AnimationPanel → Prop) : Prop where
  setKey : ∀ panel t control down, P panel → P (panel.setKey t control down)
  animations : ∀ panel animations, P panel → P { panel with animations := animations }
  rotateLeft : ∀ panel t, P panel → P (panel.setTank t (panel.tank t).rotateLeft)
  rotateRight : ∀ panel t, P panel → P (panel.setTank t (panel.tank t).rotateRight)
  forwardMove : ∀ panel t, P panel → P (panel.move t (TankObject.forwardMove trig))
  reverseMove : ∀ panel t, P panel → P (panel.move t (TankObject.reverseMove trig))
  meetWall : ∀ panel bullet, P panel → P (panel.meetWall bullet).1
  hit : ∀ panel t, P panel → P (panel.hit t)
  paint : ∀ panel, P panel →
    P { panel with player := fun t => (panel.player t).paintHealth.paintLives }

/-- A property kept by the parts of an event is kept by the event. -/
theorem Kept.step {P : AnimationPanel → Prop} (h : Kept trig P) (panel : AnimationPanel)
    (event : Event) (hpanel : P panel) : P (panel.step trig event) := by
  cases event with
  | keyPressed t control => exact h.setKey panel t control true hpanel
  | keyReleased t control => exact h.setKey panel t control false hpanel
  | tick =>
    exact panel.tick_keeps trig hpanel h.rotateLeft h.rotateRight h.forwardMove h.reverseMove
      fun _ _ => h.animations _ _
  | paint =>
    exact h.paint _ (panel.paintLoop_keeps trig 0 hpanel h.animations h.meetWall h.hit)

/-- A property kept by the parts of the events holds after every run. -/
theorem Kept.run {P : AnimationPanel → Prop} (h : Kept trig P) {panel : AnimationPanel}
    (hpanel : P panel) (events : List Event) : P ((game trig).run panel events) :=
  (game trig).run_invariant P (fun panel event => h.step trig panel event) panel hpanel events

end Moves

end Coursework.TankGame
