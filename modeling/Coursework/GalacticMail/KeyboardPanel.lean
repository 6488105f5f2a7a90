import Coursework.GalacticMail.AnimationPanel
import Coursework.Transition.Observation

/-!
# Ticks of Galactic Mail

The thread of the game looks at the keys held down once in a tick: the ship is steered while a
game is on, and enter starts one. Keys, ticks and paints come in any order, each as one step.
-/

namespace Coursework.GalacticMail

open TankGame (Trigonometry)
open Transition

/-- A key event, a turn of the loop of `run`, or a paint. -/
inductive Event where
  | keyPressed (key : Key)
  | keyReleased (key : Key)
  | tick
  | paint (draw : Draw)

/-- The panel with a key held down or not. -/
def AnimationPanel.setKey (panel : AnimationPanel) (key : Key) (down : Bool) : AnimationPanel :=
  { panel with pressed := Function.update panel.pressed key down }

/-- The branch that a key held down selects. -/
def AnimationPanel.whenPressed (panel : AnimationPanel) (key : Key)
    (act : AnimationPanel → AnimationPanel) : AnimationPanel :=
  if panel.pressed key then act panel else panel

/-- The branch for a game that is on. -/
def AnimationPanel.steer (panel : AnimationPanel) : AnimationPanel :=
  if panel.start then
    ((panel.whenPressed .left fun panel => panel.setShip panel.ship.rotateLeft).whenPressed
      .right fun panel => panel.setShip panel.ship.rotateRight).whenPressed
      .space fun panel => panel.setShip (panel.ship.setLanded false)
  else panel

/-- A turn of the loop of `run`. -/
def AnimationPanel.tick (panel : AnimationPanel) : AnimationPanel :=
  panel.steer.whenPressed .enter fun panel =>
    { panel with initPosition := true, start := true, died := false }

/-- The panel after a paint, whether it was finished or broken off. -/
def AnimationPanel.left : Except AnimationPanel AnimationPanel → AnimationPanel
  | .ok panel => panel
  | .error panel => panel

section Moves

variable (trig : Trigonometry)

/-- What an event does. -/
def AnimationPanel.step (panel : AnimationPanel) : Event → AnimationPanel
  | .keyPressed key => panel.setKey key true
  | .keyReleased key => panel.setKey key false
  | .tick => panel.tick
  | .paint draw => .left (panel.paintComponent trig draw)

/-- The game; a paint shows level and score. -/
def game : TotalMachine AnimationPanel Event (ℤ × Int32) where
  step := AnimationPanel.step trig
  observe := fun panel => (panel.level, panel.curScore)

end Moves

/-- A branch for a key keeps what its action keeps. -/
theorem AnimationPanel.whenPressed_keeps {P : AnimationPanel → Prop} {panel : AnimationPanel} (key : Key)
    {act : AnimationPanel → AnimationPanel} (h : P panel) (hact : ∀ panel, P panel → P (act panel)) :
    P (panel.whenPressed key act) := by
  rw [AnimationPanel.whenPressed]
  split
  · exact hact panel h
  · exact h

/-- Steering changes the ship only, and not its step. -/
theorem AnimationPanel.steer_eq (panel : AnimationPanel) :
    ∃ ship, panel.steer = panel.setShip ship ∧ ship.step = panel.ship.step ∧
      (ship.landed = panel.ship.landed ∨ panel.start = true) := by
  rw [AnimationPanel.steer]
  split
  · rename_i hstart
    simp only [AnimationPanel.whenPressed]
    split_ifs <;> exact ⟨_, rfl, rfl, Or.inr hstart⟩
  · exact ⟨panel.ship, rfl, rfl, Or.inl rfl⟩

/-- A tick steers, and starts a game if enter is held down. -/
theorem AnimationPanel.tick_eq (panel : AnimationPanel) :
    ∃ ship : ShipObject, ship.step = panel.ship.step ∧
      (ship.landed = panel.ship.landed ∨ panel.start = true) ∧
      panel.tick =
        if panel.pressed .enter then
          { panel with ship := ship, initPosition := true, start := true, died := false }
        else { panel with ship := ship } := by
  obtain ⟨ship, hsteer, hstep, hlanded⟩ := panel.steer_eq
  refine ⟨ship, hstep, hlanded, ?_⟩
  rw [AnimationPanel.tick, hsteer]
  rfl

end Coursework.GalacticMail
