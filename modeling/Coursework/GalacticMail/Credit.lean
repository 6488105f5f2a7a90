import Coursework.GalacticMail.Rounds
import Mathlib.Algebra.Ring.Int.Defs

/-!
# The credit for a landing

A landing is counted in a later paint, at the dock, and a stay there costs a point. While the
credit for a landing is due, the ship is at the dock, and it is not launched before the score is
counted.
-/

namespace Coursework.GalacticMail

open TankGame (Trigonometry)
open Transition

/-- The score that the landings and the paints with `setScore` come to, without a credit that is
due. -/
def AnimationPanel.ledger (panel : AnimationPanel) : ℤ :=
  1000 + 1000 * panel.landings - panel.docked - if panel.earnPoints then 1000 else 0

/-- Every landing has been credited once, or is about to be. -/
structure Credited (panel : AnimationPanel) : Prop where
  curScore : panel.curScore = Int32.ofInt panel.ledger
  due : panel.earnPoints = true →
    panel.moonLanded = true ∧ (panel.start = true ∨ panel.ship.landed = true)

/-- The score is counted with the credit that is due. -/
theorem Credited.paid {panel : AnimationPanel} (h : Credited panel) :
    panel.paid = Int32.ofInt (1000 + 1000 * panel.landings - panel.docked - 1) := by
  have hscore := h.curScore
  have hone : (1 : Int32) = Int32.ofInt 1 := rfl
  have hthousand : score = Int32.ofInt 1000 := rfl
  rw [AnimationPanel.ledger] at hscore
  rw [AnimationPanel.paid, hscore, hone, hthousand]
  split
  · rw [← Int32.ofInt_add, ← Int32.ofInt_sub, Int.sub_add_cancel]
  · rw [← Int32.ofInt_sub, Int.sub_zero]

/-- Nothing is due after `setScore`. -/
theorem Credited.setScore {panel : AnimationPanel} (h : Credited panel) :
    Credited panel.setScore ∧ panel.setScore.earnPoints = false := by
  rw [AnimationPanel.setScore_eq, h.paid]
  refine ⟨⟨?_, nofun⟩, rfl⟩
  have hledger : (1000 + 1000 * panel.landings - panel.docked - 1 : ℤ) =
      1000 + 1000 * panel.landings - (panel.docked + 1 : ℕ) - 0 := by omega
  change Int32.ofInt _ = Int32.ofInt _
  rw [hledger]
  rfl

/-- A launch waits for a credit that is due. -/
theorem Credited.dockAt {panel : AnimationPanel} (h : Credited panel) (moon : Animation) :
    Credited (panel.dockAt moon) := by
  have hplaced : Credited (panel.setShip (panel.ship.place moon.x moon.y)) := ⟨h.curScore, h.due⟩
  rw [AnimationPanel.dockAt, AnimationPanel.stay]
  split
  · obtain ⟨hcredited, hnone⟩ := hplaced.setScore
    rw [AnimationPanel.launch]
    split
    · exact hcredited
    · exact ⟨hcredited.curScore, fun hdue => absurd (hnone.symm.trans hdue) Bool.false_ne_true⟩
  · rename_i hstopped
    rw [AnimationPanel.launch]
    split
    · exact hplaced
    · rename_i hlaunched
      refine ⟨h.curScore, fun hdue => ?_⟩
      rcases (h.due hdue).2 with hstart | hlanded
      · exact absurd hstart hstopped
      · exact absurd hlanded hlaunched

/-- A landing is due once. -/
theorem Credited.land {panel : AnimationPanel} (h : Credited panel)
    (hflight : panel.moonLanded = false) (counter : ℕ) : Credited (panel.countLanding.land counter) := by
  have hnone : panel.earnPoints = false := by
    refine Bool.eq_false_iff.mpr fun hdue => ?_
    exact absurd (hflight.symm.trans (h.due hdue).1) Bool.false_ne_true
  refine ⟨?_, fun _ => ⟨rfl, Or.inr rfl⟩⟩
  have hscore := h.curScore
  rw [AnimationPanel.ledger, hnone, if_neg Bool.false_ne_true] at hscore
  have hledger : (1000 + 1000 * panel.landings - panel.docked - 0 : ℤ) =
      1000 + 1000 * (panel.landings + 1 : ℕ) - panel.docked - 1000 := by omega
  exact hscore.trans (congrArg Int32.ofInt hledger)

/-- A new game starts with 1000 points. -/
theorem Credited.reset {panel : AnimationPanel} (h : Credited panel)  :
    Credited panel.crash.reset := by
  have hcrash : Credited panel.crash := by
    rw [AnimationPanel.crash]
    split
    · exact ⟨h.curScore, h.due⟩
    · exact h
  rw [AnimationPanel.reset]
  split
  · exact ⟨rfl, fun hdue => absurd hdue Bool.false_ne_true⟩
  · exact hcrash

/-- The panel is ready for the dock with the credits it had. -/
theorem Credited.ready {panel : AnimationPanel} (h : Credited panel) (draw : Draw) :
    Credited (panel.fill draw).init := by
  rw [AnimationPanel.init]
  split
  · exact ⟨h.curScore, fun _ => ⟨rfl, Or.inr rfl⟩⟩
  · exact ⟨h.curScore, h.due⟩

/-- A ship that is docked is launched in a game only. -/
theorem Credited.tick {panel : AnimationPanel} (h : Credited panel) : Credited panel.tick := by
  obtain ⟨ship, -, hship, htick⟩ := panel.tick_eq
  have hlanded : panel.earnPoints = true → panel.start = true ∨ ship.landed = true := by
    intro hdue
    rcases hship with hsame | hstart
    · exact (h.due hdue).2.imp_right hsame.trans
    · exact Or.inl hstart
  rw [htick]
  split
  · exact ⟨h.curScore, fun hdue => ⟨(h.due hdue).1, Or.inl rfl⟩⟩
  · exact ⟨h.curScore, fun hdue => ⟨(h.due hdue).1, hlanded hdue⟩⟩

/-- The credits are in order after every run. -/
theorem Credited.run (trig : Trigonometry) (events : List Event) :
    Credited ((game trig).run .new events) := by
  refine ((game trig).run_invariant (fun panel => Round panel ∧ Credited panel) ?_ .new
    ⟨Or.inl .new, rfl, nofun⟩ events).2
  rintro panel event ⟨hround, h⟩
  cases event with
  | keyPressed key => exact ⟨hround.setKey key true, h.curScore, h.due⟩
  | keyReleased key => exact ⟨hround.setKey key false, h.curScore, h.due⟩
  | tick => exact ⟨hround.tick, h.tick⟩
  | paint draw =>
    exact hround.paint_keeps trig draw (h.ready draw) (fun moon _ => (h.ready draw).dockAt moon)
      (fun _ h => ⟨h.curScore, h.due⟩) (fun _ counter hflight _ h => h.land hflight counter)
      (fun _ h => ⟨h.curScore, h.due⟩) (fun _ _ _ _ h => ⟨h.curScore, h.due⟩)
      (fun _ _ h => h.reset) (fun _ _ _ _ h => ⟨h.curScore, h.due⟩) fun _ h => ⟨h.curScore, h.due⟩

/-- The score and the credit that is due, in the arithmetic of the score. -/
theorem Credited.add_due {panel : AnimationPanel} (h : Credited panel) :
    panel.curScore + (if panel.earnPoints then score else 0) =
      Int32.ofInt (1000 + 1000 * panel.landings - panel.docked) := by
  have hscore := h.curScore
  have hthousand : score = Int32.ofInt 1000 := rfl
  rw [AnimationPanel.ledger] at hscore
  rw [hscore, hthousand]
  split
  · rw [← Int32.ofInt_add, Int.sub_add_cancel]
  · rw [Int.sub_zero, Int32.add_zero]

/-- The score and the credit that is due, as long as the score does not overflow. -/
theorem Credited.toInt_add_due {panel : AnimationPanel} (h : Credited panel)
    (hlow : -2 ^ 31 ≤ panel.ledger) (hhigh : panel.ledger < 2 ^ 31) :
    panel.curScore.toInt + (if panel.earnPoints then 1000 else 0) =
      1000 + 1000 * panel.landings - panel.docked := by
  rw [h.curScore, Int32.toInt_ofInt_of_le hlow hhigh, AnimationPanel.ledger, Int.sub_add_cancel]

/-- Whatever is played, every landing since the last new game is credited exactly once. -/
theorem run_landings_credited (trig : Trigonometry) (events : List Event) :
    ((game trig).run .new events).curScore +
          (if ((game trig).run .new events).earnPoints then score else 0) =
        Int32.ofInt (1000 + 1000 * ((game trig).run .new events).landings -
          ((game trig).run .new events).docked) ∧
      (-2 ^ 31 ≤ ((game trig).run .new events).ledger →
        ((game trig).run .new events).ledger < 2 ^ 31 →
        ((game trig).run .new events).curScore.toInt +
            (if ((game trig).run .new events).earnPoints then 1000 else 0) =
          1000 + 1000 * ((game trig).run .new events).landings -
            ((game trig).run .new events).docked) :=
  ⟨(Credited.run trig events).add_due, (Credited.run trig events).toInt_add_due⟩

end Coursework.GalacticMail
