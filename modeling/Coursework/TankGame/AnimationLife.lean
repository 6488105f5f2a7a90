import Coursework.TankGame.Graphics
import Mathlib.Algebra.Order.Ring.Nat
import Mathlib.Logic.Function.Iterate
import Mathlib.Tactic.Ring

/-!
# The life of an animation

A plain animation counts its repaints in three counters. A frame lasts one repaint more than
its delay, while the test that ends the animation compares all repaints with the delay times
the number of frames: the animation ends early, and not every frame need have been drawn.
-/

namespace Coursework.TankGame

/-- The frame that `repaint` draws, if it draws one. -/
def Animation.drawnFrame (animation : Animation) : Option ℕ :=
  if animation.stop then none else some animation.repaint.currentFrame

/-- The number of changes of frame up to the one that stops an animation. -/
def frameChanges (frames delay : ℕ) : ℕ := delay * frames / (delay + 1) + 1

/-- The number of repaints up to the one that stops an animation. -/
def lifetime (frames delay : ℕ) : ℕ := (delay + 1) * frameChanges frames delay

/-- A stopped animation changes no more. -/
theorem Animation.repaint_of_stop {animation : Animation} (h : animation.stop = true) :
    animation.repaint = animation := if_pos h

/-- An animation after so many repaints, none of them after the one that stops it. -/
structure Animation.At (frames delay repaints : ℕ) (animation : Animation) : Prop where
  spriteFrames : animation.spriteFrames = frames
  frameDelay : animation.frameDelay = delay
  loop : animation.loop = false
  duration : animation.duration = repaints
  frameCount : animation.frameCount = repaints % (delay + 1)
  currentFrame : animation.currentFrame = repaints / (delay + 1) % frames
  stop : animation.stop = decide (lifetime frames delay ≤ repaints)

variable {frames delay : ℕ}

/-- A new animation has not been repainted. -/
theorem Animation.At.new (frames delay : ℕ) (x y : ℤ) :
    (Animation.new frames x y delay false).At frames delay 0 where
  spriteFrames := rfl
  frameDelay := rfl
  loop := rfl
  duration := rfl
  frameCount := (Nat.zero_mod _).symm
  currentFrame := by
    rw [Nat.zero_div, Nat.zero_mod]
    rfl
  stop := by
    have hpos : 0 < lifetime frames delay := Nat.mul_pos (Nat.succ_pos _) (Nat.succ_pos _)
    exact (decide_eq_false (Nat.not_le.mpr hpos)).symm

/-- At a change of frame, the duration exceeds the total time from the last change on. -/
theorem totalTime_lt_iff (frames delay changes : ℕ) :
    delay * frames < (delay + 1) * changes ↔ lifetime frames delay ≤ (delay + 1) * changes := by
  rw [lifetime, frameChanges, Nat.mul_le_mul_left_iff (Nat.succ_pos delay), Nat.succ_le_iff,
    Nat.div_lt_iff_lt_mul (Nat.succ_pos delay), Nat.mul_comm changes]

/-- A repaint that comes to a change of frame. -/
theorem Animation.At.repaint_of_dvd {repaints : ℕ} {animation : Animation}
    (h : animation.At frames delay repaints) (hlive : animation.stop = false)
    (hdvd : delay + 1 ∣ repaints + 1) : animation.repaint.At frames delay (repaints + 1) := by
  have hfull : repaints % (delay + 1) = delay :=
    Nat.succ_mod_succ_eq_zero_iff.mp (Nat.mod_eq_zero_of_dvd hdvd)
  have hchange : animation.frameDelay < animation.frameCount + 1 := by
    rw [h.frameDelay, h.frameCount, hfull]
    exact Nat.lt_succ_self delay
  rw [Animation.repaint, hlive, if_neg Bool.false_ne_true, if_pos hchange]
  refine ⟨h.spriteFrames, h.frameDelay, h.loop, congrArg (· + 1) h.duration, ?_, ?_, ?_⟩
  · exact (Nat.mod_eq_zero_of_dvd hdvd).symm
  · rw [h.spriteFrames, h.currentFrame, Nat.succ_div_of_dvd hdvd, Nat.mod_add_mod]
  · obtain ⟨changes, hchanges⟩ := hdvd
    rw [h.loop, h.duration, Animation.totalTime, h.frameDelay, h.spriteFrames, hchanges,
      Bool.not_false, Bool.and_true, decide_eq_decide]
    exact totalTime_lt_iff frames delay changes

/-- A repaint in between. -/
theorem Animation.At.repaint_of_not_dvd {repaints : ℕ} {animation : Animation}
    (h : animation.At frames delay repaints) (hlive : animation.stop = false)
    (hdvd : ¬delay + 1 ∣ repaints + 1) : animation.repaint.At frames delay (repaints + 1) := by
  have hmod : repaints % (delay + 1) + 1 < delay + 1 := by
    have hlt : repaints % (delay + 1) < delay + 1 := Nat.mod_lt _ (Nat.succ_pos delay)
    have hne : repaints % (delay + 1) ≠ delay := fun hfull =>
      hdvd (Nat.dvd_of_mod_eq_zero (Nat.succ_mod_succ_eq_zero_iff.mpr hfull))
    omega
  have hstay : ¬animation.frameDelay < animation.frameCount + 1 := by
    rw [h.frameDelay, h.frameCount]
    omega
  rw [Animation.repaint, hlive, if_neg Bool.false_ne_true, if_neg hstay]
  refine ⟨h.spriteFrames, h.frameDelay, h.loop, congrArg (· + 1) h.duration, ?_, ?_, ?_⟩
  · rw [h.frameCount, ← Nat.mod_add_mod repaints, Nat.mod_eq_of_lt hmod]
  · rw [h.currentFrame, Nat.succ_div_of_not_dvd hdvd]
  · refine (decide_eq_false ?_).symm
    intro hle
    have hlt : repaints < lifetime frames delay :=
      Nat.not_le.mp (of_decide_eq_false (h.stop.symm.trans hlive))
    have heq : lifetime frames delay = repaints + 1 := by omega
    exact hdvd (heq ▸ Nat.dvd_mul_right _ _)

/-- A repaint before the animation stops. -/
theorem Animation.At.repaint {repaints : ℕ} {animation : Animation}
    (h : animation.At frames delay repaints) (hlt : repaints < lifetime frames delay) :
    animation.repaint.At frames delay (repaints + 1) := by
  have hlive : animation.stop = false := h.stop.trans (decide_eq_false (Nat.not_le.mpr hlt))
  by_cases hdvd : delay + 1 ∣ repaints + 1
  · exact h.repaint_of_dvd hlive hdvd
  · exact h.repaint_of_not_dvd hlive hdvd

/-- A non-looping animation after so many repaints. -/
def lifeAt (frames delay : ℕ) (x y : ℤ) (repaints : ℕ) : Animation :=
  Animation.repaint^[repaints] (.new frames x y delay false)

variable {x y : ℤ}

/-- The last repaint comes last. -/
theorem lifeAt_succ (repaints : ℕ) :
    lifeAt frames delay x y (repaints + 1) = (lifeAt frames delay x y repaints).repaint :=
  Function.iterate_succ_apply' _ _ _

/-- The counters up to the end of the animation. -/
theorem at_lifeAt {repaints : ℕ} (hle : repaints ≤ lifetime frames delay) :
    (lifeAt frames delay x y repaints).At frames delay repaints := by
  induction repaints with
  | zero => exact .new frames delay x y
  | succ repaints ih =>
    rw [lifeAt_succ]
    exact (ih (Nat.le_of_succ_le hle)).repaint hle

/-- From the end on, the animation is stopped. -/
theorem stop_lifeAt_add (more : ℕ) :
    (lifeAt frames delay x y (lifetime frames delay + more)).stop = true := by
  induction more with
  | zero => exact (at_lifeAt (Nat.le_refl _)).stop.trans (decide_eq_true (Nat.le_refl _))
  | succ more ih =>
    rw [← Nat.add_assoc, lifeAt_succ, Animation.repaint_of_stop ih]
    exact ih

/-- The animation is stopped from its end on, and not before. -/
theorem stop_lifeAt_iff (repaints : ℕ) :
    (lifeAt frames delay x y repaints).stop = true ↔ lifetime frames delay ≤ repaints := by
  rcases Nat.le_total repaints (lifetime frames delay) with hle | hle
  · rw [(at_lifeAt hle).stop, decide_eq_true_iff]
  · obtain ⟨more, rfl⟩ := Nat.exists_eq_add_of_le hle
    exact iff_of_true (stop_lifeAt_add more) hle

/-- What the repaints draw. -/
theorem drawnFrame_lifeAt (repaints : ℕ) :
    (lifeAt frames delay x y repaints).drawnFrame =
      if repaints < lifetime frames delay then some ((repaints + 1) / (delay + 1) % frames)
      else none := by
  by_cases hlt : repaints < lifetime frames delay
  · have hnext : (lifeAt frames delay x y repaints).repaint.At frames delay (repaints + 1) :=
      (at_lifeAt (Nat.le_of_lt hlt)).repaint hlt
    have hlive : ¬(lifeAt frames delay x y repaints).stop = true :=
      (stop_lifeAt_iff repaints).not.mpr (Nat.not_le.mpr hlt)
    rw [if_pos hlt, Animation.drawnFrame, if_neg hlive, hnext.currentFrame]
  · rw [if_neg hlt, Animation.drawnFrame, if_pos ((stop_lifeAt_iff repaints).mpr (by omega))]

/-- The frames that are drawn are those up to the last change, in a circle. -/
theorem drawn_lifeAt_iff (hdelay : 1 ≤ delay) (frame : ℕ) :
    (∃ repaints, (lifeAt frames delay x y repaints).drawnFrame = some frame) ↔
      ∃ change ≤ frameChanges frames delay, change % frames = frame := by
  constructor
  · rintro ⟨repaints, hdrawn⟩
    rw [drawnFrame_lifeAt] at hdrawn
    split at hdrawn
    · rename_i hlt
      refine ⟨(repaints + 1) / (delay + 1), ?_, Option.some.inj hdrawn⟩
      exact Nat.div_le_of_le_mul hlt
    · cases hdrawn
  · rintro ⟨change, hle, rfl⟩
    have hlast : (delay + 1) * change ≤ lifetime frames delay := Nat.mul_le_mul_left _ hle
    rcases Nat.eq_zero_or_pos change with rfl | hpos
    · refine ⟨0, ?_⟩
      have hlive : 0 < lifetime frames delay := Nat.mul_pos (Nat.succ_pos _) (Nat.succ_pos _)
      rw [drawnFrame_lifeAt, if_pos hlive, Nat.div_eq_of_lt (by omega)]
    · have hcalls : 0 < (delay + 1) * change := Nat.mul_pos (Nat.succ_pos _) hpos
      refine ⟨(delay + 1) * change - 1, ?_⟩
      rw [drawnFrame_lifeAt, if_pos (by omega), Nat.sub_add_cancel hcalls,
        Nat.mul_div_cancel_left _ (Nat.succ_pos delay)]

/-- The changes come round to every frame if they come to the last one. -/
theorem forall_mod_eq_iff (hframes : 1 ≤ frames) (last : ℕ) :
    (∀ frame < frames, ∃ change ≤ last, change % frames = frame) ↔ frames ≤ last + 1 := by
  constructor
  · intro h
    obtain ⟨change, hle, hchange⟩ := h (frames - 1) (by omega)
    have hmod := Nat.mod_le change frames
    omega
  · intro hle frame hlt
    exact ⟨frame, by omega, Nat.mod_eq_of_lt hlt⟩

/-- The last change comes to the last frame if there are few enough frames. -/
theorem le_frameChanges_iff : frames ≤ frameChanges frames delay + 1 ↔ frames ≤ 2 * delay + 2 := by
  have hdiv : frames ≤ frameChanges frames delay + 1 ↔
      (frames - 2) * (delay + 1) ≤ delay * frames := by
    rw [← Nat.le_div_iff_mul_le (Nat.succ_pos delay), frameChanges, Nat.add_assoc,
      Nat.sub_le_iff_le_add]
  rw [hdiv]
  rcases Nat.lt_or_ge frames 2 with hfew | hmany
  · rw [Nat.sub_eq_zero_of_le (Nat.le_of_lt hfew), Nat.zero_mul]
    exact iff_of_true (Nat.zero_le _) (by omega)
  · obtain ⟨rest, rfl⟩ := Nat.exists_eq_add_of_le' hmany
    have hleft : (rest + 2 - 2) * (delay + 1) = delay * rest + rest := by
      rw [Nat.add_sub_cancel]
      ring
    have hright : delay * (rest + 2) = delay * rest + 2 * delay := by ring
    rw [hleft, hright]
    omega

/-- A non-looping animation draws on exactly the repaints of its lifetime, the last of which stops
it, and draws every frame exactly when there are at most two frames for each repaint of a frame. -/
theorem Animation.life (frames delay : ℕ) (x y : ℤ) (hframes : 1 ≤ frames) (hdelay : 1 ≤ delay) :
    (∀ repaints, (lifeAt frames delay x y repaints).drawnFrame.isSome = true ↔
      repaints < (delay + 1) * (delay * frames / (delay + 1) + 1)) ∧
    (∀ repaints, (lifeAt frames delay x y repaints).stop = true ↔
      (delay + 1) * (delay * frames / (delay + 1) + 1) ≤ repaints) ∧
    ((∀ frame < frames, ∃ repaints,
        (lifeAt frames delay x y repaints).drawnFrame = some frame) ↔
      frames ≤ 2 * delay + 2) := by
  refine ⟨?_, stop_lifeAt_iff, ?_⟩
  · intro repaints
    rw [drawnFrame_lifeAt]
    split
    · rename_i hlt
      exact iff_of_true rfl hlt
    · rename_i hge
      exact iff_of_false Bool.false_ne_true hge
  · have hdrawn : (∀ frame < frames, ∃ repaints,
          (lifeAt frames delay x y repaints).drawnFrame = some frame) ↔
        ∀ frame < frames, ∃ change ≤ frameChanges frames delay, change % frames = frame :=
      forall_congr' fun frame => imp_congr_right fun _ => drawn_lifeAt_iff hdelay frame
    rw [hdrawn, forall_mod_eq_iff hframes, le_frameChanges_iff]

/-- The explosion of a tank: eight frames, each with a delay of five. -/
theorem Animation.life_explosion :
    (∀ repaints, (lifeAt 8 5 160 160 repaints).drawnFrame.isSome = true ↔
      repaints < (5 + 1) * (5 * 8 / (5 + 1) + 1)) ∧
    (∀ repaints, (lifeAt 8 5 160 160 repaints).stop = true ↔
      (5 + 1) * (5 * 8 / (5 + 1) + 1) ≤ repaints) ∧
    ((∀ frame < 8, ∃ repaints, (lifeAt 8 5 160 160 repaints).drawnFrame = some frame) ↔
      8 ≤ 2 * 5 + 2) :=
  Animation.life 8 5 160 160 (by decide) (by decide)

end Coursework.TankGame
