import Coursework.TankGame.AnimationPanel

/-!
# The loop of a paint

A stopped animation is removed without moving the index back, so its successor is passed
over. A bullet appends at most one explosion for each tank, and explosions append nothing:
the loop ends.
-/

namespace Coursework.TankGame

/-- A hit appends at most one new explosion. -/
theorem AnimationPanel.hit_appends {P : Animation → Prop}
    (hnew : ∀ x y, P (.new explosionFrames x y 5 false)) (panel : AnimationPanel) (t : Tank) :
    ∃ explosions : List Animation, (∀ explosion ∈ explosions, P explosion) ∧
      explosions.length ≤ 1 ∧
      (panel.hit t).animations = panel.animations ++ explosions.map .plain := by
  rw [AnimationPanel.hit]
  split
  · refine ⟨[_], ?_, Nat.le_refl _, rfl⟩
    intro explosion hmem
    rw [List.mem_singleton.mp hmem]
    exact hnew _ _
  · exact ⟨[], List.forall_mem_nil _, Nat.zero_le _,
      (List.append_nil _).symm⟩

/-- Several hits append at most as many explosions. -/
theorem AnimationPanel.foldl_hit_appends {P : Animation → Prop}
    (hnew : ∀ x y, P (.new explosionFrames x y 5 false)) (panel : AnimationPanel)
    (ts : List Tank) :
    ∃ explosions : List Animation, (∀ explosion ∈ explosions, P explosion) ∧
      explosions.length ≤ ts.length ∧
      (ts.foldl AnimationPanel.hit panel).animations =
        panel.animations ++ explosions.map .plain := by
  induction ts generalizing panel with
  | nil => exact ⟨[], List.forall_mem_nil _, Nat.le_refl _,
      (List.append_nil _).symm⟩
  | cons t rest ih =>
    obtain ⟨first, hlive, hfirst, hpanel⟩ := panel.hit_appends hnew t
    obtain ⟨later, hlater, hrest, heq⟩ := ih (panel.hit t)
    refine ⟨first ++ later, ?_, ?_, ?_⟩
    · intro explosion hmem
      exact (List.mem_append.mp hmem).elim (hlive explosion) (hlater explosion)
    · rw [List.length_append, List.length_cons]
      omega
    · rw [List.foldl_cons, heq, hpanel, List.map_append, List.append_assoc]

section Moves

variable (trig : Trigonometry)

/-- A bullet appends at most two new explosions. -/
theorem AnimationPanel.repaintBullet_appends {P : Animation → Prop}
    (hnew : ∀ x y, P (.new explosionFrames x y 5 false)) (panel : AnimationPanel)
    (bullet : BulletAnimation) :
    ∃ explosions : List Animation, (∀ explosion ∈ explosions, P explosion) ∧
      explosions.length ≤ 2 ∧
      (panel.repaintBullet trig bullet).1.animations =
        panel.animations ++ explosions.map .plain := by
  have hwall : ∀ moved : BulletAnimation, (panel.meetWall moved).1.animations = panel.animations := by
    intro moved
    rw [AnimationPanel.meetWall]
    split <;> rfl
  have htank : ∀ (met : AnimationPanel) (moved : BulletAnimation),
      ∃ explosions : List Animation, (∀ explosion ∈ explosions, P explosion) ∧
        explosions.length ≤ 2 ∧
        (met.meetTank moved).1.animations = met.animations ++ explosions.map .plain := by
    intro met moved
    rw [AnimationPanel.meetTank]
    split
    · obtain ⟨explosions, hlive, hlength, hanimations⟩ :=
        met.foldl_hit_appends hnew (moved.struck met)
      exact ⟨explosions, hlive, hlength.trans (List.length_filter_le _ _), hanimations⟩
    · exact ⟨[], List.forall_mem_nil _, Nat.zero_le _, (List.append_nil _).symm⟩
  rw [AnimationPanel.repaintBullet]
  split
  · exact ⟨[], List.forall_mem_nil _, Nat.zero_le _, (List.append_nil _).symm⟩
  · obtain ⟨explosions, hlive, hlength, hanimations⟩ :=
      htank (panel.meetWall (bullet.forwardMove trig)).1 (panel.meetWall (bullet.forwardMove trig)).2
    exact ⟨explosions, hlive, hlength, hanimations.trans (by rw [hwall])⟩

/-- A bullet appends at most two explosions, which are not stopped. -/
theorem AnimationPanel.repaintBullet_animations (panel : AnimationPanel)
    (bullet : BulletAnimation) :
    ∃ explosions : List Animation, (∀ explosion ∈ explosions, explosion.stop = false) ∧
      explosions.length ≤ 2 ∧
      (panel.repaintBullet trig bullet).1.animations =
        panel.animations ++ explosions.map .plain :=
  panel.repaintBullet_appends trig (fun _ _ => rfl) bullet

/-- The turns of the loop that an entry can still cause. -/
def PanelAnimation.turns : PanelAnimation → ℕ
  | .plain _ => 1
  | .shot _ => 3

/-- The turns of the loop that a list can still cause. -/
def turns : List PanelAnimation → ℕ
  | [] => 0
  | animation :: rest => animation.turns + turns rest

/-- Lists cause turns one after the other. -/
theorem turns_append (front back : List PanelAnimation) :
    turns (front ++ back) = turns front + turns back := by
  induction front with
  | nil => exact (Nat.zero_add _).symm
  | cons animation rest ih =>
    rw [List.cons_append, turns, turns, ih, Nat.add_assoc]

/-- Each explosion causes one turn. -/
theorem turns_plain (explosions : List Animation) :
    turns (explosions.map .plain) = explosions.length := by
  induction explosions with
  | nil => rfl
  | cons explosion rest ih =>
    rw [List.map_cons, ← List.singleton_append, turns_append, ih, List.length_cons]
    exact Nat.add_comm _ _

/-- The turns from an index on are those of the entry there and of the rest. -/
theorem turns_drop (animations : List PanelAnimation) (counter : ℕ)
    (h : counter < animations.length) :
    turns (animations.drop counter) =
      (animations.get ⟨counter, h⟩).turns + turns (animations.drop (counter + 1)) := by
  rw [List.drop_eq_getElem_cons h]
  rfl

/-- Every entry causes a turn. -/
theorem PanelAnimation.turns_pos (animation : PanelAnimation) : 0 < animation.turns := by
  cases animation with
  | plain animation => exact Nat.one_pos
  | shot bullet => exact Nat.succ_pos 2

/-- The entry that takes the place of a removed one is passed over. -/
theorem drop_eraseIdx {α : Type*} (animations : List α) (counter : ℕ)
    (h : counter < animations.length) :
    (animations.eraseIdx counter).drop (counter + 1) = animations.drop (counter + 2) := by
  have htake : (animations.take counter).length = counter := List.length_take_of_le h.le
  rw [List.eraseIdx_eq_take_drop_succ, List.drop_append, htake, List.drop_drop,
    List.drop_eq_nil_of_le (by omega), List.nil_append]
  congr 1
  omega

/-- A removal leaves fewer turns. -/
theorem turns_eraseIdx_lt (animations : List PanelAnimation) (counter : ℕ)
    (h : counter < animations.length) :
    turns ((animations.eraseIdx counter).drop (counter + 1)) < turns (animations.drop counter) := by
  have hentry := (animations.get ⟨counter, h⟩).turns_pos
  rw [drop_eraseIdx _ _ h, turns_drop _ _ h]
  by_cases hnext : counter + 1 < animations.length
  · rw [turns_drop _ _ hnext, show counter + 1 + 1 = counter + 2 from rfl]
    omega
  · rw [List.drop_eq_nil_of_le (by omega : animations.length ≤ counter + 2)]
    exact Nat.lt_of_lt_of_le hentry (Nat.le_add_right _ _)

/-- A repaint replaces the entry at the index, and appends explosions that are not stopped. -/
theorem AnimationPanel.repaintAt_animations (panel : AnimationPanel) (counter : ℕ)
    (h : counter < panel.animations.length) (animation : PanelAnimation) :
    ∃ (entry : PanelAnimation) (explosions : List Animation),
      (∀ explosion ∈ explosions, explosion.stop = false) ∧ explosions.length < animation.turns ∧
      (panel.repaintAt trig counter animation).animations =
        panel.animations.set counter entry ++ explosions.map .plain := by
  cases animation with
  | plain animation =>
    exact ⟨_, [], List.forall_mem_nil _, Nat.one_pos,
      (List.append_nil _).symm⟩
  | shot bullet =>
    obtain ⟨explosions, hlive, hlength, hanimations⟩ := panel.repaintBullet_animations trig bullet
    refine ⟨.shot (panel.repaintBullet trig bullet).2, explosions, hlive,
      Nat.lt_succ_of_le hlength, ?_⟩
    change (panel.repaintBullet trig bullet).1.animations.set counter
      (.shot (panel.repaintBullet trig bullet).2) = _
    rw [hanimations, List.set_append_left _ _ h]

/-- What follows the index after a repaint: the old rest, then new explosions. -/
theorem AnimationPanel.repaintAt_drop (panel : AnimationPanel) (counter : ℕ)
    (h : counter < panel.animations.length) (animation : PanelAnimation) :
    ∃ explosions : List Animation, explosions.length < animation.turns ∧
      (panel.repaintAt trig counter animation).animations.drop (counter + 1) =
        panel.animations.drop (counter + 1) ++ explosions.map .plain := by
  obtain ⟨entry, explosions, -, hlength, hanimations⟩ :=
    panel.repaintAt_animations trig counter h animation
  refine ⟨explosions, hlength, ?_⟩
  rw [hanimations, List.drop_append_of_le_length (by rwa [List.length_set]),
    List.drop_set_of_lt (Nat.lt_succ_self _)]

/-- A repaint leaves fewer turns. -/
theorem AnimationPanel.turns_repaintAt_lt (panel : AnimationPanel) (counter : ℕ)
    (h : counter < panel.animations.length) :
    turns ((panel.repaintAt trig counter (panel.animations.get ⟨counter, h⟩)).animations.drop
      (counter + 1)) < turns (panel.animations.drop counter) := by
  obtain ⟨explosions, hlength, hdrop⟩ :=
    panel.repaintAt_drop trig counter h (panel.animations.get ⟨counter, h⟩)
  rw [hdrop, turns_append, turns_plain, turns_drop _ _ h]
  omega

/-- The loop over the animations, from an index on. -/
def AnimationPanel.paintLoop (panel : AnimationPanel) (counter : ℕ) : AnimationPanel :=
  if h : counter < panel.animations.length then
    let animation := panel.animations.get ⟨counter, h⟩
    if animation.isStopped then
      AnimationPanel.paintLoop
        { panel with animations := panel.animations.eraseIdx counter } (counter + 1)
    else AnimationPanel.paintLoop (panel.repaintAt trig counter animation) (counter + 1)
  else panel
termination_by turns (panel.animations.drop counter)
decreasing_by
  · exact turns_eraseIdx_lt _ _ h
  · exact panel.turns_repaintAt_lt trig counter h

/-- What walls and hits keep, the repaint of a bullet keeps. -/
theorem AnimationPanel.repaintBullet_keeps {P : AnimationPanel → Prop} {panel : AnimationPanel}
    (bullet : BulletAnimation) (h : P panel)
    (hwall : ∀ panel bullet, P panel → P (panel.meetWall bullet).1)
    (hhit : ∀ panel t, P panel → P (panel.hit t)) : P (panel.repaintBullet trig bullet).1 := by
  have hhits : ∀ (ts : List Tank) (panel : AnimationPanel), P panel →
      P (ts.foldl AnimationPanel.hit panel) := by
    intro ts
    induction ts with
    | nil => exact fun _ h => h
    | cons t rest ih => exact fun panel h => ih _ (hhit panel t h)
  rw [AnimationPanel.repaintBullet]
  split
  · exact h
  · have hmet := hwall panel (bullet.forwardMove trig) h
    change P ((panel.meetWall (bullet.forwardMove trig)).1.meetTank
      (panel.meetWall (bullet.forwardMove trig)).2).1
    rw [AnimationPanel.meetTank]
    split
    · exact hhits _ _ hmet
    · exact hmet

/-- What bullets and explosions keep, the loop over the animations keeps. -/
theorem AnimationPanel.paintLoop_keeps {P : AnimationPanel → Prop} {panel : AnimationPanel}
    (counter : ℕ) (h : P panel)
    (hanimations : ∀ panel animations, P panel → P { panel with animations := animations })
    (hwall : ∀ panel bullet, P panel → P (panel.meetWall bullet).1)
    (hhit : ∀ panel t, P panel → P (panel.hit t)) : P (panel.paintLoop trig counter) := by
  induction panel, counter using AnimationPanel.paintLoop.induct trig with
  | case1 panel counter hcounter animation hstopped ih =>
    rw [AnimationPanel.paintLoop, dif_pos hcounter, if_pos hstopped]
    exact ih (hanimations _ _ h)
  | case2 panel counter hcounter animation hlive ih =>
    rw [AnimationPanel.paintLoop, dif_pos hcounter, if_neg hlive]
    refine ih ?_
    cases animation with
    | plain animation => exact hanimations _ _ h
    | shot bullet =>
      exact hanimations _ _ (AnimationPanel.repaintBullet_keeps trig bullet h hwall hhit)
  | case3 panel counter hcounter =>
    rw [AnimationPanel.paintLoop, dif_neg hcounter]
    exact h

/-- `paintComponent`. -/
def AnimationPanel.paintComponent (panel : AnimationPanel) : AnimationPanel :=
  let painted := panel.paintLoop trig 0
  { painted with player := fun t => (painted.player t).paintHealth.paintLives }

end Moves

end Coursework.TankGame
