import Coursework.TankGame.Flight

/-!
# The end of a game

When a player is out of lives no tank is driven any more, but bullets still fly and explosions
are still played. Each entry of the list of animations has a weight that its repaints use up,
and that of a bullet covers the explosions it may append: so the list is empty after as many
paints as its weight, although the loop passes over the successors of the entries it removes.
-/

namespace Coursework.TankGame

open Java Transition

/-- A bound for the repaints that an animation has left. -/
def Animation.left (animation : Animation) : ℕ :=
  (animation.totalTime + 1 - animation.duration) * (animation.frameDelay + 2) +
    (animation.frameDelay + 1 - animation.frameCount)

/-- The weight of an explosion that begins. -/
def explosionWeight : ℕ := (Animation.new explosionFrames 0 0 5 false).left + 1

/-- A bullet is faster than it stays on the map, and no faster than its speed. -/
structure Trigonometry.Flies (trig : Trigonometry) : Prop where
  cos : ∀ index, |trig.cos (angle index) bulletSpeed| ≤ bulletSpeed
  sin : ∀ index, |trig.sin (angle index) bulletSpeed| ≤ bulletSpeed
  moves : ∀ index, trig.cos (angle index) bulletSpeed ≠ 0 ∨ trig.sin (angle index) bulletSpeed ≠ 0

section Moves

variable (trig : Trigonometry)

/-- The distance that a bullet has left on the map in its direction. -/
def BulletAnimation.left (bullet : BulletAnimation) : ℕ :=
  if 0 < trig.cos (angle bullet.index) bulletSpeed then (1248 - bullet.x).toNat
  else if trig.cos (angle bullet.index) bulletSpeed < 0 then (bullet.x + 10).toNat
  else if 0 < trig.sin (angle bullet.index) bulletSpeed then (bullet.y + 10).toNat
  else (1280 - bullet.y).toNat

/-- What repaints can use up of an entry, before it is removed. -/
def PanelAnimation.weight : PanelAnimation → ℕ
  | .plain animation => if animation.stop then 1 else animation.left + 1
  | .shot bullet =>
    if bullet.stop then 1 else (bullet.left trig + 2) * (2 * explosionWeight + 1)

/-- What repaints can use up of a list. -/
def load (animations : List PanelAnimation) : ℕ :=
  (animations.map (PanelAnimation.weight trig)).sum

/-- An animation is played once; a bullet that is not stopped meets the map at its next place. -/
def PanelAnimation.Ends : PanelAnimation → Prop
  | .plain animation => animation.loop = false ∧ animation.frameCount ≤ animation.frameDelay
  | .shot bullet => bullet.stop = false → mapBox.intersects ((bullet.forwardMove trig).box 10) = true

/-- Every entry has a weight. -/
theorem PanelAnimation.weight_pos (entry : PanelAnimation) : 0 < entry.weight trig := by
  cases entry with
  | plain animation =>
    rw [PanelAnimation.weight]
    split <;> omega
  | shot bullet =>
    rw [PanelAnimation.weight]
    split
    · exact Nat.one_pos
    · exact Nat.mul_pos (Nat.succ_pos _) (Nat.succ_pos _)

/-- The weight of an explosion that begins is the same everywhere. -/
theorem weight_explosion (x y : ℤ) :
    PanelAnimation.weight trig (.plain (.new explosionFrames x y 5 false)) = explosionWeight := by
  rw [PanelAnimation.weight, explosionWeight]
  exact if_neg Bool.false_ne_true

/-- The removal of an entry takes its weight away. -/
theorem load_eraseIdx (animations : List PanelAnimation) (counter : ℕ)
    (hcounter : counter < animations.length) :
    load trig (animations.eraseIdx counter) + (animations.get ⟨counter, hcounter⟩).weight trig =
      load trig animations := by
  have hperm := (List.getElem_cons_eraseIdx_perm hcounter).map (PanelAnimation.weight trig)
  rw [load, load, ← hperm.sum_eq, List.map_cons, List.sum_cons]
  exact Nat.add_comm _ _

/-- An entry that is replaced counts with its new weight. -/
theorem load_set (animations : List PanelAnimation) (counter : ℕ)
    (hcounter : counter < animations.length) (entry : PanelAnimation) :
    load trig (animations.set counter entry) + (animations.get ⟨counter, hcounter⟩).weight trig =
      load trig animations + entry.weight trig := by
  have hperm := (List.set_perm_cons_eraseIdx hcounter entry).map (PanelAnimation.weight trig)
  have herase := load_eraseIdx trig animations counter hcounter
  rw [load, hperm.sum_eq, List.map_cons, List.sum_cons, ← load]
  omega

/-- Entries that are appended add their weights. -/
theorem load_append (front back : List PanelAnimation) :
    load trig (front ++ back) = load trig front + load trig back := by
  rw [load, List.map_append, List.sum_append]
  rfl

/-- Explosions that begin weigh as much as one of them, times their number. -/
theorem load_explosions (explosions : List Animation)
    (hnew : ∀ explosion ∈ explosions, ∃ x y, explosion = .new explosionFrames x y 5 false) :
    load trig (explosions.map .plain) = explosions.length * explosionWeight := by
  induction explosions with
  | nil => rw [List.map_nil, List.length_nil, Nat.zero_mul, load, List.map_nil, List.sum_nil]
  | cons explosion rest ih =>
    obtain ⟨⟨x, y, rfl⟩, hrest⟩ := List.forall_mem_cons.mp hnew
    rw [List.map_cons, ← List.singleton_append, load_append, ih hrest, List.length_cons,
      Nat.succ_mul, Nat.add_comm, load, List.map_singleton, List.sum_singleton,
      weight_explosion trig x y]

/-- A repaint uses up some of the weight of a live animation. -/
theorem Animation.weight_repaint_lt {animation : Animation} (hlive : animation.stop = false)
    (hends : PanelAnimation.Ends trig (.plain animation)) :
    PanelAnimation.weight trig (.plain animation.repaint) <
        PanelAnimation.weight trig (.plain animation) ∧
      PanelAnimation.Ends trig (.plain animation.repaint) := by
  obtain ⟨hloop, hcount⟩ := hends
  rw [Animation.repaint, hlive, if_neg Bool.false_ne_true]
  by_cases hchange : animation.frameDelay < animation.frameCount + 1
  · rw [if_pos hchange]
    refine ⟨?_, hloop, Nat.zero_le _⟩
    simp only [PanelAnimation.weight, hloop, hlive, Bool.not_false, Bool.and_true,
      Bool.false_eq_true, if_false, Animation.left, Animation.totalTime]
    split
    · omega
    · rename_i htime
      have hle : animation.duration + 1 ≤ animation.frameDelay * animation.spriteFrames :=
        Nat.le_of_not_lt fun hlt => htime (decide_eq_true hlt)
      obtain ⟨rest, hrest⟩ := Nat.exists_eq_add_of_le hle
      rw [hrest, show animation.duration + 1 + rest + 1 - (animation.duration + 1) = rest + 1 by omega,
        show animation.duration + 1 + rest + 1 - animation.duration = rest + 1 + 1 by omega,
        Nat.succ_mul (rest + 1)]
      omega
  · rw [if_neg hchange]
    refine ⟨?_, hloop, by simp only; omega⟩
    simp only [PanelAnimation.weight, hlive, Bool.false_eq_true, if_false, Animation.left,
      Animation.totalTime]
    have hle : (animation.frameDelay * animation.spriteFrames + 1 - (animation.duration + 1)) *
        (animation.frameDelay + 2) ≤
        (animation.frameDelay * animation.spriteFrames + 1 - animation.duration) *
          (animation.frameDelay + 2) :=
      Nat.mul_le_mul_right _ (by omega)
    omega

variable {trig} {level : Level} {panel : AnimationPanel}

/-- A step of a bullet that stays on the map is one of the distance it has left. -/
theorem BulletAnimation.left_forwardMove_lt {bullet : BulletAnimation}
    (hmoves : trig.cos (angle bullet.index) bulletSpeed ≠ 0 ∨
      trig.sin (angle bullet.index) bulletSpeed ≠ 0)
    (hx : 0 ≤ (bullet.forwardMove trig).x ∧ (bullet.forwardMove trig).x < 1248)
    (hy : 0 ≤ (bullet.forwardMove trig).y ∧ (bullet.forwardMove trig).y < 1280) :
    (bullet.forwardMove trig).left trig < bullet.left trig := by
  have hindex : (bullet.forwardMove trig).index = bullet.index := rfl
  have hplaceX : (bullet.forwardMove trig).x =
      bullet.x + trig.cos (angle bullet.index) bulletSpeed := rfl
  have hplaceY : (bullet.forwardMove trig).y =
      bullet.y - trig.sin (angle bullet.index) bulletSpeed := rfl
  rw [BulletAnimation.left, BulletAnimation.left, hindex]
  by_cases heast : 0 < trig.cos (angle bullet.index) bulletSpeed
  · rw [if_pos heast, if_pos heast]
    omega
  · rw [if_neg heast, if_neg heast]
    by_cases hwest : trig.cos (angle bullet.index) bulletSpeed < 0
    · rw [if_pos hwest, if_pos hwest]
      omega
    · rw [if_neg hwest, if_neg hwest]
      by_cases hnorth : 0 < trig.sin (angle bullet.index) bulletSpeed
      · rw [if_pos hnorth, if_pos hnorth]
        omega
      · rw [if_neg hnorth, if_neg hnorth]
        omega

/-- A repaint of a live bullet uses up as much of its weight as the explosions that it may append. -/
theorem BulletAnimation.weight_repaint_lt (hflies : trig.Flies)
    (hborder : ∀ cell, OnBorder cell → level cell.1 cell.2 = '1')
    (hgrounded : Grounded level (spawn level) panel) {bullet : BulletAnimation}
    (hlive : bullet.stop = false) (hends : PanelAnimation.Ends trig (.shot bullet)) :
    PanelAnimation.weight trig (.shot (panel.repaintBullet trig bullet).2) + 2 * explosionWeight <
        PanelAnimation.weight trig (.shot bullet) ∧
      PanelAnimation.Ends trig (.shot (panel.repaintBullet trig bullet).2) := by
  have hmap := hends hlive
  have hread : ∀ cell, OnBorder cell → panel.setArray.breakableWall.wallArray cell.1 cell.2 = '1' := by
    intro cell hon
    rw [hgrounded.setArray]
    exact (hgrounded.eroded.eq_iff (by decide) (by decide) cell.1 cell.2).mpr (hborder cell hon)
  have hweight : PanelAnimation.weight trig (.shot bullet) =
      (bullet.left trig + 2) * (2 * explosionWeight + 1) := by
    rw [PanelAnimation.weight, hlive]
    rfl
  rw [panel.repaintBullet_bullet trig bullet hlive, hweight]
  cases hstop : (bullet.forwardMove trig).collisionToWall panel.setArray.breakableWall ||
      (bullet.forwardMove trig).collisionToTank panel with
  | true =>
    refine ⟨?_, fun hlive' => nomatch hlive'⟩
    have hone : (1 + 1) * (2 * explosionWeight + 1) ≤
        (bullet.left trig + 2) * (2 * explosionWeight + 1) :=
      Nat.mul_le_mul_right _ (Nat.le_add_left _ _)
    change 1 + 2 * explosionWeight < _
    omega
  | false =>
    obtain ⟨hwall, -⟩ := Bool.or_eq_false_iff.mp hstop
    have hinside := (bullet.forwardMove trig).inside_of_mapBox _ hread hmap hwall
    constructor
    · have hleft := bullet.left_forwardMove_lt (hflies.moves bullet.index)
        ⟨by omega, by omega⟩ ⟨by omega, by omega⟩
      have hmore : ((bullet.forwardMove trig).left trig + 2 + 1) * (2 * explosionWeight + 1) ≤
          (bullet.left trig + 2) * (2 * explosionWeight + 1) :=
        Nat.mul_le_mul_right _ (by omega)
      rw [Nat.succ_mul] at hmore
      change ((bullet.forwardMove trig).left trig + 2) * (2 * explosionWeight + 1) + _ < _
      omega
    · intro _
      have hcos := abs_le.mp (hflies.cos bullet.index)
      have hsin := abs_le.mp (hflies.sin bullet.index)
      rw [bulletSpeed] at hcos hsin
      rw [mapBox_intersects_iff]
      simp only [BulletAnimation.forwardMove, bulletSpeed] at hinside ⊢
      omega

/-- What holds of all entries, of new explosions and of the repainted entry, holds of all entries
after a repaint. -/
theorem AnimationPanel.repaintAt_forall_mem {Q : PanelAnimation → Prop}
    (hnew : ∀ x y, Q (.plain (.new explosionFrames x y 5 false))) (panel : AnimationPanel)
    {counter : ℕ} (hcounter : counter < panel.animations.length) (animation : PanelAnimation)
    (h : ∀ entry ∈ panel.animations, Q entry)
    (hplain : ∀ repainted, animation = .plain repainted → Q (.plain repainted.repaint))
    (hshot : ∀ bullet, animation = .shot bullet → Q (.shot (panel.repaintBullet trig bullet).2)) :
    ∀ entry ∈ (panel.repaintAt trig counter animation).animations, Q entry := by
  intro entry hmem
  cases animation with
  | plain animation =>
    rcases List.mem_or_eq_of_mem_set hmem with hold | rfl
    · exact h entry hold
    · exact hplain animation rfl
  | shot bullet =>
    obtain ⟨explosions, hall, -, hanimations⟩ := panel.repaintBullet_appends trig
      (P := fun explosion => Q (.plain explosion)) hnew bullet
    change entry ∈ (panel.repaintBullet trig bullet).1.animations.set counter
      (.shot (panel.repaintBullet trig bullet).2) at hmem
    rw [hanimations, List.set_append_left _ _ hcounter, List.mem_append] at hmem
    rcases hmem with hold | hexplosion
    · rcases List.mem_or_eq_of_mem_set hold with hold | rfl
      · exact h entry hold
      · exact hshot bullet rfl
    · obtain ⟨explosion, hmem, rfl⟩ := List.mem_map.mp hexplosion
      exact hall explosion hmem

/-- The panel is on its ground, and all entries of the list end some time. -/
structure Ending (trig : Trigonometry) (level : Level) (panel : AnimationPanel) : Prop where
  grounded : Grounded level (spawn level) panel
  ends : ∀ entry ∈ panel.animations, entry.Ends trig

/-- The removal of an entry takes some of the load away. -/
theorem Ending.erase (h : Ending trig level panel) {counter : ℕ}
    (hcounter : counter < panel.animations.length) :
    Ending trig level { panel with animations := panel.animations.eraseIdx counter } ∧
      load trig (panel.animations.eraseIdx counter) < load trig panel.animations := by
  refine ⟨⟨(Grounded.kept trig level (spawn level)).animations panel _ h.grounded, ?_⟩, ?_⟩
  · intro entry hentry
    exact h.ends entry (List.mem_of_mem_eraseIdx hentry)
  · have hload := load_eraseIdx trig panel.animations counter hcounter
    have hpos := (panel.animations.get ⟨counter, hcounter⟩).weight_pos trig
    omega

/-- The repaint of a live entry takes some of the load away. -/
theorem Ending.repaintAt (hflies : trig.Flies)
    (hborder : ∀ cell, OnBorder cell → level cell.1 cell.2 = '1') (h : Ending trig level panel)
    {counter : ℕ} (hcounter : counter < panel.animations.length)
    (hlive : ¬(panel.animations.get ⟨counter, hcounter⟩).isStopped = true) :
    let after := panel.repaintAt trig counter (panel.animations.get ⟨counter, hcounter⟩)
    Ending trig level after ∧ load trig after.animations < load trig panel.animations := by
  have hset := load_set trig panel.animations counter hcounter
  have hends := h.ends _ (List.getElem_mem hcounter)
  cases hentry : panel.animations.get ⟨counter, hcounter⟩ with
  | plain animation =>
    change (panel.animations.get ⟨counter, hcounter⟩).Ends trig at hends
    rw [hentry] at hlive hset hends
    obtain ⟨hlt, hends'⟩ := animation.weight_repaint_lt trig (eq_false_of_ne_true hlive) hends
    have hafter := hset (.plain animation.repaint)
    refine ⟨⟨(Grounded.kept trig level (spawn level)).animations panel _ h.grounded, ?_⟩, ?_⟩
    · apply panel.repaintAt_forall_mem (fun _ _ => ⟨rfl, Nat.zero_le _⟩) hcounter _ h.ends
      · rintro _ ⟨⟩
        exact hends'
      · rintro _ ⟨⟩
    · change load trig (panel.animations.set counter (.plain animation.repaint)) < _
      omega
  | shot bullet =>
    change (panel.animations.get ⟨counter, hcounter⟩).Ends trig at hends
    rw [hentry] at hlive hset hends
    obtain ⟨hlt, hends'⟩ := bullet.weight_repaint_lt hflies hborder h.grounded
      (eq_false_of_ne_true hlive) hends
    have hafter := hset (.shot (panel.repaintBullet trig bullet).2)
    have hkept := Grounded.kept trig level (spawn level)
    obtain ⟨explosions, hnew, hlength, hanimations⟩ := panel.repaintBullet_appends trig
      (P := fun explosion => ∃ x y, explosion = .new explosionFrames x y 5 false)
      (fun x y => ⟨x, y, rfl⟩) bullet
    have hlist : (panel.repaintAt trig counter (.shot bullet)).animations =
        panel.animations.set counter (.shot (panel.repaintBullet trig bullet).2) ++
          explosions.map .plain := by
      change (panel.repaintBullet trig bullet).1.animations.set counter
        (.shot (panel.repaintBullet trig bullet).2) = _
      rw [hanimations, List.set_append_left _ _ hcounter]
    refine ⟨⟨hkept.animations _ _ (AnimationPanel.repaintBullet_keeps trig bullet h.grounded
      hkept.meetWall hkept.hit), ?_⟩, ?_⟩
    · apply panel.repaintAt_forall_mem (fun _ _ => ⟨rfl, Nat.zero_le _⟩) hcounter _ h.ends
      · rintro _ ⟨⟩
      · rintro _ ⟨⟩
        exact hends'
    · have hweights := Nat.mul_le_mul_right explosionWeight hlength
      rw [hlist, load_append, load_explosions trig explosions hnew]
      omega

/-- The loop over the animations takes some of the load away, if there is an entry before it. -/
theorem Ending.paintLoop (hflies : trig.Flies)
    (hborder : ∀ cell, OnBorder cell → level cell.1 cell.2 = '1') (counter : ℕ)
    (h : Ending trig level panel) :
    Ending trig level (panel.paintLoop trig counter) ∧
      load trig (panel.paintLoop trig counter).animations ≤ load trig panel.animations ∧
      (counter < panel.animations.length →
        load trig (panel.paintLoop trig counter).animations < load trig panel.animations) := by
  induction panel, counter using AnimationPanel.paintLoop.induct trig with
  | case1 panel counter hcounter animation hstopped ih =>
    obtain ⟨hnext, hlt⟩ := h.erase hcounter
    obtain ⟨hend, hle, -⟩ := ih hnext
    rw [AnimationPanel.paintLoop, dif_pos hcounter, if_pos hstopped]
    exact ⟨hend, hle.trans hlt.le, fun _ => hle.trans_lt hlt⟩
  | case2 panel counter hcounter animation hlive ih =>
    obtain ⟨hnext, hlt⟩ := h.repaintAt hflies hborder hcounter hlive
    obtain ⟨hend, hle, -⟩ := ih hnext
    rw [AnimationPanel.paintLoop, dif_pos hcounter, if_neg hlive]
    exact ⟨hend, hle.trans hlt.le, fun _ => hle.trans_lt hlt⟩
  | case3 panel counter hcounter =>
    rw [AnimationPanel.paintLoop, dif_neg hcounter]
    exact ⟨h, le_rfl, fun hlt => absurd hlt hcounter⟩

/-- An animation in the list is played once, and its frame is not overdue. -/
def PanelAnimation.Played : PanelAnimation → Prop
  | .plain animation => animation.loop = false ∧ animation.frameCount ≤ animation.frameDelay
  | .shot _ => True

/-- A repaint keeps an animation one that is played. -/
theorem PanelAnimation.Played.repaint {animation : Animation}
    (h : PanelAnimation.Played (.plain animation)) :
    PanelAnimation.Played (.plain animation.repaint) := by
  obtain ⟨hloop, hcount⟩ := h
  rw [Animation.repaint]
  split
  · exact ⟨hloop, hcount⟩
  · split
    · exact ⟨hloop, Nat.zero_le _⟩
    · refine ⟨hloop, ?_⟩
      simp only
      omega

/-- The loop over the animations keeps them ones that are played. -/
theorem paintLoop_played (counter : ℕ) (h : ∀ entry ∈ panel.animations, entry.Played) :
    ∀ entry ∈ (panel.paintLoop trig counter).animations, entry.Played := by
  induction panel, counter using AnimationPanel.paintLoop.induct trig with
  | case1 panel counter hcounter animation hstopped ih =>
    rw [AnimationPanel.paintLoop, dif_pos hcounter, if_pos hstopped]
    exact ih fun entry hentry => h entry (List.mem_of_mem_eraseIdx hentry)
  | case2 panel counter hcounter animation hlive ih =>
    rw [AnimationPanel.paintLoop, dif_pos hcounter, if_neg hlive]
    apply ih
    apply panel.repaintAt_forall_mem (fun _ _ => ⟨rfl, Nat.zero_le _⟩) hcounter _ h
    · intro repainted heq
      have hmem := h _ (List.getElem_mem hcounter)
      change animation.Played at hmem
      rw [heq] at hmem
      exact hmem.repaint
    · exact fun _ _ => trivial
  | case3 panel counter hcounter =>
    rw [AnimationPanel.paintLoop, dif_neg hcounter]
    exact h

/-- The animations in the list remain ones that are played. -/
theorem run_played (h : ∀ entry ∈ panel.animations, entry.Played) (events : List Event) :
    ∀ entry ∈ ((game trig).run panel events).animations, entry.Played := by
  apply (game trig).run_invariant (fun panel => ∀ entry ∈ panel.animations, entry.Played) _ _ h
  · intro panel event h
    cases event with
    | keyPressed t control => exact h
    | keyReleased t control => exact h
    | tick =>
      apply AnimationPanel.tick_keeps (P := fun panel => ∀ entry ∈ panel.animations, entry.Played)
        trig h
      · exact fun _ _ h => h
      · exact fun _ _ h => h
      · intro panel t h
        obtain ⟨tank, hmove, -⟩ := panel.move_eq t (TankObject.forwardMove trig)
        rw [hmove]
        exact h
      · intro panel t h
        obtain ⟨tank, hmove, -⟩ := panel.move_eq t (TankObject.reverseMove trig)
        rw [hmove]
        exact h
      · intro panel t h entry hentry
        rw [panel.fire_animations trig t, List.mem_append, List.mem_singleton] at hentry
        rcases hentry with hold | rfl
        · exact h entry hold
        · trivial
    | paint => exact paintLoop_played 0 h

/-- A player is out of lives. -/
def GameOver (panel : AnimationPanel) : Prop := ∃ t, (panel.player t).endGame = true

/-- A hit ends no game, and begins no new one. -/
theorem AnimationPanel.hit_endGame (panel : AnimationPanel) (t u : Tank) :
    ((panel.hit t).player u).endGame = (panel.player u).endGame := by
  have hset : ∀ (panel : AnimationPanel) (t : Tank) (player : Players),
      player.endGame = (panel.player t).endGame →
        ((panel.setPlayer t player).player u).endGame = (panel.player u).endGame := by
    intro panel t player hsame
    obtain rfl | rfl := t.eq_or_eq_other u
    · rw [AnimationPanel.setPlayer_player_self, hsame]
    · rw [AnimationPanel.setPlayer_player_other]
  have hstruck := hset panel t (panel.player t).hitTank rfl
  rw [AnimationPanel.hit]
  split
  · have hawarded := hset (panel.setPlayer t (panel.player t).hitTank) t.other
      ((panel.setPlayer t (panel.player t).hitTank).player t.other).earnPoint rfl
    have hplaced := fun (awarded : AnimationPanel) (place : ℤ × ℤ) => hset awarded t
      { awarded.player t with tankX := place.1, tankY := place.2 } rfl
    exact (hplaced _ _).trans (hawarded.trans hstruck)
  · exact hstruck

/-- A paint leaves a game over. -/
theorem Players.paint_endGame {player : Players} (h : player.endGame = true) :
    player.paintHealth.paintLives.endGame = true := by
  have hhealth : player.paintHealth.endGame = player.endGame := by
    rw [Players.paintHealth]
    split_ifs <;> rfl
  rw [Players.paintLives]
  split
  · rfl
  · rw [hhealth, h]

variable (trig) in
/-- Every event leaves a game over. -/
theorem GameOver.kept : Kept trig GameOver where
  setKey := fun _ _ _ _ h => h
  animations := fun _ _ h => h
  rotateLeft := fun _ _ h => h
  rotateRight := fun _ _ h => h
  forwardMove := by
    intro panel t h
    obtain ⟨tank, hmove, -⟩ := panel.move_eq t (TankObject.forwardMove trig)
    rw [hmove]
    exact h
  reverseMove := by
    intro panel t h
    obtain ⟨tank, hmove, -⟩ := panel.move_eq t (TankObject.reverseMove trig)
    rw [hmove]
    exact h
  meetWall := by
    intro panel bullet h
    rw [AnimationPanel.meetWall]
    split <;> exact h
  hit := by
    rintro panel t ⟨u, hu⟩
    exact ⟨u, (panel.hit_endGame t u).trans hu⟩
  paint := fun panel ⟨u, hu⟩ => ⟨u, Players.paint_endGame hu⟩

/-- When a game is over, nothing is driven and nothing is fired. -/
theorem GameOver.tick (h : GameOver panel) : panel.tick trig = panel := by
  obtain ⟨t, ht⟩ := h
  rw [AnimationPanel.tick]
  apply if_pos
  cases t with
  | tank1 => rw [ht, Bool.true_or]
  | tank2 => rw [ht, Bool.or_true]

/-- A second paint does nothing to a player that the first has not done. -/
theorem Players.paint_idem (player : Players) :
    player.paintHealth.paintLives.paintHealth.paintLives = player.paintHealth.paintLives := by
  have hzero : (0 : Int32).toInt = 0 := rfl
  have hred : (40 : Int32).toInt = 40 := rfl
  have hyellow : (120 : Int32).toInt = 120 := rfl
  have hfull : (200 : Int32).toInt = 200 := rfl
  have hlives : ∀ painted : Players, painted.paintLives.paintLives = painted.paintLives ∧
      painted.paintLives.health = painted.health := by
    intro painted
    by_cases hnone : (painted.lives == 0) = true
    · simp [Players.paintLives, hnone]
    · simp [Players.paintLives, hnone]
  have hpositive : ∀ painted : Players, 0 < painted.health.toInt → painted.paintHealth = painted := by
    intro painted hpos
    rw [Players.paintHealth]
    simp only [gt_iff_lt, Int32.lt_iff_toInt_lt, Int32.le_iff_toInt_le]
    split_ifs
    · rfl
    · rfl
    · rfl
    · omega
  have hhealth : 0 < player.paintHealth.health.toInt := by
    rw [Players.paintHealth]
    simp only [gt_iff_lt, Int32.lt_iff_toInt_lt, Int32.le_iff_toInt_le]
    split_ifs
    · omega
    · omega
    · omega
    · exact hfull ▸ (by decide)
  rw [hpositive player.paintHealth.paintLives (by rwa [(hlives _).2]), (hlives _).1]

/-- No game is played: the list of animations is empty, and a paint does nothing to the players. -/
structure AtRest (panel : AnimationPanel) : Prop where
  ended : GameOver panel
  animations : panel.animations = []
  player : ∀ t, (panel.player t).paintHealth.paintLives = panel.player t

variable (trig) in
/-- An event other than a paint changes no more than the keys held down when the game is over. -/
theorem GameOver.step (h : GameOver panel) {event : Event} (hpaint : event ≠ .paint) :
    ∃ pressed, panel.step trig event = { panel with pressed := pressed } := by
  cases event with
  | keyPressed t control => exact ⟨_, rfl⟩
  | keyReleased t control => exact ⟨_, rfl⟩
  | tick => exact ⟨panel.pressed, h.tick⟩
  | paint => exact absurd rfl hpaint

variable (trig) in
/-- A paint without animations only settles the players. -/
theorem paintComponent_of_nil (h : panel.animations = []) :
    panel.paintComponent trig =
      { panel with player := fun t => (panel.player t).paintHealth.paintLives } := by
  have hloop : panel.paintLoop trig 0 = panel := by
    rw [AnimationPanel.paintLoop, dif_neg]
    rw [h]
    exact Nat.lt_irrefl 0
  rw [AnimationPanel.paintComponent, hloop]

variable (trig) in
/-- At rest an event changes no more than the keys held down. -/
theorem AtRest.step (h : AtRest panel) (event : Event) :
    ∃ pressed, panel.step trig event = { panel with pressed := pressed } := by
  by_cases hpaint : event = .paint
  · subst hpaint
    refine ⟨panel.pressed, (paintComponent_of_nil trig h.animations).trans ?_⟩
    rw [funext h.player]
  · exact h.ended.step trig hpaint

/-- Nor do several events. -/
theorem AtRest.run (h : AtRest panel) (events : List Event) :
    ∃ pressed, (game trig).run panel events = { panel with pressed := pressed } := by
  induction events generalizing panel with
  | nil => exact ⟨panel.pressed, rfl⟩
  | cons event rest ih =>
    obtain ⟨pressed, hstep⟩ := h.step trig event
    have hrest : AtRest { panel with pressed := pressed } := ⟨h.ended, h.animations, h.player⟩
    obtain ⟨pressed', hrun⟩ := ih hrest
    refine ⟨pressed', ?_⟩
    change (game trig).run (panel.step trig event) rest = _
    rw [hstep, hrun]

/-- When a game is over, each paint takes some of the load away until the list is empty, and settles
the players. -/
theorem Ending.run (hflies : trig.Flies)
    (hborder : ∀ cell, OnBorder cell → level cell.1 cell.2 = '1') (h : Ending trig level panel)
    (hover : GameOver panel) (events : List Event) :
    let after := (game trig).run panel events
    Ending trig level after ∧ GameOver after ∧
      (after.animations = [] ∨
        load trig after.animations + events.count .paint ≤ load trig panel.animations) ∧
      (0 < events.count .paint → ∀ t, (after.player t).paintHealth.paintLives = after.player t) := by
  induction events using List.reverseRecOn with
  | nil => exact ⟨h, hover, Or.inr le_rfl, fun hpos => nomatch hpos⟩
  | append_singleton front event ih =>
    simp only [TotalMachine.run_append_singleton] at ih ⊢
    obtain ⟨hend, hover', hload, hplayer⟩ := ih
    by_cases hpaint : event = .paint
    · subst hpaint
      obtain ⟨hnext, hle, hlt⟩ := hend.paintLoop hflies hborder 0
      have hkept := Grounded.kept trig level (spawn level)
      refine ⟨⟨hkept.paint _ hnext.grounded, hnext.ends⟩,
        (GameOver.kept trig).step trig _ .paint hover', ?_, fun _ t => Players.paint_idem _⟩
      change (AnimationPanel.paintLoop trig _ 0).animations = [] ∨
        load trig (AnimationPanel.paintLoop trig _ 0).animations + _ ≤ _
      rw [List.count_append, List.count_singleton_self]
      rcases hload with hnil | hload
      · left
        have hnil' := congrArg AnimationPanel.animations (paintComponent_of_nil trig hnil)
        exact hnil'.trans hnil
      · by_cases hnil : ((game trig).run panel front).animations = []
        · left
          have hnil' := congrArg AnimationPanel.animations (paintComponent_of_nil trig hnil)
          exact hnil'.trans hnil
        · have hless := hlt (List.length_pos_of_ne_nil hnil)
          right
          omega
    · obtain ⟨pressed, hstep⟩ := hover'.step trig hpaint
      have hcount : (front ++ [event]).count .paint = front.count .paint := by
        rw [List.count_append, List.count_singleton, beq_false_of_ne hpaint]
        rfl
      rw [hcount]
      change Ending trig level (AnimationPanel.step trig _ event) ∧
        GameOver (AnimationPanel.step trig _ event) ∧
        ((AnimationPanel.step trig _ event).animations = [] ∨
          load trig (AnimationPanel.step trig _ event).animations + _ ≤ _) ∧
        (_ → ∀ t, ((AnimationPanel.step trig _ event).player t).paintHealth.paintLives =
          (AnimationPanel.step trig _ event).player t)
      rw [hstep]
      exact ⟨⟨hend.grounded.of_eroded rfl hend.grounded.source (.refl _), hend.ends⟩,
        hover', hload, hplayer⟩

/-- From any state on a level with a border of unbreakable walls, whatever is played: when a player
is out of lives, and the bullets that still fly meet the map at their next places, the game is at
rest after more paints than the load of its animations, and no further event changes more than the
keys held down. -/
theorem run_atRest (hflies : trig.Flies)
    (hborder : ∀ cell, OnBorder cell → level cell.1 cell.2 = '1') (start : AnimationPanel)
    (hground : Grounded level (spawn level) start)
    (hplayed : ∀ entry ∈ start.animations, entry.Played) (events : List Event)
    (hover : GameOver ((game trig).run start events))
    (hbullets : ∀ bullet, .shot bullet ∈ ((game trig).run start events).animations →
      bullet.stop = false → mapBox.intersects ((bullet.forwardMove trig).box 10) = true)
    (later : List Event)
    (hpaints : load trig ((game trig).run start events).animations < later.count .paint) :
    AtRest ((game trig).run start (events ++ later)) ∧
      ∀ last, ∃ pressed, (game trig).run start (events ++ later ++ last) =
        { (game trig).run start (events ++ later) with pressed := pressed } := by
  have hending : Ending trig level ((game trig).run start events) := by
    refine ⟨(Grounded.kept trig level (spawn level)).run trig hground events, ?_⟩
    intro entry hentry
    have hentryPlayed := run_played hplayed events entry hentry
    cases entry with
    | plain animation => exact hentryPlayed
    | shot bullet => exact hbullets bullet hentry
  obtain ⟨-, hover', hload, hplayer⟩ := hending.run hflies hborder hover later
  rw [TotalMachine.run_append (game trig) start events later]
  have hrest : AtRest ((game trig).run ((game trig).run start events) later) := by
    refine ⟨hover', ?_, hplayer (by omega)⟩
    rcases hload with hnil | hload
    · exact hnil
    · omega
  refine ⟨hrest, fun last => ?_⟩
  rw [TotalMachine.run_append, TotalMachine.run_append]
  exact hrest.run last

end Moves

/-- A bullet flies to the east or to the west, or straight north or south. -/
def compass : Trigonometry where
  cos direction factor :=
    if direction = 90 ∨ direction = 270 then 0
    else if 90 < direction ∧ direction < 270 then -factor
    else factor
  sin direction factor :=
    if direction = 90 then factor else if direction = 270 then -factor else 0

/-- Such a bullet is never on the same place twice. -/
theorem compass_flies : compass.Flies := by
  constructor <;> decide

/-- The first player is out of lives while a bullet of this player flies. -/
def arenaOver : AnimationPanel :=
  { arenaAt 600 with
    player := fun t => { (arenaAt 600).player t with endGame := true }
    animations := [.shot ⟨.tank1, east, 640, 632, false⟩] }

/-- The end of a game in the arena. -/
theorem run_atRest_arena :
    AtRest ((game compass).run arenaOver
        ([] ++ List.replicate (load compass arenaOver.animations + 1) .paint)) ∧
      ∀ last, ∃ pressed, (game compass).run arenaOver
          ([] ++ List.replicate (load compass arenaOver.animations + 1) .paint ++ last) =
        { (game compass).run arenaOver
            ([] ++ List.replicate (load compass arenaOver.animations + 1) .paint) with
          pressed := pressed } := by
  have hground : Grounded arena (spawn arena) arenaOver := by
    obtain ⟨hsource, heroded, hwall, hfree, hplace⟩ := grounded_arenaAt 600
    exact ⟨hsource, heroded, hwall, hfree, hplace⟩
  apply run_atRest compass_flies arena_border arenaOver hground
  · intro entry hentry
    rw [List.mem_singleton.mp hentry]
    trivial
  · exact ⟨.tank1, rfl⟩
  · intro bullet hbullet _
    have hshot := PanelAnimation.shot.inj (List.mem_singleton.mp hbullet)
    rw [hshot]
    decide
  · rw [List.count_replicate_self]
    exact Nat.lt_succ_self _

end Coursework.TankGame
