import Coursework.TankGame.Score

/-!
# Volleys

The first tank turns left and right and fires in every tick, next to the second: the turns
cancel out, and all shells strike in the same paint.
-/

namespace Coursework.TankGame

open Java Transition

/-- Sines and cosines in the directions of a volley: east, and 50 degrees for the muzzle. -/
def eastward : Trigonometry where
  cos := fun degrees factor =>
    if degrees = 0 then factor else if degrees = 50 then factor * 64278 / 100000 else 0
  sin := fun _ _ => 0

/-- A level without walls on which the tanks start side by side. -/
def duel : Level := fun row column =>
  if row = 5 ∧ column = 5 then '3' else if row = 5 ∧ column = 7 then '4' else ' '

/-- The cells at which the tanks start. -/
def duelCell : Tank → Fin 40 × Fin 39
  | .tank1 => (5, 5)
  | .tank2 => (5, 7)

/-- The characters of the players. -/
def duelPosition : Tank → Char
  | .tank1 => '3'
  | .tank2 => '4'

/-- The tanks in their starting places, the first with an image of some width. -/
def duelTank (width : ℤ) : Tank → TankObject
  | .tank1 => ⟨160, 160, 0, 0, east, width, 64⟩
  | .tank2 => ⟨224, 160, 0, 0, east, 3840, 64⟩

/-- The keys held down in a volley. -/
def volleyKeys : Tank → Control → Bool
  | .tank1, .left => true
  | .tank1, .right => true
  | .tank1, .fire => true
  | _, _ => false

/-- A shell as it leaves the muzzle. -/
def shell : BulletAnimation := ⟨.tank1, east, 232, 192, false⟩

/-- The tanks face each other in their starting places. -/
structure Facing (width : ℤ) (panel : AnimationPanel) : Prop where
  tank : panel.tank = duelTank width
  source : panel.breakableWall.source = []
  wallArray : panel.breakableWall.wallArray = duel
  tankPosition : ∀ t, (panel.player t).tankPosition = duelPosition t

/-- Each character stands in one cell of the level. -/
theorem duel_eq_iff (t : Tank) (cell : Fin 40 × Fin 39) :
    duel cell.1 cell.2 = duelPosition t ↔ cell = duelCell t := by
  obtain ⟨row, column⟩ := cell
  cases t <;> simp only [duel, duelPosition, duelCell, Prod.mk.injEq] <;> split_ifs <;> grind

/-- The tanks start in the starting places. -/
theorem initPosition_duel (player : Players) (wall : WallObject) (t : Tank)
    (hwall : wall.wallArray = duel) (hplayer : player.tankPosition = duelPosition t) :
    player.initPosition wall = corner (duelCell t) := by
  refine player.initPosition_of_unique wall (duelCell t) ?_ ?_
  · rw [hwall, hplayer]
    exact (duel_eq_iff t _).mpr rfl
  · intro other hother
    rw [hwall, hplayer] at hother
    exact (duel_eq_iff t _).mp hother

/-- A tank is put in its starting place. -/
theorem setInitPosition_duel (panel : AnimationPanel) (t : Tank)
    (hwall : panel.breakableWall.wallArray = duel)
    (hplayer : (panel.player t).tankPosition = duelPosition t) :
    (panel.setInitPosition t).tank = Function.update panel.tank t
      { panel.tank t with x := (corner (duelCell t)).1, y := (corner (duelCell t)).2 } := by
  rw [AnimationPanel.setInitPosition, initPosition_duel _ _ t hwall hplayer]
  rfl

/-- A player may change, but not the character of the player. -/
theorem Facing.setPlayer {width : ℤ} {panel : AnimationPanel} (h : Facing width panel) (t : Tank)
    (player : Players) (hplayer : player.tankPosition = duelPosition t) :
    Facing width (panel.setPlayer t player) where
  tank := h.tank
  source := h.source
  wallArray := h.wallArray
  tankPosition := by
    intro u
    obtain rfl | rfl := t.eq_or_eq_other u
    · rw [AnimationPanel.setPlayer_player_self]
      exact hplayer
    · rw [AnimationPanel.setPlayer_player_other]
      exact h.tankPosition _

/-- A tank that is put in its starting place does not move. -/
theorem Facing.setTank {width : ℤ} {panel : AnimationPanel} (h : Facing width panel) (t : Tank)
    (tank : TankObject) (htank : tank = duelTank width t) :
    Facing width (panel.setTank t tank) where
  tank := by
    change Function.update panel.tank t tank = _
    rw [h.tank, htank, Function.update_eq_self]
  source := h.source
  wallArray := h.wallArray
  tankPosition := h.tankPosition

/-- A dead tank goes back to where it is. -/
theorem Facing.setInitPosition {width : ℤ} {panel : AnimationPanel} (h : Facing width panel)
    (t : Tank) : Facing width (panel.setInitPosition t) := by
  rw [AnimationPanel.setInitPosition, initPosition_duel _ _ t h.wallArray (h.tankPosition t)]
  refine (h.setPlayer t { panel.player t with
    tankX := (corner (duelCell t)).1
    tankY := (corner (duelCell t)).2 } (h.tankPosition t)).setTank t _ ?_
  rw [h.tank]
  cases t <;> rfl

/-- The tanks still face each other after a hit. -/
theorem Facing.hit {width : ℤ} {panel : AnimationPanel} (h : Facing width panel) (t : Tank) :
    Facing width (panel.hit t) := by
  have hstruck := h.setPlayer t (panel.player t).hitTank (h.tankPosition t)
  rw [AnimationPanel.hit]
  split
  · have hawarded := hstruck.setPlayer t.other
      ((panel.setPlayer t (panel.player t).hitTank).player t.other).earnPoint
      (hstruck.tankPosition _)
    have hexploded : Facing width
        (((panel.setPlayer t (panel.player t).hitTank).setPlayer t.other
          ((panel.setPlayer t (panel.player t).hitTank).player t.other).earnPoint).explosion t) :=
      ⟨hawarded.tank, hawarded.source, hawarded.wallArray, hawarded.tankPosition⟩
    have hplaced := hexploded.setInitPosition t
    refine hplaced.setTank t _ ?_
    rw [hplaced.tank]
    cases t <;> rfl
  · exact hstruck

/-- A shell strikes the second tank only. -/
theorem Facing.struck {panel : AnimationPanel} (h : Facing 64 panel) :
    (shell.forwardMove eastward).struck panel = [.tank2] := by
  rw [BulletAnimation.struck, h.tank]
  decide

/-- The level stays as it is when it is read again. -/
theorem Facing.setArray {width : ℤ} {panel : AnimationPanel} (h : Facing width panel) :
    Facing width panel.setArray where
  tank := h.tank
  source := rfl
  wallArray := (panel.breakableWall.setArray_wallArray h.source).trans h.wallArray
  tankPosition := h.tankPosition

/-- The tanks still face each other after any hits. -/
theorem Facing.foldl_hit {width : ℤ} {panel : AnimationPanel} (h : Facing width panel)
    (ts : List Tank) : Facing width (ts.foldl AnimationPanel.hit panel) := by
  induction ts generalizing panel with
  | nil => exact h
  | cons t rest ih => exact ih (h.hit t)

/-- A live bullet in contact with no wall hits the tanks that it touches. -/
theorem AnimationPanel.repaintBullet_of_clear (trig : Trigonometry) (panel : AnimationPanel)
    (bullet : BulletAnimation) (hlive : bullet.stop = false)
    (hwall : (bullet.forwardMove trig).collisionToWall panel.setArray.breakableWall = false) :
    (panel.repaintBullet trig bullet).1 =
      ((bullet.forwardMove trig).struck panel).foldl AnimationPanel.hit panel.setArray := by
  have hmeet : panel.meetWall (bullet.forwardMove trig) =
      (panel.setArray, bullet.forwardMove trig) := by
    rw [AnimationPanel.meetWall]
    exact if_neg (Bool.eq_false_iff.mp hwall)
  rw [AnimationPanel.repaintBullet, hlive, if_neg Bool.false_ne_true]
  change ((panel.meetWall (bullet.forwardMove trig)).1.meetTank
    (panel.meetWall (bullet.forwardMove trig)).2).1 = _
  rw [hmeet, AnimationPanel.meetTank]
  split
  · rfl
  · rename_i hnone
    rw [show (bullet.forwardMove trig).struck panel = [] from BulletAnimation.struck_eq_nil _ _ hnone]
    rfl

/-- There is no contact with a wall where there are no walls. -/
theorem any_isWall_duel (wall : WallObject) (hwall : wall.wallArray = duel)
    (test : Fin 40 × Fin 39 → Bool) :
    (cells.any fun cell => wall.isWall cell && test cell) = false := by
  refine List.any_eq_false.mpr ?_
  intro cell _
  rw [WallObject.isWall, hwall, duel]
  split_ifs <;> exact Bool.false_ne_true

/-- The tanks still face each other after a shell. -/
theorem Facing.repaintBullet {panel : AnimationPanel} (h : Facing 64 panel) :
    Facing 64 (panel.repaintBullet eastward shell).1 := by
  rw [panel.repaintBullet_of_clear eastward shell rfl
    (any_isWall_duel _ h.setArray.wallArray _)]
  exact h.setArray.foldl_hit _

/-- A loop over explosions leaves the scoreboard alone. -/
theorem paintLoop_plain_scoreboard (trig : Trigonometry) (panel : AnimationPanel) (counter : ℕ)
    (h : ∀ entry ∈ panel.animations.drop counter, ∃ animation, entry = .plain animation) :
    (panel.paintLoop trig counter).scoreboard = panel.scoreboard := by
  induction panel, counter using AnimationPanel.paintLoop.induct trig with
  | case1 panel counter hcounter animation hstopped ih =>
    rw [AnimationPanel.paintLoop, dif_pos hcounter, if_pos hstopped]
    refine ih ?_
    intro entry hentry
    rw [drop_eraseIdx _ _ hcounter, ← List.drop_drop] at hentry
    exact h entry (List.mem_of_mem_drop hentry)
  | case2 panel counter hcounter animation hlive ih =>
    obtain ⟨explosion, hexplosion⟩ : ∃ explosion, animation = .plain explosion := by
      refine h animation ?_
      rw [List.drop_eq_getElem_cons hcounter]
      exact List.mem_cons_self
    rw [AnimationPanel.paintLoop, dif_pos hcounter, if_neg hlive]
    change (AnimationPanel.paintLoop trig (panel.repaintAt trig counter animation) _).scoreboard = _
    have hkeep : (panel.repaintAt trig counter animation).scoreboard = panel.scoreboard := by
      rw [hexplosion]
      rfl
    rw [ih ?_, hkeep]
    intro entry hentry
    rw [hexplosion] at hentry
    change entry ∈ (panel.animations.set counter _).drop (counter + 1) at hentry
    rw [List.drop_set_of_lt (Nat.lt_add_one _), ← List.drop_drop] at hentry
    exact h entry (List.mem_of_mem_drop hentry)
  | case3 panel counter hcounter => rw [AnimationPanel.paintLoop, dif_neg hcounter]

/-- If a bullet strikes one tank in every panel with a property that the bullet keeps, each of a
number of such bullets is a hit on that tank. -/
theorem paintLoop_shots_scoreboard (trig : Trigonometry) {P : AnimationPanel → Prop}
    (bullet : BulletAnimation) (t : Tank) (hlive : bullet.stop = false)
    (hstruck : ∀ panel, P panel → (bullet.forwardMove trig).struck panel = [t])
    (hkept : ∀ panel animations, P panel →
      P { (panel.repaintBullet trig bullet).1 with animations := animations })
    {panel : AnimationPanel} (h : P panel) (counter n : ℕ) (explosions : List Animation)
    (hdrop : panel.animations.drop counter =
      List.replicate n (.shot bullet) ++ explosions.map .plain) :
    (panel.paintLoop trig counter).scoreboard =
      (List.replicate n t).foldl Scoreboard.hit panel.scoreboard := by
  induction n generalizing panel counter explosions with
  | zero =>
    refine paintLoop_plain_scoreboard trig panel counter ?_
    intro entry hentry
    rw [hdrop] at hentry
    obtain ⟨explosion, -, rfl⟩ := List.mem_map.mp hentry
    exact ⟨explosion, rfl⟩
  | succ n ih =>
    have hcounter : counter < panel.animations.length := by
      refine List.length_lt_of_drop_ne_nil ?_
      rw [hdrop]
      exact List.cons_ne_nil _ _
    rw [List.drop_eq_getElem_cons hcounter, List.replicate_succ, List.cons_append] at hdrop
    obtain ⟨hhead, hrest⟩ := List.cons.inj hdrop
    obtain ⟨later, -, hlater⟩ := panel.repaintAt_drop trig counter hcounter (.shot bullet)
    have hboard : (panel.repaintAt trig counter (.shot bullet)).scoreboard =
        panel.scoreboard.hit t := by
      change (panel.repaintBullet trig bullet).1.scoreboard = _
      rw [AnimationPanel.repaintBullet_scoreboard trig _ _ hlive, hstruck panel h]
      rfl
    have hturn : panel.paintLoop trig counter =
        (panel.repaintAt trig counter (.shot bullet)).paintLoop trig (counter + 1) := by
      rw [AnimationPanel.paintLoop, dif_pos hcounter]
      simp only [List.get_eq_getElem, hhead]
      exact if_neg (Bool.eq_false_iff.mp hlive)
    have hnext : P (panel.repaintAt trig counter (.shot bullet)) := hkept panel _ h
    rw [hturn, ih hnext (counter + 1) (explosions ++ later) ?_, hboard]
    · rfl
    · rw [hlater, hrest, List.map_append, List.append_assoc]

/-- Each shell of a volley is a hit. -/
theorem Facing.paintLoop_scoreboard {panel : AnimationPanel} (h : Facing 64 panel)
    (counter n : ℕ) (explosions : List Animation)
    (hdrop : panel.animations.drop counter =
      List.replicate n (.shot shell) ++ explosions.map .plain) :
    (panel.paintLoop eastward counter).scoreboard =
      (List.replicate n Tank.tank2).foldl Scoreboard.hit panel.scoreboard := by
  refine paintLoop_shots_scoreboard eastward shell .tank2 rfl (fun _ h => h.struck) ?_ h counter n
    explosions hdrop
  intro panel animations h
  have hafter := h.repaintBullet
  exact ⟨hafter.tank, hafter.source, hafter.wallArray, hafter.tankPosition⟩

/-- The events of a volley. -/
def volley (n : ℕ) : List Event :=
  [.keyPressed .tank1 .left, .keyPressed .tank1 .right, .keyPressed .tank1 .fire] ++
    List.replicate n .tick

/-- One more tick. -/
theorem volley_succ (n : ℕ) : volley (n + 1) = volley n ++ [.tick] := by
  rw [volley, volley, List.replicate_succ', List.append_assoc]

/-- A volley in progress: the keys are held down, and the shells fired so far are in the list. -/
structure Firing (width : ℤ) (n : ℕ) (panel : AnimationPanel) : Prop where
  facing : Facing width panel
  pressed : panel.pressed = volleyKeys
  animations : panel.animations = List.replicate n (.shot shell)
  account : ∀ t, (panel.player t).account = ⟨200, 3, 0, 0⟩
  endGame : ∀ t, (panel.player t).endGame = false

/-- The first tank turns left and right and fires. -/
theorem Firing.tick {width : ℤ} {n : ℕ} {panel : AnimationPanel} (h : Firing width n panel) :
    Firing 64 (n + 1) (panel.tick eastward) := by
  have hpressed : ∀ t control, panel.pressed t control = volleyKeys t control := by
    intro t control
    rw [h.pressed]
  have hsecond : panel.drive eastward .tank2 = panel := by
    have hreleased : ∀ control act, panel.whenPressed .tank2 control act = panel := by
      intro control act
      refine panel.whenPressed_of_released ?_ act
      rw [hpressed]
      cases control <;> rfl
    simp only [AnimationPanel.drive, hreleased]
  let turning := panel.setTank .tank1 (panel.tank .tank1).rotateLeft
  let turned := turning.setTank .tank1 (turning.tank .tank1).rotateRight
  have hfirst : panel.drive eastward .tank1 = turned.fire eastward .tank1 := by
    rw [AnimationPanel.drive, panel.whenPressed_of_pressed (hpressed .tank1 .left),
      turning.whenPressed_of_pressed (hpressed .tank1 .right),
      turned.whenPressed_of_released (hpressed .tank1 .up),
      turned.whenPressed_of_released (hpressed .tank1 .down),
      turned.whenPressed_of_pressed (hpressed .tank1 .fire)]
  have hturned : turned.tank = duelTank 64 := by
    have hturning : turning.tank .tank1 = (panel.tank .tank1).rotateLeft :=
      panel.setTank_tank_self .tank1 _
    change Function.update (Function.update panel.tank .tank1 _) .tank1
      (turning.tank .tank1).rotateRight = _
    rw [hturning, Function.update_idem, h.facing.tank]
    funext t
    cases t <;> rfl
  have htick : panel.tick eastward = turned.fire eastward .tank1 := by
    rw [AnimationPanel.tick, h.endGame, h.endGame, Bool.or_false, if_neg Bool.false_ne_true,
      hsecond, hfirst]
  rw [htick]
  refine ⟨⟨hturned, h.facing.source, h.facing.wallArray, h.facing.tankPosition⟩, h.pressed, ?_,
    h.account, h.endGame⟩
  change panel.animations ++ [_] = _
  rw [h.animations, List.replicate_succ', hturned]
  rfl

/-- The tanks face each other as play starts. -/
theorem facing_new : Facing 3840 (AnimationPanel.new duel) := by
  have hwall : (WallObject.new duel).setArray.wallArray = duel :=
    WallObject.setArray_new_wallArray duel
  refine ⟨?_, rfl, hwall, ?_⟩
  · rw [AnimationPanel.new, setInitPosition_duel _ .tank2 hwall rfl,
      setInitPosition_duel _ .tank1 hwall rfl]
    funext t
    cases t <;> rfl
  · intro t
    cases t <;> rfl

/-- The volley starts when the keys are held down. -/
theorem firing_zero :
    Firing 3840 0 ((game eastward).run (.new duel) (volley 0)) where
  facing := ⟨facing_new.tank, facing_new.source, facing_new.wallArray, facing_new.tankPosition⟩
  pressed := by
    funext t control
    cases t <;> cases control <;> rfl
  animations := rfl
  account := by
    intro t
    cases t <;> rfl
  endGame := by
    intro t
    cases t <;> rfl

/-- Each tick of a volley adds a shell. -/
theorem firing_succ (n : ℕ) :
    Firing 64 (n + 1) ((game eastward).run (.new duel) (volley (n + 1))) := by
  have hfiring : ∀ k, ∃ width,
      Firing width k ((game eastward).run (.new duel) (volley k)) := by
    intro k
    induction k with
    | zero => exact ⟨3840, firing_zero⟩
    | succ k ih =>
      obtain ⟨width, ih⟩ := ih
      refine ⟨64, ?_⟩
      rw [volley_succ, TotalMachine.run_append_singleton]
      exact ih.tick
  obtain ⟨width, hwidth⟩ := hfiring n
  rw [volley_succ, TotalMachine.run_append_singleton]
  exact hwidth.tick

/-- In the paint after a volley all its shells strike. -/
theorem volley_scoreboard (n : ℕ) :
    (((game eastward).run (.new duel) (volley (n + 1))).paintLoop eastward 0).scoreboard =
      (List.replicate (n + 1) Tank.tank2).foldl Scoreboard.hit fun _ => ⟨200, 3, 0, 0⟩ := by
  have hfiring := firing_succ n
  have hboard : ((game eastward).run (.new duel) (volley (n + 1))).scoreboard =
      fun _ => ⟨200, 3, 0, 0⟩ := funext hfiring.account
  rw [hfiring.facing.paintLoop_scoreboard 0 (n + 1) [] ?_, hboard]
  · rw [List.drop_zero, hfiring.animations, List.map_nil, List.append_nil]

/-- Hits on one tank take the same health each, with the overflow of `int`. -/
theorem toInt_health_foldl_hit (board : Scoreboard) (t : Tank) (n : ℕ) :
    ((List.replicate n t).foldl Scoreboard.hit board t).health.toInt =
      ((board t).health.toInt - 40 * n).bmod (2 ^ 32) := by
  induction n generalizing board with
  | zero =>
    have hlow := (board t).health.le_toInt
    have hhigh := (board t).health.toInt_lt
    simp only [List.replicate_zero, List.foldl_nil, Nat.cast_zero, mul_zero, sub_zero]
    exact (bmod_of_bounds hlow hhigh).symm
  | succ n ih =>
    have hcost : (40 : Int32).toInt = 40 := rfl
    rw [List.replicate_succ, List.foldl_cons, ih, Scoreboard.hit_self, Int32.toInt_sub, hcost,
      Int.bmod_sub_bmod]
    congr 1
    push_cast
    omega

end Coursework.TankGame
