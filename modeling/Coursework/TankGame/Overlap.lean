import Coursework.TankGame.Conservation
import Coursework.TankGame.Walls
import Mathlib.Logic.Function.Iterate

/-!
# Tanks that overlap

A move is refused if it ends on the other tank, but a tank without health is put back to where
it started whatever stands there. The tanks stay apart exactly as long as that place is free
whenever one of them is put back alone.
-/

namespace Coursework.TankGame

open Java Transition

/-- The frames of the tanks do not intersect. -/
def Apart (panel : AnimationPanel) : Prop :=
  (panel.tank .tank1).standingBox.intersects (panel.tank .tank2).standingBox = false

/-- Being apart looks the same from either tank. -/
theorem apart_iff (panel : AnimationPanel) (t : Tank) :
    Apart panel ↔
      (panel.tank t).standingBox.intersects (panel.tank t.other).standingBox = false := by
  cases t with
  | tank1 => exact Iff.rfl
  | tank2 =>
    rw [Apart, Rectangle.intersects_comm]
    exact Iff.rfl

/-- A tank that passes the test for the other tank can stand at its next place. -/
theorem TankObject.Whole.apart {tank anotherTank : TankObject} (h : tank.Whole)
    (hanother : anotherTank.Whole) (htest : tank.collisionToTank anotherTank = false) :
    Rectangle.intersects ⟨tank.nextX, tank.nextY, 54, 54⟩ anotherTank.standingBox = false := by
  refine Bool.eq_false_iff.mpr fun hmeets => Bool.eq_false_iff.mp htest ?_
  have hgrown : ∀ whole : TankObject, whole.Whole →
      54 ≤ whole.width - tankStep ∧ 54 ≤ whole.height - tankStep := by
    intro whole hwhole
    have hwidth := hwhole.width
    have hheight := hwhole.height
    rw [tankStep]
    omega
  have hfirst := Rectangle.intersects_grow hmeets (hgrown tank h).1 (hgrown tank h).2
  rw [Rectangle.intersects_comm] at hfirst
  have hboth := Rectangle.intersects_grow hfirst (hgrown anotherTank hanother).1
    (hgrown anotherTank hanother).2
  rw [Rectangle.intersects_comm] at hboth
  exact hboth

/-- A turn of a tank leaves its frame where it is. -/
theorem Apart.setTank {panel : AnimationPanel} (h : Apart panel) (t : Tank) (tank : TankObject)
    (hbox : tank.standingBox = (panel.tank t).standingBox) : Apart (panel.setTank t tank) := by
  rw [apart_iff _ t] at h ⊢
  rw [panel.setTank_tank_self, hbox]
  change _ = false at h
  rw [show (panel.setTank t tank).tank t.other = panel.tank t.other from
    Function.update_of_ne t.other_ne ..]
  exact h

/-- A move keeps the tanks apart. -/
theorem Apart.move {panel : AnimationPanel} (h : Apart panel) (hwhole : ∀ t, (panel.tank t).Whole)
    (t : Tank) (next : TankObject → TankObject)
    (hnext : (next (panel.tank t)).standingBox = (panel.tank t).standingBox ∧
      (next (panel.tank t)).width = (panel.tank t).width ∧
      (next (panel.tank t)).height = (panel.tank t).height) : Apart (panel.move t next) := by
  obtain ⟨hbox, hwidth, hheight⟩ := hnext
  rw [apart_iff _ t] at h ⊢
  obtain ⟨tank, hmove, hplace⟩ := panel.move_eq t next
  rw [hmove]
  change (Function.update panel.tank t tank t).standingBox.intersects
    (Function.update panel.tank t tank t.other).standingBox = false
  rw [Function.update_self, Function.update_of_ne t.other_ne]
  rcases hplace with rfl | ⟨-, htest, rfl⟩
  · rw [hbox]
    exact h
  · have hnextWhole : (next (panel.tank t)).Whole :=
      ⟨hwidth ▸ (hwhole t).width, hheight ▸ (hwhole t).height⟩
    exact hnextWhole.apart (hwhole t.other) htest

/-- A tick keeps the tanks apart. -/
theorem Apart.tick {panel : AnimationPanel} (trig : Trigonometry) {level : Level}
    (hspawn : ∀ t, WallFree level ((AnimationPanel.new level).tank t).standingBox)
    (hclear : Clear level panel) (h : Apart panel) : Apart (panel.tick trig) := by
  have hkept := Clear.kept trig level hspawn
  refine (AnimationPanel.tick_keeps (P := fun panel => Clear level panel ∧ Apart panel) trig
    ⟨hclear, h⟩ ?_ ?_ ?_ ?_ ?_).2
  · intro panel t h
    exact ⟨hkept.rotateLeft panel t h.1, h.2.setTank t _ rfl⟩
  · intro panel t h
    exact ⟨hkept.rotateRight panel t h.1, h.2.setTank t _ rfl⟩
  · intro panel t h
    exact ⟨hkept.forwardMove panel t h.1, h.2.move h.1.whole t _ ⟨rfl, rfl, rfl⟩⟩
  · intro panel t h
    exact ⟨hkept.reverseMove panel t h.1, h.2.move h.1.whole t _ ⟨rfl, rfl, rfl⟩⟩
  · intro panel t h
    exact ⟨hkept.animations panel _ h.1, h.2⟩

/-- One of a number of hits leaves the player without health. -/
def Players.DiesWithin (player : Players) (count : ℕ) : Prop :=
  ∃ k < count, (Players.hitTank^[k + 1] player).die = true

/-- One more hit may be the deadly one. -/
theorem Players.diesWithin_succ (player : Players) (count : ℕ) :
    player.DiesWithin (count + 1) ↔
      player.DiesWithin count ∨ (Players.hitTank^[count + 1] player).die = true := by
  constructor
  · rintro ⟨k, hk, hdie⟩
    rcases Nat.lt_succ_iff_lt_or_eq.mp hk with hlt | rfl
    · exact Or.inl ⟨k, hlt, hdie⟩
    · exact Or.inr hdie
  · rintro (⟨k, hk, hdie⟩ | hdie)
    · exact ⟨k, Nat.lt_succ_of_lt hk, hdie⟩
    · exact ⟨count, Nat.lt_succ_self _, hdie⟩

/-- In the course of a paint: a player has suffered some hits since its start, and the tank is in its
starting place if one of them was deadly, and where it was otherwise. -/
structure Hit (level : Level) (start panel : AnimationPanel) (t : Tank) (count : ℕ) : Prop where
  hits : (panel.player t).hits = (start.player t).hits + count
  health : (panel.player t).health = (Players.hitTank^[count] (start.player t)).health
  dead : (start.player t).DiesWithin count →
    (panel.tank t).standingBox = ((AnimationPanel.new level).tank t).standingBox
  alive : ¬(start.player t).DiesWithin count →
    (panel.tank t).standingBox = (start.tank t).standingBox

/-- A paint starts without hits. -/
theorem Hit.refl (level : Level) (start : AnimationPanel) (t : Tank) :
    Hit level start start t 0 where
  hits := rfl
  health := rfl
  dead := by
    rintro ⟨k, hk, -⟩
    exact absurd hk (Nat.not_lt_zero k)
  alive := fun _ => rfl

/-- A hit on the tank. -/
theorem Hit.hit_self {level : Level} {start panel : AnimationPanel} {t : Tank} {count : ℕ}
    (hgrounded : Grounded level (spawn level) panel) (h : Hit level start panel t count) :
    Hit level start (panel.hit t) t (count + 1) := by
  have haccount : ((panel.hit t).player t).account = _ :=
    (congrFun (panel.hit_scoreboard t) t).trans (panel.scoreboard.hit_self t)
  have hdie : (panel.player t).hitTank.die =
      (Players.hitTank^[count + 1] (start.player t)).die := by
    rw [Function.iterate_succ_apply', Players.die, Players.hitTank, h.health]
    rfl
  have htank := hgrounded.hit_tank t
  refine ⟨?_, ?_, ?_, ?_⟩
  · refine (congrArg Account.hits haccount).trans ?_
    change (panel.player t).hits + 1 = _
    rw [h.hits, Nat.add_assoc]
  · refine (congrArg Account.health haccount).trans ?_
    change (panel.player t).health - 40 = _
    rw [h.health, Function.iterate_succ_apply']
    rfl
  · intro hdead
    split at htank
    · rw [htank, Function.update_self]
      rfl
    · rename_i halive
      rw [htank]
      refine h.dead ?_
      rcases ((start.player t).diesWithin_succ count).mp hdead with hbefore | hnow
      · exact hbefore
      · rw [hdie] at halive
        exact absurd hnow halive
  · intro halive
    rw [Players.diesWithin_succ, not_or, ← hdie] at halive
    rw [if_neg halive.2] at htank
    rw [htank]
    exact h.alive halive.1

/-- A hit on the opponent. -/
theorem Hit.hit_other {level : Level} {start panel : AnimationPanel} {t : Tank} {count : ℕ}
    (hgrounded : Grounded level (spawn level) panel) (h : Hit level start panel t.other count) :
    Hit level start (panel.hit t) t.other count := by
  have haccount : ((panel.hit t).player t.other).account = _ :=
    (congrFun (panel.hit_scoreboard t) t.other).trans (panel.scoreboard.hit_other t)
  have htank : (panel.hit t).tank t.other = panel.tank t.other := by
    rw [hgrounded.hit_tank t]
    split
    · exact Function.update_of_ne t.other_ne ..
    · rfl
  refine ⟨?_, ?_, ?_, ?_⟩
  · refine (congrArg Account.hits haccount).trans (Eq.trans ?_ h.hits)
    split <;> rfl
  · refine (congrArg Account.health haccount).trans (Eq.trans ?_ h.health)
    split <;> rfl
  · rw [htank]
    exact h.dead
  · rw [htank]
    exact h.alive

/-- What a paint has done to the tanks at the end of its loop. -/
theorem Hit.paintLoop {level : Level} {start : AnimationPanel} (trig : Trigonometry)
    (hgrounded : Grounded level (spawn level) start) (t : Tank) :
    ∃ count, Hit level start (start.paintLoop trig 0) t count := by
  have hkept := Grounded.kept trig level (spawn level)
  refine (start.paintLoop_keeps (P := fun panel => Grounded level (spawn level) panel ∧
    ∀ t, ∃ count, Hit level start panel t count) trig 0
    ⟨hgrounded, fun t => ⟨0, .refl level start t⟩⟩ ?_ ?_ ?_).2 t
  · rintro panel animations ⟨hground, h⟩
    refine ⟨hkept.animations panel animations hground, ?_⟩
    intro t
    obtain ⟨count, h⟩ := h t
    exact ⟨count, h.hits, h.health, h.dead, h.alive⟩
  · rintro panel bullet ⟨hground, h⟩
    refine ⟨hkept.meetWall panel bullet hground, ?_⟩
    intro t
    obtain ⟨count, h⟩ := h t
    rw [AnimationPanel.meetWall]
    split <;> exact ⟨count, h.hits, h.health, h.dead, h.alive⟩
  · rintro panel u ⟨hground, h⟩
    refine ⟨hground.hit u, ?_⟩
    intro t
    obtain ⟨count, h⟩ := h t
    obtain rfl | rfl := u.eq_or_eq_other t
    · exact ⟨count + 1, h.hit_self hground⟩
    · exact ⟨count, h.hit_other hground⟩

section Moves

variable (trig : Trigonometry)

/-- A hit of the next paint leaves the player of the tank without health. -/
def Killed (panel : AnimationPanel) (t : Tank) : Prop :=
  (panel.player t).DiesWithin
    (((panel.paintComponent trig).player t).hits - (panel.player t).hits)

/-- A paint puts the tanks back that it kills, and moves no other. -/
theorem Grounded.paintComponent_standingBox {level : Level} {panel : AnimationPanel}
    (h : Grounded level (spawn level) panel) (t : Tank) :
    (Killed trig panel t → ((panel.paintComponent trig).tank t).standingBox =
      ((AnimationPanel.new level).tank t).standingBox) ∧
    (¬Killed trig panel t →
      ((panel.paintComponent trig).tank t).standingBox = (panel.tank t).standingBox) := by
  obtain ⟨count, hhit⟩ := Hit.paintLoop trig h t
  have hhits : ((panel.paintComponent trig).player t).hits = (panel.player t).hits + count := by
    rw [AnimationPanel.paintComponent_hits]
    exact hhit.hits
  rw [Killed, hhits, Nat.add_sub_cancel_left]
  exact ⟨hhit.dead, hhit.alive⟩

/-- A tank that is put back alone finds its starting place free. -/
def RespawnClear (level : Level) (panel : AnimationPanel) : Prop :=
  ∀ t, Killed trig panel t → ¬Killed trig panel t.other →
    ((AnimationPanel.new level).tank t).standingBox.intersects
      (panel.tank t.other).standingBox = false

/-- A paint leaves the tanks apart exactly when whoever is put back alone finds the place free. -/
theorem Grounded.apart_paintComponent_iff {level : Level} {panel : AnimationPanel}
    (h : Grounded level (spawn level) panel) (hspawn : Apart (AnimationPanel.new level))
    (hapart : Apart panel) :
    Apart (panel.paintComponent trig) ↔ RespawnClear trig level panel := by
  have hplace := h.paintComponent_standingBox trig
  constructor
  · intro hafter t hdead halive
    rw [apart_iff _ t, (hplace t).1 hdead, (hplace t.other).2 halive] at hafter
    exact hafter
  · intro hfree
    by_cases hdead : ∃ t, Killed trig panel t
    · obtain ⟨t, hdead⟩ := hdead
      rw [apart_iff _ t, (hplace t).1 hdead]
      by_cases hother : Killed trig panel t.other
      · rw [(hplace t.other).1 hother]
        exact (apart_iff _ t).mp hspawn
      · rw [(hplace t.other).2 hother]
        exact hfree t hdead hother
    · rw [not_exists] at hdead
      rw [Apart, (hplace .tank1).2 (hdead _), (hplace .tank2).2 (hdead _)]
      exact hapart

/-- An event keeps tanks apart, unless it is a paint that puts one back where the other is. -/
theorem Clear.apart_step_iff {level : Level} {panel : AnimationPanel} (h : Clear level panel)
    (hspawn : ∀ t, WallFree level ((AnimationPanel.new level).tank t).standingBox)
    (hdisjoint : Apart (AnimationPanel.new level)) (hapart : Apart panel) (event : Event) :
    Apart (panel.step trig event) ↔ (event = .paint → RespawnClear trig level panel) := by
  cases event with
  | keyPressed t control => exact iff_of_true hapart nofun
  | keyReleased t control => exact iff_of_true hapart nofun
  | tick => exact iff_of_true (hapart.tick trig hspawn h) nofun
  | paint =>
    refine (h.grounded.apart_paintComponent_iff trig hdisjoint hapart).trans ?_
    exact ⟨fun h _ => h, fun h => h rfl⟩

/-- Whatever is played, the tanks stay apart exactly as long as whoever is put back alone finds the
starting place free. -/
theorem run_apart_iff (level : Level)
    (hspawn : ∀ t, WallFree level ((AnimationPanel.new level).tank t).standingBox)
    (hdisjoint : Apart (AnimationPanel.new level)) (events : List Event) :
    (∀ front, front <+: events → Apart ((game trig).run (.new level) front)) ↔
      ∀ front, front ++ [.paint] <+: events →
        RespawnClear trig level ((game trig).run (.new level) front) := by
  rw [(game trig).forall_prefix_iff (Clear level) Apart
    (fun panel event => event = .paint → RespawnClear trig level panel) ?_ (.new level)
    (.new hspawn) hdisjoint]
  · constructor
    · intro h front hfront
      exact h front .paint hfront rfl
    · rintro h front event hfront rfl
      exact h front hfront
  · intro panel event hclear hapart
    exact ⟨(Clear.kept trig level hspawn).step trig panel event hclear,
      hclear.apart_step_iff trig hspawn hdisjoint hapart event⟩

/-- Each starting place is free of the tank that does not start there. -/
def PlacesFree (level : Level) (panel : AnimationPanel) : Prop :=
  ∀ t : Tank, ((AnimationPanel.new level).tank t).standingBox.intersects
    (panel.tank t.other).standingBox = false

/-- It is enough for a run that every paint finds both starting places free. -/
theorem run_apart_of_placesFree (level : Level)
    (hspawn : ∀ t, WallFree level ((AnimationPanel.new level).tank t).standingBox)
    (hdisjoint : Apart (AnimationPanel.new level)) (events : List Event)
    (hfree : ∀ front, front ++ [.paint] <+: events →
      PlacesFree level ((game trig).run (.new level) front)) :
    ∀ front, front <+: events → Apart ((game trig).run (.new level) front) := by
  refine ((game trig).forall_prefix_iff (Clear level) Apart
    (fun panel event => event = .paint → RespawnClear trig level panel) ?_ (.new level)
    (.new hspawn) hdisjoint events).mpr ?_
  · intro panel event hclear hapart
    exact ⟨(Clear.kept trig level hspawn).step trig panel event hclear,
      hclear.apart_step_iff trig hspawn hdisjoint hapart event⟩
  · rintro front event hfront rfl t - -
    exact hfree front hfront t

/-- While only the first tank fires, ticks append its shots. -/
theorem run_tick_fire (panel : AnimationPanel)
    (hpressed : ∀ t control, panel.pressed t control = decide (t = .tank1 ∧ control = .fire))
    (hplay : ∀ t, (panel.player t).endGame = false) (n : ℕ) :
    (game trig).run panel (List.replicate n .tick) =
      { panel with
        animations := panel.animations ++ List.replicate n (.shot ⟨.tank1,
          (panel.tank .tank1).index, (panel.tank .tank1).fireStartX trig,
          (panel.tank .tank1).fireStartY trig, false⟩) } := by
  induction n generalizing panel with
  | zero =>
    simp only [List.replicate_zero, List.append_nil]
    rfl
  | succ n ih =>
    have hreleased : ∀ t control, ¬(t = .tank1 ∧ control = .fire) →
        ∀ act, panel.whenPressed t control act = panel := by
      intro t control h
      refine panel.whenPressed_of_released ?_
      rw [hpressed]
      exact decide_eq_false h
    have htick : panel.tick trig = panel.fire trig .tank1 := by
      rw [AnimationPanel.tick, hplay, hplay, Bool.or_false, if_neg Bool.false_ne_true]
      simp only [AnimationPanel.drive, hreleased .tank2, hreleased .tank1, reduceCtorEq, false_and,
        and_false, not_false_eq_true]
      exact panel.whenPressed_of_pressed (hpressed .tank1 .fire) _
    change (game trig).run (panel.tick trig) (List.replicate n .tick) = _
    rw [htick]
    refine (ih (panel.fire trig .tank1) hpressed hplay).trans ?_
    simp only [AnimationPanel.fire, List.append_assoc, List.singleton_append, List.replicate_succ]

end Moves

/-- The tanks after one drives east, in a level without walls. -/
def advance (tanks : Tank → TankObject) (t : Tank) : Tank → TankObject :=
  let tank := (tanks t).forwardMove eastward
  Function.update tanks t
    (if tank.collisionToTank (tanks t.other) then tank
    else { tank with x := tank.nextX, y := tank.nextY })

/-- A move in a level without walls. -/
theorem move_duel (panel : AnimationPanel) (t : Tank)
    (hwall : panel.setArray.breakableWall.wallArray = duel) :
    panel.move t (TankObject.forwardMove eastward) =
      { panel.setArray with tank := advance panel.tank t } := by
  have htest : ((panel.tank t).forwardMove eastward).collisionToWall
      (panel.setTank t ((panel.tank t).forwardMove eastward)).setArray.breakableWall = false :=
    any_isWall_duel _ hwall _
  simp only [AnimationPanel.move, htest, Bool.false_or, advance]
  split
  · rfl
  · simp only [AnimationPanel.setTank, AnimationPanel.setArray, Function.update_idem]

/-- The level of a duel has no walls that could disappear. -/
theorem Grounded.wallArray_duel {panel : AnimationPanel} (h : Grounded duel (spawn duel) panel) :
    panel.breakableWall.wallArray = duel := by
  funext row column
  rcases h.eroded row column with hsame | ⟨hwall, -⟩
  · exact hsame
  · rw [duel] at hwall
    split_ifs at hwall <;> exact absurd hwall (by decide)

/-- The keys held down in a chase: the second tank drives east, and the first turns left and right
and drives east. -/
def chaseKeys : Tank → Control → Bool
  | .tank1, .left => true
  | .tank1, .right => true
  | .tank1, .up => true
  | .tank2, .up => true
  | _, _ => false

/-- The tanks turn and drive in a tick of a chase. -/
theorem tick_chase (panel : AnimationPanel) (hpressed : panel.pressed = chaseKeys)
    (hplay : ∀ t, (panel.player t).endGame = false)
    (hground : Grounded duel (spawn duel) panel) :
    (panel.tick eastward).tank = advance (Function.update (advance panel.tank .tank2) .tank1
      (advance panel.tank .tank2 .tank1).rotateLeft.rotateRight) .tank1 ∧
    (panel.tick eastward).pressed = chaseKeys ∧
    (panel.tick eastward).animations = panel.animations := by
  have hkeys : ∀ moved : AnimationPanel, moved.pressed = panel.pressed → ∀ t control,
      moved.pressed t control = chaseKeys t control := by
    intro moved hmoved t control
    rw [hmoved, hpressed]
  have hread : panel.setArray.breakableWall.wallArray = duel := hground.setArray.trans hground.wallArray_duel
  let second : AnimationPanel := { panel.setArray with tank := advance panel.tank .tank2 }
  have hdrive : panel.drive eastward .tank2 = second := by
    rw [AnimationPanel.drive, panel.whenPressed_of_released (hkeys _ rfl .tank2 .left),
      panel.whenPressed_of_released (hkeys _ rfl .tank2 .right),
      panel.whenPressed_of_pressed (hkeys _ rfl .tank2 .up), move_duel panel .tank2 hread,
      second.whenPressed_of_released (hkeys _ rfl .tank2 .down),
      second.whenPressed_of_released (hkeys _ rfl .tank2 .fire)]
  let turning := second.setTank .tank1 (second.tank .tank1).rotateLeft
  let turned := turning.setTank .tank1 (turning.tank .tank1).rotateRight
  let first : AnimationPanel := { turned.setArray with tank := advance turned.tank .tank1 }
  have hreread : turned.setArray.breakableWall.wallArray = duel :=
    (panel.setArray.breakableWall.setArray_wallArray rfl).trans hread
  have hdrive' : second.drive eastward .tank1 = first := by
    rw [AnimationPanel.drive, second.whenPressed_of_pressed (hkeys _ rfl .tank1 .left),
      turning.whenPressed_of_pressed (hkeys _ rfl .tank1 .right),
      turned.whenPressed_of_pressed (hkeys _ rfl .tank1 .up), move_duel turned .tank1 hreread,
      first.whenPressed_of_released (hkeys _ rfl .tank1 .down),
      first.whenPressed_of_released (hkeys _ rfl .tank1 .fire)]
  have hturning : turning.tank .tank1 = (second.tank .tank1).rotateLeft :=
    second.setTank_tank_self .tank1 _
  have hturned : turned.tank =
      Function.update second.tank .tank1 (second.tank .tank1).rotateLeft.rotateRight := by
    change Function.update (Function.update second.tank .tank1 _) .tank1 _ = _
    rw [hturning, Function.update_idem]
  rw [AnimationPanel.tick, hplay, hplay, Bool.or_false, if_neg Bool.false_ne_true, hdrive, hdrive']
  refine ⟨?_, hpressed, rfl⟩
  change advance turned.tank .tank1 = _
  rw [hturned]

/-- The first tank follows the second. -/
def chase : List Event :=
  [.keyPressed .tank2 .up, .keyPressed .tank1 .left, .keyPressed .tank1 .right,
    .keyPressed .tank1 .up, .tick, .tick]

/-- Both stop, and the first fires. -/
def halt : List Event :=
  [.keyReleased .tank2 .up, .keyReleased .tank1 .left, .keyReleased .tank1 .right,
    .keyReleased .tank1 .up, .keyPressed .tank1 .fire]

/-- The first tank follows the second, stops and fires five times. -/
def ambush : List Event := chase ++ (halt ++ List.replicate 5 .tick)

/-- The tanks after two ticks of the chase. -/
def chaseTank : Tank → TankObject
  | .tank1 => ⟨180, 160, 180, 160, east, 64, 64⟩
  | .tank2 => ⟨234, 160, 234, 160, east, 3840, 64⟩

/-- A shell of the ambush as it leaves the muzzle. -/
def slug : BulletAnimation := ⟨.tank1, east, 252, 192, false⟩

/-- The second tank after it was put back. -/
def replaced : TankObject := ⟨224, 160, 234, 160, east, 3840, 64⟩

/-- The tanks in an ambush: the second may have been put back. -/
structure Ambushed (panel : AnimationPanel) : Prop where
  grounded : Grounded duel (spawn duel) panel
  first : panel.tank .tank1 = chaseTank .tank1
  second : panel.tank .tank2 = chaseTank .tank2 ∨ panel.tank .tank2 = replaced

/-- A shell of the ambush strikes the second tank only. -/
theorem Ambushed.struck {panel : AnimationPanel} (h : Ambushed panel) :
    (slug.forwardMove eastward).struck panel = [.tank2] := by
  change [Tank.tank1, Tank.tank2].filter
    (fun t => (slug.forwardMove eastward).touches (panel.tank t)) = _
  rw [List.filter_cons, List.filter_cons, List.filter_nil, h.first]
  rcases h.second with hstays | hreplaced
  · rw [hstays]
    decide
  · rw [hreplaced]
    decide

/-- A shell leaves the tanks in the ambush. -/
theorem Ambushed.repaintBullet {panel : AnimationPanel} (h : Ambushed panel) :
    Ambushed (panel.repaintBullet eastward slug).1 := by
  have hground : Grounded duel (spawn duel) panel.setArray :=
    h.grounded.of_eroded rfl rfl (h.grounded.setArray ▸ .refl _)
  rw [panel.repaintBullet_of_clear eastward slug rfl (any_isWall_duel _ hground.wallArray_duel _),
    h.struck]
  change Ambushed (panel.setArray.hit .tank2)
  have htank := hground.hit_tank .tank2
  split at htank
  · refine ⟨hground.hit .tank2, ?_, Or.inr ?_⟩
    · rw [htank]
      exact h.first
    · have hplace : spawn duel .tank2 = (224, 160) := by
        rw [spawn, facing_new.tank]
        rfl
      rw [htank, Function.update_self, hplace]
      change TankObject.mk 224 160 (panel.tank .tank2).nextX (panel.tank .tank2).nextY east
        (panel.tank .tank2).width (panel.tank .tank2).height = _
      rcases h.second with hstays | hreplaced
      · rw [hstays]
        rfl
      · rw [hreplaced]
        rfl
  · exact ⟨hground.hit .tank2, htank ▸ h.first, htank ▸ h.second⟩

/-- In a level without walls the starting places are free. -/
theorem wallFree_duel (box : Rectangle) : WallFree duel box := by
  intro cell hcell
  rw [duel] at hcell
  split_ifs at hcell <;> exact absurd hcell (by decide)

/-- The tanks start apart. -/
theorem apart_duel : Apart (AnimationPanel.new duel) := by
  rw [Apart, facing_new.tank]
  decide

/-- Two ticks of a chase. -/
theorem run_tick_chase (start : AnimationPanel) (hpressed : start.pressed = chaseKeys)
    (hplay : ∀ t, (start.player t).endGame = false) (hground : Grounded duel (spawn duel) start)
    (htank : start.tank = duelTank 3840) :
    ((game eastward).run start [.tick, .tick]).tank = chaseTank ∧
      ((game eastward).run start [.tick, .tick]).pressed = chaseKeys ∧
      ((game eastward).run start [.tick, .tick]).animations = start.animations ∧
      ((game eastward).run start [.tick, .tick]).player = start.player := by
  have hrun : (game eastward).run start [.tick, .tick] = (start.tick eastward).tick eastward := rfl
  obtain ⟨hfirst, hkeys, hanimations⟩ := tick_chase start hpressed hplay hground
  have hplay' : ∀ t, ((start.tick eastward).player t).endGame = false := by
    rw [AnimationPanel.tick_player]
    exact hplay
  obtain ⟨hsecond, hkeys', hanimations'⟩ := tick_chase (start.tick eastward) hkeys hplay'
    ((Grounded.kept eastward duel (spawn duel)).step eastward start .tick hground)
  rw [hrun]
  refine ⟨?_, hkeys', hanimations'.trans hanimations, ?_⟩
  · rw [hsecond, hfirst, htank]
    funext t
    cases t <;> rfl
  · rw [AnimationPanel.tick_player, AnimationPanel.tick_player]

/-- The tanks after the chase. -/
theorem run_chase :
    ((game eastward).run (.new duel) chase).tank = chaseTank ∧
      ((game eastward).run (.new duel) chase).pressed = chaseKeys ∧
      ((game eastward).run (.new duel) chase).animations = [] ∧
      ((game eastward).run (.new duel) chase).player = (AnimationPanel.new duel).player := by
  have hsplit : chase = chase.take 4 ++ [.tick, .tick] := rfl
  rw [hsplit, TotalMachine.run_append]
  refine run_tick_chase _ ?_ ?_ ?_ ?_
  · funext t control
    cases t <;> cases control <;> rfl
  · intro t
    cases t <;> rfl
  · exact (Grounded.kept eastward duel (spawn duel)).run eastward (.new duel) _
  · exact facing_new.tank

/-- The keys move no tank, and only the first tank fires after them. -/
theorem run_halt (panel : AnimationPanel) (hpressed : panel.pressed = chaseKeys) :
    (game eastward).run panel halt =
      { panel with pressed := fun t control => decide (t = .tank1 ∧ control = .fire) } := by
  obtain ⟨tank, player, wall, animations, pressed⟩ := panel
  obtain rfl : pressed = chaseKeys := hpressed
  refine congrArg (AnimationPanel.mk tank player wall animations) ?_
  funext t control
  cases t <;> cases control <;> rfl

/-- Five ticks in which the first tank fires. -/
theorem run_halted (panel : AnimationPanel) (hpressed : panel.pressed = chaseKeys)
    (htank : panel.tank = chaseTank) (hanimations : panel.animations = [])
    (hplay : ∀ t, (panel.player t).endGame = false) :
    ((game eastward).run panel (halt ++ List.replicate 5 .tick)).tank = chaseTank ∧
      ((game eastward).run panel (halt ++ List.replicate 5 .tick)).animations =
        List.replicate 5 (.shot slug) ∧
      ((game eastward).run panel (halt ++ List.replicate 5 .tick)).player = panel.player := by
  let halted : AnimationPanel :=
    { panel with pressed := fun t control => decide (t = .tank1 ∧ control = .fire) }
  have hticks := run_tick_fire eastward halted (fun _ _ => rfl) hplay 5
  rw [TotalMachine.run_append, run_halt panel hpressed, hticks]
  refine ⟨htank, ?_, rfl⟩
  rw [hanimations, htank, List.nil_append]
  rfl

/-- The ambush is laid. -/
theorem run_ambush :
    ((game eastward).run (.new duel) ambush).tank = chaseTank ∧
      ((game eastward).run (.new duel) ambush).animations = List.replicate 5 (.shot slug) ∧
      ((game eastward).run (.new duel) ambush).player = (AnimationPanel.new duel).player := by
  obtain ⟨htank, hkeys, hanimations, hplayer⟩ := run_chase
  have hplay : ∀ t, (((game eastward).run (.new duel) chase).player t).endGame = false := by
    intro t
    rw [hplayer]
    cases t <;> rfl
  obtain ⟨htank', hshots, hplayer'⟩ :=
    run_halted ((game eastward).run (.new duel) chase) hkeys htank hanimations hplay
  rw [ambush, TotalMachine.run_append]
  exact ⟨htank', hshots, hplayer'.trans hplayer⟩

/-- A paint of an ambush strikes the second tank with every shell, and the first with none. -/
theorem Ambushed.hits {laid : AnimationPanel} (h : Ambushed laid)
    (hanimations : laid.animations = List.replicate 5 (.shot slug))
    (hplayer : laid.player = (AnimationPanel.new duel).player) (t : Tank) :
    ((laid.paintComponent eastward).player t).hits =
      List.count t (List.replicate 5 Tank.tank2) := by
  have hkept : ∀ (panel : AnimationPanel) (animations : List PanelAnimation), Ambushed panel →
      Ambushed { (panel.repaintBullet eastward slug).1 with animations := animations } := by
    intro panel animations h
    have hafter := h.repaintBullet
    exact ⟨(Grounded.kept eastward duel (spawn duel)).animations _ animations hafter.grounded,
      hafter.first, hafter.second⟩
  have hloop := paintLoop_shots_scoreboard eastward slug .tank2 rfl (fun _ h => h.struck) hkept
    h 0 5 [] (by rw [List.drop_zero, hanimations]; rfl)
  have hstart : (laid.scoreboard t).hits = 0 := by
    change (laid.player t).hits = 0
    rw [hplayer]
    cases t <;> rfl
  rw [AnimationPanel.paintComponent_hits, hloop, Scoreboard.foldl_hit_hits, hstart, Nat.zero_add]

/-- The paint after the ambush strikes the second tank five times and the first never. -/
theorem hits_ambush (t : Tank) :
    ((((game eastward).run (.new duel) ambush).paintComponent eastward).player t).hits =
      List.count t (List.replicate 5 Tank.tank2) := by
  obtain ⟨htank, hanimations, hplayer⟩ := run_ambush
  have hground := (Grounded.kept eastward duel (spawn duel)).run eastward (.new duel) ambush
  exact Ambushed.hits ⟨hground, congrFun htank .tank1, Or.inl (congrFun htank .tank2)⟩
    hanimations hplayer t

/-- The second tank is put back on the first. -/
theorem not_apart_ambush :
    (∀ t, WallFree duel ((AnimationPanel.new duel).tank t).standingBox) ∧
      Apart (AnimationPanel.new duel) ∧
      ¬Apart ((game eastward).run (.new duel) (ambush ++ [.paint])) := by
  refine ⟨fun _ => wallFree_duel _, apart_duel, ?_⟩
  obtain ⟨htank, -, hplayer⟩ := run_ambush
  have hground : Grounded duel (spawn duel) ((game eastward).run (.new duel) ambush) :=
    (Grounded.kept eastward duel (spawn duel)).run eastward (.new duel) _
  have hdead : Killed eastward ((game eastward).run (.new duel) ambush) .tank2 := by
    rw [Killed, hits_ambush, hplayer]
    exact ⟨4, by decide, rfl⟩
  have halive : ¬Killed eastward ((game eastward).run (.new duel) ambush) .tank1 := by
    rw [Killed, hits_ambush, hplayer]
    rintro ⟨k, hk, -⟩
    exact absurd hk (Nat.not_lt_zero k)
  have hplace := hground.paintComponent_standingBox eastward
  rw [TotalMachine.run_append_singleton, Apart]
  change ¬(((((game eastward).run (.new duel) ambush).paintComponent eastward).tank
    .tank1).standingBox.intersects _ = false)
  rw [(hplace .tank1).2 halive]
  change ¬(Rectangle.intersects _ ((((game eastward).run (.new duel) ambush).paintComponent
    eastward).tank .tank2).standingBox = false)
  rw [(hplace .tank2).1 hdead, htank, facing_new.tank]
  decide

/-- The condition in the duel. -/
theorem run_apart_iff_ambush :
    (∀ front, front <+: ambush ++ [.paint] → Apart ((game eastward).run (.new duel) front)) ↔
      ∀ front, front ++ [.paint] <+: ambush ++ [.paint] →
        RespawnClear eastward duel ((game eastward).run (.new duel) front) :=
  run_apart_iff eastward duel (fun _ => wallFree_duel _) apart_duel _

end Coursework.TankGame
