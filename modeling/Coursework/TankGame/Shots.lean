import Coursework.TankGame.Conservation
import Coursework.TankGame.GameOver
import Mathlib.Data.Fintype.Prod
import Mathlib.Data.Int.Interval

/-!
# What the shots can do

A shot that flies ends in the paint in which it meets something: it hits each tank at most once
and takes away at most four walls then. So the shots fired bound the damage, and as long as
they are fewer than fifty million no health leaves the range of `int`.
-/

namespace Coursework.TankGame

open Transition

/-- A bullet that is not stopped. -/
def PanelAnimation.isFlying : PanelAnimation → Bool
  | .plain _ => false
  | .shot bullet => !bullet.stop

/-- The bullets of a list that are not stopped. -/
def flying (animations : List PanelAnimation) : ℕ := animations.countP PanelAnimation.isFlying

/-- The breakable walls of the level that are gone. -/
def destroyed (level : Level) (wall : WallObject) : ℕ :=
  (Finset.univ.filter fun cell : Fin 40 × Fin 39 =>
    level cell.1 cell.2 = '2' ∧ wall.wallArray cell.1 cell.2 ≠ '2').card

/-- The walls that a bullet touches. -/
def BulletAnimation.walls (bullet : BulletAnimation) : Finset (Fin 40 × Fin 39) :=
  Finset.univ.filter fun cell => (bullet.box 10).intersects (wallBox 0 cell) = true

/-- The shots that an event fires. -/
def AnimationPanel.shots (panel : AnimationPanel) : Event → ℕ
  | .tick =>
    if (panel.player .tank1).endGame || (panel.player .tank2).endGame then 0
    else (if panel.pressed .tank1 .fire then 1 else 0) + if panel.pressed .tank2 .fire then 1 else 0
  | _ => 0

/-- An entry that is stopped does not fly. -/
theorem PanelAnimation.isFlying_of_stopped {entry : PanelAnimation}
    (h : entry.isStopped = true) : entry.isFlying = false := by
  cases entry with
  | plain animation => rfl
  | shot bullet => exact (congrArg not h).trans rfl

/-- The removal of an entry that does not fly leaves the bullets that fly. -/
theorem flying_eraseIdx (animations : List PanelAnimation) {counter : ℕ}
    (hcounter : counter < animations.length)
    (h : (animations.get ⟨counter, hcounter⟩).isFlying = false) :
    flying (animations.eraseIdx counter) = flying animations := by
  induction animations generalizing counter with
  | nil => rfl
  | cons entry rest ih =>
    cases counter with
    | zero =>
      exact (List.countP_cons_of_neg (ne_true_of_eq_false h)).symm
    | succ counter =>
      have hrest := ih (Nat.lt_of_succ_lt_succ hcounter) h
      rw [flying, flying] at hrest
      rw [List.eraseIdx_cons_succ, flying, flying, List.countP_cons, List.countP_cons, hrest]

/-- Explosions do not fly. -/
theorem flying_explosions (explosions : List Animation) : flying (explosions.map .plain) = 0 := by
  rw [flying, List.countP_map, List.countP_eq_zero]
  exact fun _ _ => Bool.false_ne_true

/-- A bullet touches at most two walls in each direction. -/
theorem BulletAnimation.card_walls (bullet : BulletAnimation) : bullet.walls.card ≤ 4 := by
  let columns := Finset.Icc (bullet.x / 32) (bullet.x / 32 + 1)
  let rows := Finset.Icc (bullet.y / 32) (bullet.y / 32 + 1)
  have htwo : ∀ first : ℤ, (Finset.Icc first (first + 1)).card = 2 := by
    intro first
    rw [Int.card_Icc]
    omega
  have hcard : (columns ×ˢ rows).card = 4 := by
    rw [Finset.card_product, htwo, htwo]
  rw [← hcard]
  apply Finset.card_le_card_of_injOn fun cell => (((cell.2 : ℕ) : ℤ), ((cell.1 : ℕ) : ℤ))
  · intro cell hcell
    have htouches := (Finset.mem_filter.mp hcell).2
    rw [Java.Rectangle.intersects_iff] at htouches
    simp only [BulletAnimation.box, wallBox, corner, wallSize] at htouches
    rw [Finset.mem_coe, Finset.mem_product, Finset.mem_Icc, Finset.mem_Icc]
    simp only
    omega
  · rintro ⟨row, column⟩ - ⟨row', column'⟩ - heq
    rw [Prod.mk.injEq, Nat.cast_inj, Nat.cast_inj] at heq
    exact Prod.ext (Fin.ext heq.2) (Fin.ext heq.1)

/-- A bullet takes away at most four walls. -/
theorem destroyed_attackWall (level : Level) (bullet : BulletAnimation) (wall : WallObject) :
    destroyed level (bullet.attackWall wall) ≤ destroyed level wall + 4 := by
  rw [destroyed, destroyed]
  refine (Finset.card_le_card (t := _ ∪ bullet.walls) ?_).trans ((Finset.card_union_le _ _).trans
    (Nat.add_le_add_left bullet.card_walls _))
  intro cell hcell
  obtain ⟨-, hlevel, hgone⟩ := Finset.mem_filter.mp hcell
  rw [Finset.mem_union, Finset.mem_filter, BulletAnimation.walls, Finset.mem_filter]
  by_cases hbefore : wall.wallArray cell.1 cell.2 = '2'
  · right
    refine ⟨Finset.mem_univ _, by_contra fun hmissed => hgone ?_⟩
    change (if wall.wallArray cell.1 cell.2 == '2' && _ then ' ' else _) = '2'
    rw [eq_false_of_ne_true hmissed, Bool.and_false, if_neg Bool.false_ne_true]
    exact hbefore
  · exact Or.inl ⟨Finset.mem_univ _, hlevel, hbefore⟩

/-- Reading the level again leaves the walls that are gone. -/
theorem destroyed_setArray (level : Level) (wall : WallObject) (hsource : wall.source = []) :
    destroyed level wall.setArray = destroyed level wall := by
  rw [destroyed, WallObject.setArray_wallArray wall hsource, destroyed]

/-- The wall test of a bullet takes away four walls at most, and stops the bullet if it takes any. -/
theorem AnimationPanel.meetWall_spends (level : Level) {panel : AnimationPanel}
    (hsource : panel.breakableWall.source = []) (bullet : BulletAnimation) :
    (panel.meetWall bullet).1.breakableWall.source = [] ∧
      destroyed level (panel.meetWall bullet).1.breakableWall +
          4 * flying [.shot (panel.meetWall bullet).2] ≤
        destroyed level panel.breakableWall + 4 := by
  have hone : flying [.shot bullet] ≤ 1 := List.countP_le_length
  have hread := destroyed_setArray level panel.breakableWall hsource
  have hagain := destroyed_setArray level panel.breakableWall.setArray rfl
  rw [AnimationPanel.meetWall]
  split
  · refine ⟨rfl, ?_⟩
    have hgone := destroyed_attackWall level bullet panel.breakableWall.setArray.setArray
    change destroyed level (bullet.attackWall panel.breakableWall.setArray.setArray) + 4 * 0 ≤ _
    omega
  · refine ⟨rfl, ?_⟩
    change destroyed level panel.breakableWall.setArray + 4 * flying [.shot bullet] ≤ _
    omega

/-- The tank test of a bullet leaves the walls alone. -/
theorem AnimationPanel.meetTank_breakableWall (panel : AnimationPanel) (bullet : BulletAnimation) :
    (panel.meetTank bullet).1.breakableWall = panel.breakableWall := by
  have hhits : ∀ (ts : List Tank) (panel : AnimationPanel),
      (ts.foldl AnimationPanel.hit panel).breakableWall = panel.breakableWall := by
    intro ts
    induction ts with
    | nil => exact fun _ => rfl
    | cons t rest ih => exact fun panel => (ih _).trans (panel.hit_breakableWall t)
  rw [AnimationPanel.meetTank]
  split
  · exact hhits _ _
  · rfl

/-- The tank test of a bullet hits each tank at most once, and stops the bullet if it hits any. -/
theorem AnimationPanel.meetTank_spends (panel : AnimationPanel) (bullet : BulletAnimation)
    (t : Tank) :
    ((panel.meetTank bullet).1.player t).hits + flying [.shot (panel.meetTank bullet).2] ≤
        (panel.player t).hits + 1 ∧
      flying [.shot (panel.meetTank bullet).2] ≤ flying [.shot bullet] := by
  have hone : flying [.shot bullet] ≤ 1 := List.countP_le_length
  have hhits : ((panel.meetTank bullet).1.player t).hits =
      (panel.player t).hits + (bullet.struck panel).count t := by
    change ((panel.meetTank bullet).1.scoreboard t).hits = _
    rw [AnimationPanel.meetTank_scoreboard, Scoreboard.foldl_hit_hits]
    rfl
  have honce : (bullet.struck panel).Nodup := by
    refine List.Nodup.filter _ (List.nodup_cons.mpr ⟨?_, List.nodup_singleton _⟩)
    exact fun h => bullet.tank.other_ne (List.mem_singleton.mp h).symm
  have hcount := List.nodup_iff_count_le_one.mp honce t
  by_cases htouch : bullet.collisionToTank panel = true
  · have hstopped : flying [.shot (panel.meetTank bullet).2] = 0 := by
      rw [AnimationPanel.meetTank, if_pos htouch]
      rfl
    omega
  · have hnone := bullet.struck_eq_nil panel htouch
    have hsame : (panel.meetTank bullet).2 = bullet := by
      rw [AnimationPanel.meetTank, if_neg htouch]
    rw [hsame, hhits, hnone, List.count_nil]
    exact ⟨by omega, le_rfl⟩

section Moves

variable (trig : Trigonometry) {level : Level} {fired : ℕ} {panel : AnimationPanel}

/-- The repaint of a bullet that flies: what it hits and takes away is paid for with the bullet. -/
theorem AnimationPanel.repaintBullet_spends (level : Level)
    (hsource : panel.breakableWall.source = [])
    {bullet : BulletAnimation} (hlive : bullet.stop = false) :
    (panel.repaintBullet trig bullet).1.breakableWall.source = [] ∧
      (∀ t, ((panel.repaintBullet trig bullet).1.player t).hits +
          flying [.shot (panel.repaintBullet trig bullet).2] ≤ (panel.player t).hits + 1) ∧
      destroyed level (panel.repaintBullet trig bullet).1.breakableWall +
          4 * flying [.shot (panel.repaintBullet trig bullet).2] ≤
        destroyed level panel.breakableWall + 4 := by
  rw [AnimationPanel.repaintBullet, hlive, if_neg Bool.false_ne_true]
  let met := panel.meetWall (bullet.forwardMove trig)
  obtain ⟨hread, hwalls⟩ := AnimationPanel.meetWall_spends level hsource (bullet.forwardMove trig)
  have hhits : ∀ t, (met.1.player t).hits = (panel.player t).hits := fun t =>
    congrArg Account.hits (congrFun (panel.meetWall_scoreboard (bullet.forwardMove trig)) t)
  have hsame := met.1.meetTank_breakableWall met.2
  change (met.1.meetTank met.2).1.breakableWall.source = [] ∧
    (∀ t, ((met.1.meetTank met.2).1.player t).hits + flying [.shot (met.1.meetTank met.2).2] ≤ _) ∧
    destroyed level (met.1.meetTank met.2).1.breakableWall +
      4 * flying [.shot (met.1.meetTank met.2).2] ≤ _
  rw [hsame]
  refine ⟨hread, fun t => ?_, ?_⟩
  · rw [← hhits]
    exact (met.1.meetTank_spends met.2 t).1
  · have hfewer := (met.1.meetTank_spends met.2 .tank1).2
    change destroyed level met.1.breakableWall + 4 * flying [.shot met.2] ≤ _ at hwalls
    omega

/-- The shots fired pay for the hits, the walls that are gone, and the bullets that fly. -/
structure Paid (level : Level) (fired : ℕ) (panel : AnimationPanel) : Prop where
  source : panel.breakableWall.source = []
  hits : ∀ t, (panel.player t).hits + flying panel.animations ≤ fired
  walls : destroyed level panel.breakableWall + 4 * flying panel.animations ≤ 4 * fired

/-- A repainted entry takes the place of the one before. -/
theorem flying_set {animations : List PanelAnimation} {counter : ℕ}
    (hcounter : counter < animations.length) (entry : PanelAnimation) :
    flying (animations.set counter entry) + flying [animations.get ⟨counter, hcounter⟩] =
      flying animations + flying [entry] := by
  have hle := List.boole_getElem_le_countP (p := PanelAnimation.isFlying) hcounter
  rw [flying, List.countP_set hcounter]
  change _ + List.countP _ [animations[counter]] = List.countP _ animations + List.countP _ [entry]
  rw [List.countP_singleton, List.countP_singleton]
  omega

/-- A repaint pays for what it does with the bullet that it stops. -/
theorem Paid.repaintAt (h : Paid level fired panel) {counter : ℕ}
    (hcounter : counter < panel.animations.length)
    (hlive : ¬(panel.animations.get ⟨counter, hcounter⟩).isStopped = true) :
    Paid level fired
      (panel.repaintAt trig counter (panel.animations.get ⟨counter, hcounter⟩)) := by
  have hset := flying_set hcounter
  cases hentry : panel.animations.get ⟨counter, hcounter⟩ with
  | plain animation =>
    rw [hentry] at hset
    have hsame : flying (panel.animations.set counter (.plain animation.repaint)) =
        flying panel.animations := hset (.plain animation.repaint)
    refine ⟨h.source, fun t => ?_, ?_⟩
    · change (panel.player t).hits + flying (panel.animations.set counter _) ≤ fired
      rw [hsame]
      exact h.hits t
    · change destroyed level panel.breakableWall + 4 * flying (panel.animations.set counter _) ≤ _
      rw [hsame]
      exact h.walls
  | shot bullet =>
    rw [hentry] at hset hlive
    have hstop : bullet.stop = false := eq_false_of_ne_true hlive
    have hflies : flying [.shot bullet] = 1 := by
      rw [flying, List.countP_singleton, PanelAnimation.isFlying, hstop]
      rfl
    have hafter := hset (.shot (panel.repaintBullet trig bullet).2)
    obtain ⟨explosions, -, -, hanimations⟩ := panel.repaintBullet_animations trig bullet
    have hlist : flying ((panel.repaintBullet trig bullet).1.animations.set counter
        (.shot (panel.repaintBullet trig bullet).2)) =
          flying (panel.animations.set counter (.shot (panel.repaintBullet trig bullet).2)) := by
      rw [hanimations, List.set_append_left _ _ hcounter, flying, List.countP_append]
      exact congrArg (_ + ·) (flying_explosions explosions)
    obtain ⟨hsource, hhits, hwalls⟩ :=
      AnimationPanel.repaintBullet_spends trig level h.source hstop
    refine ⟨hsource, fun t => ?_, ?_⟩
    · change ((panel.repaintBullet trig bullet).1.player t).hits + flying
        ((panel.repaintBullet trig bullet).1.animations.set counter
          (.shot (panel.repaintBullet trig bullet).2)) ≤ fired
      have hpaid := h.hits t
      have hhit := hhits t
      omega
    · change destroyed level (panel.repaintBullet trig bullet).1.breakableWall + 4 * flying
        ((panel.repaintBullet trig bullet).1.animations.set counter
          (.shot (panel.repaintBullet trig bullet).2)) ≤ 4 * fired
      have hpaid := h.walls
      omega

/-- The loop over the animations pays for what it does with the bullets that it stops. -/
theorem Paid.paintLoop (counter : ℕ) (h : Paid level fired panel) :
    Paid level fired (panel.paintLoop trig counter) := by
  induction panel, counter using AnimationPanel.paintLoop.induct trig with
  | case1 panel counter hcounter animation hstopped ih =>
    rw [AnimationPanel.paintLoop, dif_pos hcounter, if_pos hstopped]
    have hsame := flying_eraseIdx panel.animations hcounter
      (PanelAnimation.isFlying_of_stopped hstopped)
    refine ih ⟨h.source, fun t => ?_, ?_⟩
    · change (panel.player t).hits + flying (panel.animations.eraseIdx counter) ≤ fired
      rw [hsame]
      exact h.hits t
    · change destroyed level panel.breakableWall + 4 * flying (panel.animations.eraseIdx counter) ≤ _
      rw [hsame]
      exact h.walls
  | case2 panel counter hcounter animation hlive ih =>
    rw [AnimationPanel.paintLoop, dif_pos hcounter, if_neg hlive]
    exact ih (h.repaintAt trig hcounter hlive)
  | case3 panel counter hcounter =>
    rw [AnimationPanel.paintLoop, dif_neg hcounter]
    exact h

/-- A paint leaves the hits as its loop does. -/
theorem Paid.paintComponent (h : Paid level fired panel) :
    Paid level fired (panel.paintComponent trig) := by
  have hloop := h.paintLoop trig 0
  refine ⟨hloop.source, fun t => ?_, hloop.walls⟩
  rw [AnimationPanel.paintComponent_hits]
  exact hloop.hits t

/-- What a tick does for one tank is paid for with its shot. -/
theorem Paid.drive (h : Paid level fired panel) (t : Tank) :
    Paid level (fired + if panel.pressed t .fire then 1 else 0) (panel.drive trig t) ∧
      (panel.drive trig t).pressed = panel.pressed := by
  let P : AnimationPanel → Prop := fun moved =>
    Paid level fired moved ∧ moved.pressed = panel.pressed
  have hturn : ∀ moved t tank, P moved → P (moved.setTank t tank) := fun moved t tank hmoved =>
    ⟨⟨hmoved.1.source, hmoved.1.hits, hmoved.1.walls⟩, hmoved.2⟩
  have hmove : ∀ moved t next, P moved → P (moved.move t next) := by
    intro moved t next hmoved
    have hread : P (moved.setTank t (next (moved.tank t))).setArray := by
      refine ⟨⟨rfl, hmoved.1.hits, ?_⟩, hmoved.2⟩
      change destroyed level moved.breakableWall.setArray + _ ≤ _
      rw [destroyed_setArray level _ hmoved.1.source]
      exact hmoved.1.walls
    rw [AnimationPanel.move]
    split
    · exact hread
    · exact hturn _ t _ hread
  have hbefore : P ((((panel.whenPressed t .left fun panel =>
      panel.setTank t (panel.tank t).rotateLeft).whenPressed t .right fun panel =>
      panel.setTank t (panel.tank t).rotateRight).whenPressed t .up fun panel =>
      panel.move t (TankObject.forwardMove trig)).whenPressed t .down fun panel =>
      panel.move t (TankObject.reverseMove trig)) := by
    refine AnimationPanel.whenPressed_keeps t .down ?_ fun moved => hmove moved t _
    refine AnimationPanel.whenPressed_keeps t .up ?_ fun moved => hmove moved t _
    refine AnimationPanel.whenPressed_keeps t .right ?_ fun moved => hturn moved t _
    exact AnimationPanel.whenPressed_keeps t .left ⟨h, rfl⟩ fun moved => hturn moved t _
  obtain ⟨hpaid, hkeys⟩ := hbefore
  rw [AnimationPanel.drive, AnimationPanel.whenPressed, hkeys]
  split
  · refine ⟨⟨hpaid.source, fun u => ?_, ?_⟩, hkeys⟩
    all_goals rw [AnimationPanel.fire, flying, List.countP_append]
    · exact Nat.add_le_add_right (hpaid.hits u) 1
    · change _ + 4 * (_ + 1) ≤ 4 * (fired + 1)
      rw [Nat.mul_add, Nat.mul_add, ← Nat.add_assoc]
      exact Nat.add_le_add_right hpaid.walls _
  · exact ⟨hpaid, hkeys⟩

/-- Every event is paid for with the shots that it fires. -/
theorem Paid.step (h : Paid level fired panel) (event : Event) :
    Paid level (fired + panel.shots event) (panel.step trig event) := by
  cases event with
  | keyPressed t control => exact ⟨h.source, h.hits, h.walls⟩
  | keyReleased t control => exact ⟨h.source, h.hits, h.walls⟩
  | tick =>
    change Paid level (fired + panel.shots .tick) (panel.tick trig)
    rw [AnimationPanel.tick, AnimationPanel.shots]
    split
    · exact h
    · obtain ⟨hsecond, hkeys⟩ := h.drive trig .tank2
      obtain ⟨hfirst, -⟩ := hsecond.drive trig .tank1
      rw [hkeys] at hfirst
      rw [Nat.add_comm (if panel.pressed .tank1 .fire then 1 else 0), ← Nat.add_assoc]
      exact hfirst
  | paint => exact h.paintComponent trig

/-- The shots fired in a run. -/
def shotsFired : AnimationPanel → List Event → ℕ
  | _, [] => 0
  | panel, event :: rest => panel.shots event + shotsFired (panel.step trig event) rest

/-- Every run is paid for with the shots fired in it. -/
theorem Paid.run (h : Paid level fired panel) (events : List Event) :
    Paid level (fired + shotsFired trig panel events) ((game trig).run panel events) := by
  induction events generalizing panel fired with
  | nil => exact h
  | cons event rest ih =>
    rw [shotsFired, ← Nat.add_assoc]
    exact ih (h.step trig event)

/-- The shots of the last event are those fired last. -/
theorem shotsFired_append_singleton (panel : AnimationPanel) (events : List Event) (event : Event) :
    shotsFired trig panel (events ++ [event]) =
      shotsFired trig panel events + ((game trig).run panel events).shots event := by
  induction events generalizing panel with
  | nil => exact Nat.add_comm _ _
  | cons first rest ih =>
    rw [List.cons_append, shotsFired, shotsFired, ih, Nat.add_assoc]
    rfl

omit trig in
/-- Play starts with a full account. -/
theorem account_new (level : Level) (t : Tank) :
    ((AnimationPanel.new level).player t).account = ⟨200, 3, 0, 0⟩ := by
  change (AnimationPanel.new level).scoreboard t = _
  rw [AnimationPanel.new, AnimationPanel.setInitPosition_scoreboard,
    AnimationPanel.setInitPosition_scoreboard]
  cases t <;> rfl

omit trig in
/-- Play starts with no shot, and nothing to pay for. -/
theorem Paid.new (level : Level) : Paid level 0 (.new level) := by
  refine ⟨rfl, fun t => (congrArg Account.hits (account_new level t)).le, ?_⟩
  have hnone : destroyed level (WallObject.new level).setArray = 0 := by
    rw [destroyed, WallObject.setArray_new_wallArray, Finset.card_eq_zero,
      Finset.filter_eq_empty_iff]
    exact fun _ _ hboth => hboth.2 hboth.1
  exact hnone.le

/-- As long as health cannot have left the range of `int`, each life lost has cost five hits; a game
that is over has cost fifteen. -/
structure Account.Charged (account : Account) (ended : Bool) : Prop where
  ended : ended = true → 15 ≤ account.hits
  lives : account.hits ≤ 53687092 →
    200 * (4 - account.lives.toInt) ≤ 40 * account.hits + account.health.toInt
  health : account.hits ≤ 53687092 →
    200 - 40 * (account.hits : ℤ) ≤ account.health.toInt ∧ account.health.toInt ≤ 200

omit trig in
/-- A hit is counted, and points cost nothing. -/
theorem Account.Charged.hit {board : Scoreboard} {ended : Tank → Bool}
    (h : ∀ t, (board t).Charged (ended t)) (t u : Tank) :
    (board.hit t u).Charged (ended u) := by
  have hcost : (40 : Int32).toInt = 40 := rfl
  obtain ⟨hended, hlives, hhealth⟩ := h u
  rw [Scoreboard.hit]
  split
  · refine ⟨fun hend => (hended hend).trans (Nat.le_succ _), fun hhits => ?_, fun hhits => ?_⟩
    all_goals
      change (board u).hits + 1 ≤ 53687092 at hhits
      have hlives := hlives (by omega)
      obtain ⟨hlow, hhigh⟩ := hhealth (by omega)
      have hafter : ((board u).health - 40).toInt = (board u).health.toInt - 40 := by
        rw [Java.toInt_sub_of_bounds _ _ (by omega) (by omega), hcost]
    · change 200 * (4 - (board u).lives.toInt) ≤
        40 * (((board u).hits + 1 : ℕ) : ℤ) + ((board u).health - 40).toInt
      omega
    · change 200 - 40 * (((board u).hits + 1 : ℕ) : ℤ) ≤ ((board u).health - 40).toInt ∧
        ((board u).health - 40).toInt ≤ 200
      omega
  · split
    · exact ⟨hended, hlives, hhealth⟩
    · exact ⟨hended, hlives, hhealth⟩

omit trig in
/-- A life that is lost has cost its hits when it is settled, and so has a game that ends. -/
theorem Players.charged_paint {player : Players} (h : player.account.Charged player.endGame) :
    player.paintHealth.paintLives.account.Charged player.paintHealth.paintLives.endGame := by
  have hsettled : player.account.settle.Charged player.endGame := by
    have hzero : (0 : Int32).toInt = 0 := rfl
    have hone : (1 : Int32).toInt = 1 := rfl
    have hfull : (200 : Int32).toInt = 200 := rfl
    rw [Account.settle]
    split
    · exact h
    · rename_i hdead
      rw [Int32.lt_iff_toInt_lt, hzero] at hdead
      have hrange := player.account.lives.toInt_lt
      refine ⟨h.ended, fun hhits => ?_, fun hhits => ?_⟩
      all_goals
        change player.account.hits ≤ 53687092 at hhits
        have hlives := h.lives hhits
        obtain ⟨hlow, -⟩ := h.health hhits
      · have hafter : (player.account.lives - 1).toInt = player.account.lives.toInt - 1 := by
          rw [Java.toInt_sub_of_bounds _ _ (by omega) (by omega), hone]
        change 200 * (4 - (player.account.lives - 1).toInt) ≤
          40 * (player.account.hits : ℤ) + (200 : Int32).toInt
        omega
      · change 200 - 40 * (player.account.hits : ℤ) ≤ (200 : Int32).toInt ∧ (200 : Int32).toInt ≤ 200
        omega
  have hsame : player.paintHealth.endGame = player.endGame := by
    rw [Players.paintHealth]
    split_ifs <;> rfl
  rw [Players.paintLives_account, Players.paintHealth_account]
  refine ⟨fun hend => ?_, hsettled.lives, hsettled.health⟩
  rw [Players.paintLives] at hend
  split at hend
  · rename_i hnone
    have hlives : player.account.settle.lives.toInt = 0 := by
      rw [← Players.paintHealth_account]
      exact congrArg Int32.toInt (beq_iff_eq.mp hnone)
    by_contra hfew
    have hcost := hsettled.lives (by omega)
    have hfull := (hsettled.health (by omega)).2
    omega
  · exact hsettled.ended (hsame ▸ hend)

/-- Every event charges what it takes. -/
theorem charged_kept :
    Kept trig fun panel => ∀ t, (panel.player t).account.Charged (panel.player t).endGame where
  setKey := fun _ _ _ _ h => h
  animations := fun _ _ h => h
  rotateLeft := fun _ _ h => h
  rotateRight := fun _ _ h => h
  forwardMove := by
    intro panel t h
    obtain ⟨tank, hmove, -⟩ := panel.move_eq t (TankObject.forwardMove trig)
    rw [hmove]
    exact h
  reverseMove := by
    intro panel t h
    obtain ⟨tank, hmove, -⟩ := panel.move_eq t (TankObject.reverseMove trig)
    rw [hmove]
    exact h
  meetWall := by
    intro panel bullet h
    rw [AnimationPanel.meetWall]
    split <;> exact h
  hit := by
    intro panel t h u
    have hcharged := Account.Charged.hit h t u
    rw [panel.hit_endGame]
    change ((panel.hit t).scoreboard u).Charged _
    rw [panel.hit_scoreboard]
    exact hcharged
  paint := fun panel h t => Players.charged_paint (h t)

/-- Every run from the start of play is paid for. -/
theorem run_paid (level : Level) (events : List Event) :
    Paid level (shotsFired trig (.new level) events) ((game trig).run (.new level) events) := by
  have hrun := (Paid.new level).run trig events
  rwa [Nat.zero_add] at hrun

/-- Up to so many shots no paint takes health below the least `int`. -/
theorem run_scoreConserved (level : Level) (events : List Event)
    (hfew : shotsFired trig (.new level) events ≤ 53687092) :
    ScoreConserved ((game trig).run (.new level) events).player := by
  induction events using List.reverseRecOn with
  | nil => exact scoreConserved_new level
  | append_singleton earlier event ih =>
    have hafter := run_paid trig level (earlier ++ [event])
    have hcount := shotsFired_append_singleton trig (.new level) earlier event
    have hbefore := ih (by omega)
    rw [TotalMachine.run_append_singleton] at hafter ⊢
    by_cases hpaint : event = .paint
    · subst hpaint
      refine AnimationPanel.paintComponent_scoreConserved trig _ hbefore fun t => ?_
      obtain ⟨m, hlow, -, hm⟩ := (mem_health_iff _).mp (hbefore t).1
      have hhits := hafter.hits t
      change ((AnimationPanel.paintComponent trig _).player t).hits + _ ≤ _ at hhits
      change (_ : ℤ) ≤ (((game trig).run (.new level) earlier).player t).health.toInt - _
      omega
    · change (AnimationPanel.step trig _ event).scoreboard.Settled
      rw [AnimationPanel.step_scoreboard trig _ event hpaint]
      exact hbefore

/-- Whatever is played, the hits on each tank and the bullets that still fly come to the shots fired
at most, the walls that are gone and the bullets that still fly, times four, to four times the
shots, and no game is over before fifteen of them. Up to fifty million shots the score is
conserved. -/
theorem run_shots (level : Level) (events : List Event) :
    let panel := (game trig).run (.new level) events
    let fired := shotsFired trig (.new level) events
    (∀ t, (panel.player t).hits + flying panel.animations ≤ fired) ∧
      destroyed level panel.breakableWall + 4 * flying panel.animations ≤ 4 * fired ∧
      (∀ t, (panel.player t).endGame = true → 15 ≤ fired) ∧
      (fired ≤ 53687092 → ScoreConserved panel.player) := by
  intro panel fired
  have hpaid : Paid level fired panel := run_paid trig level events
  have hcharged : ∀ t, (panel.player t).account.Charged (panel.player t).endGame := by
    refine (charged_kept trig).run trig (fun t => ?_) events
    have hplays : ((AnimationPanel.new level).player t).endGame = false := by
      cases t <;> rfl
    rw [account_new, hplays]
    exact ⟨fun hend => absurd hend Bool.false_ne_true, fun _ => by decide, fun _ => by decide⟩
  refine ⟨hpaid.hits, hpaid.walls, fun t hend => ?_, run_scoreConserved trig level events⟩
  have hcost := (hcharged t).ended hend
  have hhits := hpaid.hits t
  change 15 ≤ (panel.player t).hits at hcost
  omega

end Moves

end Coursework.TankGame
