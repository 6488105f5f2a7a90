import Coursework.TankGame.KeyboardPanel
import Coursework.TankGame.Scoreboard

/-!
# The score of a game

The game refines the scoreboard: a paint hits tanks in some order and settles the accounts,
and nothing else touches them.
-/

namespace Coursework.TankGame

open Transition

/-- The account of a player. -/
def Players.account (player : Players) : Account :=
  ⟨player.health, player.lives, player.point, player.hits⟩

/-- The scoreboard of a panel. -/
def AnimationPanel.scoreboard (panel : AnimationPanel) : Scoreboard := fun t =>
  (panel.player t).account

/-- A replaced player is a replaced account. -/
theorem AnimationPanel.setPlayer_scoreboard (panel : AnimationPanel) (t : Tank) (player : Players) :
    (panel.setPlayer t player).scoreboard = Function.update panel.scoreboard t player.account :=
  Function.comp_update Players.account panel.player t player

/-- A new place of a tank is not an entry of an account. -/
theorem AnimationPanel.setInitPosition_scoreboard (panel : AnimationPanel) (t : Tank) :
    (panel.setInitPosition t).scoreboard = panel.scoreboard := by
  let place := (panel.player t).initPosition panel.breakableWall
  change (panel.setPlayer t
    { panel.player t with tankX := place.1, tankY := place.2 }).scoreboard = _
  rw [AnimationPanel.setPlayer_scoreboard]
  exact Function.update_eq_self t panel.scoreboard

/-- A hit on a tank of the panel is one on the scoreboard. -/
theorem AnimationPanel.hit_scoreboard (panel : AnimationPanel) (t : Tank) :
    (panel.hit t).scoreboard = panel.scoreboard.hit t := by
  let struck := panel.setPlayer t (panel.player t).hitTank
  let awarded := struck.setPlayer t.other (struck.player t.other).earnPoint
  have hself : struck.player t = (panel.player t).hitTank := panel.setPlayer_player_self t _
  have hother : struck.player t.other = panel.player t.other := panel.setPlayer_player_other t _
  have hstruck : struck.scoreboard = Function.update panel.scoreboard t
      (panel.player t).hitTank.account := panel.setPlayer_scoreboard t _
  have hawarded : awarded.scoreboard = Function.update struck.scoreboard t.other
      (struck.player t.other).earnPoint.account := struck.setPlayer_scoreboard t.other _
  have hdie : (struck.player t).die = true ↔ (panel.scoreboard t).health - 40 = 0 := by
    rw [hself]
    exact beq_iff_eq
  rw [AnimationPanel.hit]
  change (if (struck.player t).die then
    ((awarded.explosion t).setInitPosition t).setTank t _ else struck).scoreboard = _
  funext u
  split
  · rename_i hdead
    change ((awarded.explosion t).setInitPosition t).scoreboard u = _
    rw [AnimationPanel.setInitPosition_scoreboard]
    change awarded.scoreboard u = _
    rw [hawarded]
    obtain rfl | rfl := t.eq_or_eq_other u
    · rw [Function.update_of_ne u.other_ne.symm, hstruck, Function.update_self,
        Scoreboard.hit_self]
      rfl
    · rw [Function.update_self, Scoreboard.hit_other, if_pos (hdie.mp hdead), hother]
      rfl
  · rename_i halive
    rw [hstruck]
    obtain rfl | rfl := t.eq_or_eq_other u
    · rw [Function.update_self, Scoreboard.hit_self]
      rfl
    · rw [Function.update_of_ne t.other_ne, Scoreboard.hit_other, if_neg (mt hdie.mpr halive)]

/-- So are several hits. -/
theorem AnimationPanel.foldl_hit_scoreboard (panel : AnimationPanel) (ts : List Tank) :
    (ts.foldl AnimationPanel.hit panel).scoreboard = ts.foldl Scoreboard.hit panel.scoreboard := by
  induction ts generalizing panel with
  | nil => rfl
  | cons t rest ih => rw [List.foldl_cons, ih, AnimationPanel.hit_scoreboard, List.foldl_cons]

/-- Painted health is settled: the three colours cover all positive values. -/
theorem Players.paintHealth_account (player : Players) :
    player.paintHealth.account = player.account.settle := by
  have hgreen : (120 : Int32).toInt = 120 := rfl
  have hyellow : (40 : Int32).toInt = 40 := rfl
  have hred : (0 : Int32).toInt = 0 := rfl
  rw [Players.paintHealth, Account.settle]
  simp only [Players.account, gt_iff_lt, Int32.lt_iff_toInt_lt, Int32.le_iff_toInt_le]
  split_ifs <;> first | rfl | omega

/-- Painted lives leave the account alone. -/
theorem Players.paintLives_account (player : Players) :
    player.paintLives.account = player.account := by
  rw [Players.paintLives]
  split <;> rfl

/-- A bullet in contact with no tank strikes none. -/
theorem BulletAnimation.struck_eq_nil (bullet : BulletAnimation) (panel : AnimationPanel)
    (h : ¬bullet.collisionToTank panel = true) : bullet.struck panel = [] := by
  rw [BulletAnimation.collisionToTank, Bool.or_eq_true, not_or] at h
  refine List.filter_eq_nil_iff.mpr ?_
  intro t ht
  rcases List.mem_pair.mp ht with rfl | rfl
  · exact h.1
  · exact h.2

/-- The tank test hits the tanks that the bullet touches. -/
theorem AnimationPanel.meetTank_scoreboard (panel : AnimationPanel) (bullet : BulletAnimation) :
    (panel.meetTank bullet).1.scoreboard =
      (bullet.struck panel).foldl Scoreboard.hit panel.scoreboard := by
  rw [AnimationPanel.meetTank]
  split
  · exact panel.foldl_hit_scoreboard _
  · rename_i hnone
    rw [bullet.struck_eq_nil panel hnone]
    rfl

/-- The wall test leaves the tanks and the place of the bullet alone. -/
theorem AnimationPanel.meetWall_struck (panel : AnimationPanel) (bullet : BulletAnimation) :
    (panel.meetWall bullet).2.struck (panel.meetWall bullet).1 = bullet.struck panel := by
  rw [AnimationPanel.meetWall]
  split <;> rfl

/-- The wall test leaves the players alone. -/
theorem AnimationPanel.meetWall_scoreboard (panel : AnimationPanel) (bullet : BulletAnimation) :
    (panel.meetWall bullet).1.scoreboard = panel.scoreboard := by
  rw [AnimationPanel.meetWall]
  split <;> rfl

section Moves

variable (trig : Trigonometry)

/-- A live bullet hits the tanks that it touches once it has moved. -/
theorem AnimationPanel.repaintBullet_scoreboard (panel : AnimationPanel)
    (bullet : BulletAnimation) (hlive : bullet.stop = false) :
    (panel.repaintBullet trig bullet).1.scoreboard =
      ((bullet.forwardMove trig).struck panel).foldl Scoreboard.hit panel.scoreboard := by
  rw [AnimationPanel.repaintBullet, hlive, if_neg Bool.false_ne_true]
  change ((panel.meetWall (bullet.forwardMove trig)).1.meetTank
    (panel.meetWall (bullet.forwardMove trig)).2).1.scoreboard = _
  rw [AnimationPanel.meetTank_scoreboard, AnimationPanel.meetWall_struck,
    AnimationPanel.meetWall_scoreboard]

/-- A live animation that is repainted hits some of the tanks, each at most once. -/
theorem AnimationPanel.repaintAt_scoreboard (panel : AnimationPanel) (counter : ℕ)
    (animation : PanelAnimation) (hlive : ¬animation.isStopped = true) :
    ∃ ts : List Tank, ts.Nodup ∧ (panel.repaintAt trig counter animation).scoreboard =
      ts.foldl Scoreboard.hit panel.scoreboard := by
  cases animation with
  | plain animation => exact ⟨[], List.nodup_nil, rfl⟩
  | shot bullet =>
    refine ⟨(bullet.forwardMove trig).struck panel, ?_, ?_⟩
    · refine List.Nodup.filter _ ?_
      exact List.nodup_cons.mpr
        ⟨fun h => bullet.tank.other_ne (List.mem_singleton.mp h).symm, List.nodup_singleton _⟩
    · exact panel.repaintBullet_scoreboard trig bullet (Bool.eq_false_iff.mpr hlive)

/-- The loop over the animations hits tanks in some order, none more often than it has turns. -/
theorem AnimationPanel.paintLoop_scoreboard (panel : AnimationPanel) (counter : ℕ) :
    ∃ ts : List Tank, (∀ t, ts.count t ≤ turns (panel.animations.drop counter)) ∧
      (panel.paintLoop trig counter).scoreboard = ts.foldl Scoreboard.hit panel.scoreboard := by
  induction panel, counter using AnimationPanel.paintLoop.induct trig with
  | case1 panel counter h animation hstopped ih =>
    obtain ⟨ts, hcount, hts⟩ := ih
    refine ⟨ts, ?_, ?_⟩
    · intro t
      exact (hcount t).trans (turns_eraseIdx_lt _ _ h).le
    · rw [AnimationPanel.paintLoop, dif_pos h, if_pos hstopped, hts]
      rfl
  | case2 panel counter h animation hlive ih =>
    obtain ⟨first, honce, hfirst⟩ := panel.repaintAt_scoreboard trig counter animation hlive
    obtain ⟨later, hcount, hlater⟩ := ih
    refine ⟨first ++ later, ?_, ?_⟩
    · intro t
      have hturn := panel.turns_repaintAt_lt trig counter h
      have hone := List.nodup_iff_count_le_one.mp honce t
      have hrest := hcount t
      rw [List.count_append]
      exact (Nat.add_le_add hone hrest).trans (Nat.one_add _ ▸ hturn)
    · rw [AnimationPanel.paintLoop, dif_pos h, if_neg hlive, hlater, hfirst, List.foldl_append]
  | case3 panel counter h =>
    refine ⟨[], fun t => Nat.zero_le _, ?_⟩
    rw [AnimationPanel.paintLoop, dif_neg h]
    rfl

/-- A paint settles the accounts as the loop leaves them. -/
theorem AnimationPanel.paintComponent_scoreboard (panel : AnimationPanel) :
    (panel.paintComponent trig).scoreboard = (panel.paintLoop trig 0).scoreboard.settle := by
  funext t
  change ((panel.paintLoop trig 0).player t).paintHealth.paintLives.account = _
  rw [Players.paintLives_account, Players.paintHealth_account]
  rfl

/-- A tick leaves the players alone. -/
theorem AnimationPanel.tick_player (panel : AnimationPanel) :
    (panel.tick trig).player = panel.player := by
  have hmove : ∀ (moving : AnimationPanel) (t : Tank) (next : TankObject → TankObject),
      moving.player = panel.player → (moving.move t next).player = panel.player := by
    intro moving t next h
    rw [AnimationPanel.move]
    split <;> exact h
  refine AnimationPanel.tick_keeps (P := fun next => next.player = panel.player) trig rfl ?_ ?_ ?_ ?_ ?_
  · exact fun _ _ h => h
  · exact fun _ _ h => h
  · exact fun moving t h => hmove moving t _ h
  · exact fun moving t h => hmove moving t _ h
  · exact fun _ _ h => h

/-- Keys and ticks leave the scoreboard alone. -/
theorem AnimationPanel.step_scoreboard (panel : AnimationPanel) (event : Event)
    (h : event ≠ .paint) : (panel.step trig event).scoreboard = panel.scoreboard := by
  cases event with
  | keyPressed t control => rfl
  | keyReleased t control => rfl
  | tick => exact congrArg (fun player t => (player t).account) (panel.tick_player trig)
  | paint => exact absurd rfl h

end Moves

end Coursework.TankGame
