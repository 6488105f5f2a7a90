import Coursework.Java.Radix
import Coursework.TankGame.Graphics

/-!
# Keeping score

A scoreboard has an account for each player. A hit costs health, and whoever brings the
opponent's health to nothing exactly earns points; lives are settled later, once for any
number of hits. As long as health does not leave the range of `int` in between, a life lost
and points earned go together.
-/

namespace Coursework.TankGame

open Java

/-- The account of a player, with the number of hits suffered so far. -/
@[ext]
structure Account where
  health : Int32
  lives : Int32
  point : Int32
  hits : ℕ

/-- The accounts of both players. -/
abbrev Scoreboard := Tank → Account

/-- A tank is hit: the opponent earns points if that leaves no health. -/
def Scoreboard.hit (board : Scoreboard) (t : Tank) : Scoreboard := fun u =>
  if u = t then { board u with health := (board u).health - 40, hits := (board u).hits + 1 }
  else if (board t).health - 40 = 0 then { board u with point := (board u).point + 10 }
  else board u

/-- A player without health loses a life for full health. -/
def Account.settle (account : Account) : Account :=
  if 0 < account.health then account
  else { account with lives := account.lives - 1, health := 200 }

/-- All accounts are settled. -/
def Scoreboard.settle (board : Scoreboard) : Scoreboard := fun t => (board t).settle

/-- Health is one of its five values, and the points are those for the lives the opponent has
lost. -/
def Scoreboard.Settled (board : Scoreboard) : Prop :=
  ∀ t, (board t).health ∈ ([40, 80, 120, 160, 200] : List Int32) ∧
    (board t).point = 10 * (3 - (board t.other).lives)

/-- The five values of health as multiples of the cost of a hit. -/
theorem mem_health_iff (health : Int32) :
    health ∈ ([40, 80, 120, 160, 200] : List Int32) ↔
      ∃ m : ℤ, 1 ≤ m ∧ m ≤ 5 ∧ health.toInt = 40 * m := by
  constructor
  · intro h
    simp only [List.mem_cons, List.not_mem_nil, or_false] at h
    rcases h with rfl | rfl | rfl | rfl | rfl
    · exact ⟨1, by decide⟩
    · exact ⟨2, by decide⟩
    · exact ⟨3, by decide⟩
    · exact ⟨4, by decide⟩
    · exact ⟨5, by decide⟩
  · rintro ⟨m, hlow, hhigh, hhealth⟩
    simp only [List.mem_cons, List.not_mem_nil, or_false, ← Int32.toInt_inj, hhealth]
    rcases (by omega : m = 1 ∨ m = 2 ∨ m = 3 ∨ m = 4 ∨ m = 5) with rfl | rfl | rfl | rfl | rfl <;>
      decide

/-- The account of the tank that is hit. -/
theorem Scoreboard.hit_self (board : Scoreboard) (t : Tank) :
    board.hit t t =
      { board t with health := (board t).health - 40, hits := (board t).hits + 1 } :=
  if_pos rfl

/-- The account of the opponent of the tank that is hit. -/
theorem Scoreboard.hit_other (board : Scoreboard) (t : Tank) :
    board.hit t t.other =
      if (board t).health - 40 = 0 then
        { board t.other with point := (board t.other).point + 10 }
      else board t.other :=
  if_neg t.other_ne

/-- Hits are counted. -/
theorem Scoreboard.foldl_hit_hits (board : Scoreboard) (ts : List Tank) (t : Tank) :
    (ts.foldl Scoreboard.hit board t).hits = (board t).hits + ts.count t := by
  induction ts generalizing board with
  | nil => rfl
  | cons u rest ih =>
    rw [List.foldl_cons, ih, List.count_cons]
    obtain rfl | rfl := t.eq_or_eq_other u
    · rw [Scoreboard.hit_self, beq_self_eq_true, if_pos rfl]
      exact Nat.succ_add_eq_add_succ _ _
    · have hhits : (board.hit t.other t).hits = (board t).hits := by
        have hother := board.hit_other t.other
        rw [t.other_other] at hother
        rw [hother]
        split <;> rfl
      rw [hhits, if_neg (by rw [beq_iff_eq]; exact t.other_ne), Nat.add_zero]

/-- Between two settlements: lives wait, and health and points follow the hits since the start, as
long as health stays within the range of `int`. -/
structure Frame (start board : Scoreboard) : Prop where
  hits_le : ∀ t, (start t).hits ≤ (board t).hits
  lives : ∀ t, (board t).lives = (start t).lives
  account : ∀ t,
    -2 ^ 31 ≤ (start t).health.toInt - 40 * ((board t).hits - (start t).hits : ℤ) →
      (board t).health.toInt = (start t).health.toInt - 40 * ((board t).hits - (start t).hits) ∧
        (board t.other).point = (start t.other).point +
          if (start t).health.toInt ≤ 40 * ((board t).hits - (start t).hits : ℤ) then 10 else 0

/-- A frame starts without hits. -/
theorem Frame.refl {start : Scoreboard} (hstart : start.Settled) : Frame start start where
  hits_le := fun _ => Nat.le_refl _
  lives := fun _ => rfl
  account := by
    intro t _
    obtain ⟨m, hlow, -, hhealth⟩ := (mem_health_iff _).mp (hstart t).1
    refine ⟨by omega, ?_⟩
    rw [if_neg (by omega)]
    exact (Int32.add_zero _).symm

/-- A hit costs the health of the frame one more share. -/
theorem Frame.toInt_health_sub {start board : Scoreboard} (hstart : start.Settled)
    (h : Frame start board) (t : Tank)
    (hrange : -2 ^ 31 ≤
      (start t).health.toInt - 40 * (((board t).hits + 1 : ℕ) - (start t).hits : ℤ)) :
    ((board t).health - 40).toInt =
      (start t).health.toInt - 40 * (((board t).hits + 1 : ℕ) - (start t).hits : ℤ) := by
  obtain ⟨m, -, hhigh, hm⟩ := (mem_health_iff _).mp (hstart t).1
  have hhits := h.hits_le t
  have hhealth := (h.account t (by omega)).1
  have hcost : (40 : Int32).toInt = 40 := rfl
  rw [toInt_sub_of_bounds _ _ (by omega) (by omega)]
  omega

/-- The points of the opponent follow a hit: the award comes with the hit that uses up the health. -/
theorem Frame.point_hit_other {start board : Scoreboard} (hstart : start.Settled)
    (h : Frame start board) (t : Tank)
    (hrange : -2 ^ 31 ≤
      (start t).health.toInt - 40 * (((board t).hits + 1 : ℕ) - (start t).hits : ℤ)) :
    (board.hit t t.other).point = (start t.other).point +
      if (start t).health.toInt ≤ 40 * (((board t).hits + 1 : ℕ) - (start t).hits : ℤ)
      then 10 else 0 := by
  obtain ⟨m, hlow, -, hm⟩ := (mem_health_iff _).mp (hstart t).1
  have hhits := h.hits_le t
  have hpoint := (h.account t (by omega)).2
  have hzero : (board t).health - 40 = 0 ↔
      (start t).health.toInt = 40 * (((board t).hits + 1 : ℕ) - (start t).hits : ℤ) := by
    rw [← Int32.toInt_inj, h.toInt_health_sub hstart t hrange, Int32.toInt_zero]
    omega
  rw [Scoreboard.hit_other]
  by_cases haward : (board t).health - 40 = 0
  · have hlast := hzero.mp haward
    rw [if_pos haward, if_pos hlast.le]
    change (board t.other).point + 10 = _
    rw [hpoint, if_neg (by omega), Int32.add_zero]
  · have hlast := mt hzero.mpr haward
    rw [if_neg haward, hpoint]
    congr 1
    refine if_congr ?_ rfl rfl
    omega

/-- A hit stays in the frame. -/
theorem Frame.hit {start board : Scoreboard} (hstart : start.Settled) (h : Frame start board)
    (t : Tank) : Frame start (board.hit t) where
  hits_le := by
    intro u
    obtain rfl | rfl := t.eq_or_eq_other u
    · rw [Scoreboard.hit_self]
      exact (h.hits_le u).trans (Nat.le_succ _)
    · rw [Scoreboard.hit_other]
      split <;> exact h.hits_le _
  lives := by
    intro u
    obtain rfl | rfl := t.eq_or_eq_other u
    · rw [Scoreboard.hit_self]
      exact h.lives u
    · rw [Scoreboard.hit_other]
      split <;> exact h.lives _
  account := by
    intro u hrange
    obtain rfl | rfl := t.eq_or_eq_other u
    · rw [Scoreboard.hit_self] at hrange ⊢
      exact ⟨h.toInt_health_sub hstart u hrange, h.point_hit_other hstart u hrange⟩
    · have hhits : (board.hit t t.other).hits = (board t.other).hits := by
        rw [Scoreboard.hit_other]
        split <;> rfl
      have hhealth : (board.hit t t.other).health = (board t.other).health := by
        rw [Scoreboard.hit_other]
        split <;> rfl
      rw [hhits] at hrange ⊢
      rw [hhealth, t.other_other, Scoreboard.hit_self]
      have haccount := h.account t.other hrange
      rw [t.other_other] at haccount
      exact haccount

/-- Any number of hits stays in the frame. -/
theorem Frame.foldl_hit {start board : Scoreboard} (hstart : start.Settled)
    (h : Frame start board) (ts : List Tank) : Frame start (ts.foldl Scoreboard.hit board) := by
  induction ts generalizing board with
  | nil => exact h
  | cons t rest ih => exact ih (h.hit hstart t)

/-- Health is positive as an `int` if its value is. -/
theorem health_pos_iff (health : Int32) : 0 < health ↔ 0 < health.toInt :=
  Int32.lt_iff_toInt_lt

/-- A settlement gives health one of its five values. -/
theorem Frame.settle_health {start board : Scoreboard} (hstart : start.Settled)
    (h : Frame start board) (t : Tank)
    (hrange : -2 ^ 31 ≤ (start t).health.toInt - 40 * ((board t).hits - (start t).hits : ℤ)) :
    (board.settle t).health ∈ ([40, 80, 120, 160, 200] : List Int32) := by
  obtain ⟨m, -, hhigh, hm⟩ := (mem_health_iff _).mp (hstart t).1
  have hhealth := (h.account t hrange).1
  have hhits := h.hits_le t
  change (board t).settle.health ∈ _
  rw [Account.settle]
  split
  · rename_i hpos
    rw [health_pos_iff] at hpos
    exact (mem_health_iff _).mpr ⟨m - ((board t).hits - (start t).hits), by omega⟩
  · exact (mem_health_iff _).mpr ⟨5, by omega, by omega, rfl⟩

/-- A settlement takes a life exactly from the player whose opponent earned points. -/
theorem Frame.settle_point {start board : Scoreboard} (hstart : start.Settled)
    (h : Frame start board) (t : Tank)
    (hrange : -2 ^ 31 ≤ (start t).health.toInt - 40 * ((board t).hits - (start t).hits : ℤ)) :
    (board t.other).point = 10 * (3 - (board.settle t).lives) := by
  obtain ⟨hhealth, hpoint⟩ := h.account t hrange
  have hbefore := (hstart t.other).2
  rw [t.other_other] at hbefore
  rw [hpoint, hbefore]
  change _ = 10 * (3 - (board t).settle.lives)
  rw [Account.settle]
  by_cases hpos : 0 < (board t).health
  · have hvalue := (health_pos_iff _).mp hpos
    rw [if_pos hpos, h.lives, if_neg (by omega), Int32.add_zero]
  · have hvalue := mt (health_pos_iff _).mpr hpos
    rw [if_neg hpos, if_pos (by omega)]
    change _ = 10 * (3 - ((board t).lives - 1))
    rw [h.lives]
    grind

/-- A settlement at the end of a frame restores the score. -/
theorem Frame.settle {start board : Scoreboard} (hstart : start.Settled) (h : Frame start board)
    (hrange : ∀ t,
      -2 ^ 31 ≤ (start t).health.toInt - 40 * ((board t).hits - (start t).hits : ℤ)) :
    board.settle.Settled := by
  intro t
  refine ⟨h.settle_health hstart t (hrange t), ?_⟩
  have hpoint := h.settle_point hstart t.other (hrange t.other)
  rw [t.other_other] at hpoint
  rw [← hpoint, Scoreboard.settle, Account.settle]
  split <;> rfl

end Coursework.TankGame
