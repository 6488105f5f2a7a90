import Coursework.TankGame.Volley

/-!
# Conservation of the score

Lives lost and points earned agree after every paint of a run in which no paint takes health
below the least `int`. A volley that is long enough does take it there.
-/

namespace Coursework.TankGame

open Transition

section Moves

variable (trig : Trigonometry)

/-- A paint of the panel now takes no health below the least `int`. -/
def AnimationPanel.HealthInRange (panel : AnimationPanel) : Prop :=
  ∀ t, -2 ^ 31 ≤ (panel.player t).health.toInt -
    40 * (((panel.paintComponent trig).player t).hits - (panel.player t).hits : ℤ)

/-- Each player's health has one of its five values, and the points are ten for each life that the other
player has lost. -/
def ScoreConserved (player : Tank → Players) : Prop :=
  ∀ t, (player t).health ∈ ([40, 80, 120, 160, 200] : List Int32) ∧
    (player t).point = 10 * (3 - (player t.other).lives)

/-- The score before the first hit. -/
theorem settled_start : Scoreboard.Settled fun _ => ⟨200, 3, 0, 0⟩ := by
  intro t
  change (200 : Int32) ∈ _ ∧ (0 : Int32) = 10 * (3 - 3)
  decide

/-- The score is settled before the first hit. -/
theorem scoreConserved_of_account (player : Tank → Players)
    (h : ∀ t, (player t).account = ⟨200, 3, 0, 0⟩) : ScoreConserved player := by
  have hboard : (fun t => (player t).account) = fun _ => ⟨200, 3, 0, 0⟩ := funext h
  change Scoreboard.Settled fun t => (player t).account
  rw [hboard]
  exact settled_start

/-- Play starts with full health and no points. -/
theorem scoreConserved_new (level : Level) : ScoreConserved (AnimationPanel.new level).player := by
  refine scoreConserved_of_account _ ?_
  intro t
  change (AnimationPanel.new level).scoreboard t = _
  rw [AnimationPanel.new, AnimationPanel.setInitPosition_scoreboard,
    AnimationPanel.setInitPosition_scoreboard]
  cases t <;> rfl

/-- A settlement keeps the number of hits. -/
theorem Account.settle_hits (account : Account) : account.settle.hits = account.hits := by
  rw [Account.settle]
  split <;> rfl

/-- A paint counts the hits of its loop. -/
theorem AnimationPanel.paintComponent_hits (panel : AnimationPanel) (t : Tank) :
    ((panel.paintComponent trig).player t).hits = ((panel.paintLoop trig 0).scoreboard t).hits := by
  change ((panel.paintComponent trig).scoreboard t).hits = _
  rw [AnimationPanel.paintComponent_scoreboard]
  exact Account.settle_hits _

/-- A paint conserves the score, unless health leaves its range. -/
theorem AnimationPanel.paintComponent_scoreConserved (panel : AnimationPanel)
    (h : ScoreConserved panel.player) (hrange : panel.HealthInRange trig) :
    ScoreConserved (panel.paintComponent trig).player := by
  have hstart : panel.scoreboard.Settled := h
  obtain ⟨ts, -, hloop⟩ := panel.paintLoop_scoreboard trig 0
  have hframe : Frame panel.scoreboard (panel.paintLoop trig 0).scoreboard := by
    rw [hloop]
    exact (Frame.refl hstart).foldl_hit hstart ts
  change (panel.paintComponent trig).scoreboard.Settled
  rw [AnimationPanel.paintComponent_scoreboard]
  refine hframe.settle hstart ?_
  intro t
  rw [← AnimationPanel.paintComponent_hits]
  exact hrange t

/-- A paint with fewer turns than it takes to leave the range of `int` is harmless. -/
theorem AnimationPanel.healthInRange_of_turns_le (panel : AnimationPanel)
    (h : ScoreConserved panel.player) (hturns : turns panel.animations ≤ 53687092) :
    panel.HealthInRange trig := by
  intro t
  obtain ⟨m, hlow, -, hm⟩ := (mem_health_iff _).mp (h t).1
  obtain ⟨ts, hcount, hloop⟩ := panel.paintLoop_scoreboard trig 0
  have hhits := Scoreboard.foldl_hit_hits panel.scoreboard ts t
  have hbound := hcount t
  rw [List.drop_zero] at hbound
  rw [AnimationPanel.paintComponent_hits, hloop, hhits, hm]
  change (_ : ℤ) ≤ _ - 40 * (((panel.player t).hits + ts.count t : ℕ) - (panel.player t).hits : ℤ)
  omega

/-- In every run in which no paint takes health below the least `int`, the score is conserved. -/
theorem scoreConserved_run (level : Level) (events : List Event)
    (hrange : ∀ front rest, events = front ++ .paint :: rest →
      ((game trig).run (.new level) front).HealthInRange trig) :
    ScoreConserved ((game trig).run (.new level) events).player := by
  induction events using List.reverseRecOn with
  | nil => exact scoreConserved_new level
  | append_singleton earlier event ih =>
    have hbefore := ih (by
      rintro front rest rfl
      exact hrange front (rest ++ [event]) (by rw [List.append_assoc, List.cons_append]))
    rw [TotalMachine.run_append_singleton]
    by_cases hpaint : event = .paint
    · subst hpaint
      exact AnimationPanel.paintComponent_scoreConserved trig _ hbefore (hrange earlier [] rfl)
    · change (AnimationPanel.step trig _ event).scoreboard.Settled
      rw [AnimationPanel.step_scoreboard trig _ event hpaint]
      exact hbefore

end Moves

/-- A list without a paint that is followed by one ends where the paint is. -/
theorem eq_of_append_paint {before front rest : List Event} (hbefore : Event.paint ∉ before)
    (h : before ++ [.paint] = front ++ .paint :: rest) : front = before := by
  rcases List.append_eq_append_iff.mp h with ⟨middle, hfront, hpaint⟩ | ⟨middle, rfl, hpaint⟩
  · have hlength := congrArg List.length hpaint
    rw [List.length_append, List.length_singleton, List.length_cons] at hlength
    have hmiddle : middle = [] := List.length_eq_zero_iff.mp (by omega)
    rw [hfront, hmiddle, List.append_nil]
  · cases middle with
    | nil => exact (List.append_nil _).symm
    | cons event later =>
      obtain ⟨rfl, -⟩ := List.cons.inj hpaint
      exact absurd (List.mem_append_right _ List.mem_cons_self) hbefore

/-- There is no paint in a volley. -/
theorem paint_notMem_volley (n : ℕ) : Event.paint ∉ volley n := by
  intro h
  rcases List.mem_append.mp h with hkeys | hticks
  · exact absurd hkeys (by decide)
  · exact Event.noConfusion (List.eq_of_mem_replicate hticks)

/-- A volley of five shells kills the second tank once. -/
theorem scoreConserved_run_fiveShells :
    ScoreConserved
      ((game eastward).run (.new duel) (volley (4 + 1) ++ [.paint])).player := by
  refine scoreConserved_run eastward duel (volley (4 + 1) ++ [.paint]) ?_
  intro front rest h
  have hfiring := firing_succ 4
  rw [eq_of_append_paint (paint_notMem_volley _) h]
  refine AnimationPanel.healthInRange_of_turns_le eastward _ ?_ ?_
  · exact scoreConserved_of_account _ hfiring.account
  · rw [hfiring.animations]
    decide

/-- A volley that overflows health to a large value costs no life. -/
theorem not_scoreConserved_of_overflow (n : ℕ)
    (h : 200 < (200 - 40 * ((n + 1 : ℕ) : ℤ)).bmod (2 ^ 32)) :
    ¬ScoreConserved ((game eastward).run (.new duel) (volley (n + 1) ++ [.paint])).player := by
  intro hconserved
  let board := (List.replicate (n + 1) Tank.tank2).foldl Scoreboard.hit fun _ => ⟨200, 3, 0, 0⟩
  have hhealth : (board .tank2).health.toInt = (200 - 40 * ((n + 1 : ℕ) : ℤ)).bmod (2 ^ 32) :=
    toInt_health_foldl_hit _ _ _
  have hboard : ((game eastward).run (.new duel) (volley (n + 1) ++ [.paint])).scoreboard =
      board.settle := by
    rw [TotalMachine.run_append_singleton]
    change (AnimationPanel.paintComponent eastward _).scoreboard = _
    rw [AnimationPanel.paintComponent_scoreboard, volley_scoreboard]
  have hsettled : (board.settle .tank2).health = (board .tank2).health := by
    rw [Scoreboard.settle, Account.settle, if_pos ((health_pos_iff _).mpr (by omega))]
  have hmem := (hconserved .tank2).1
  change (AnimationPanel.scoreboard _ .tank2).health ∈ _ at hmem
  rw [hboard, hsettled] at hmem
  obtain ⟨m, -, hhigh, hm⟩ := (mem_health_iff _).mp hmem
  omega

/-- A longer volley overflows health, and the second tank keeps its life. -/
theorem not_scoreConserved_volley :
    ¬∀ (trig : Trigonometry) (level : Level) (events : List Event),
      ScoreConserved ((game trig).run (.new level) (events ++ [.paint])).player := by
  intro h
  refine not_scoreConserved_of_overflow 53687096 ?_ (h eastward duel (volley (53687096 + 1)))
  decide

end Coursework.TankGame
