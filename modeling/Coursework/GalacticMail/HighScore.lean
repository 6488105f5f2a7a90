import Coursework.GalacticMail.Levels
import Coursework.Ranking.Best

/-!
# The high scores

Every crash adds its score to the list of high scores, and every paint while the game is over
sorts the list and cuts it down to five. The loop that cuts it down removes one entry only, but
there never are more than six.
-/

namespace Coursework.GalacticMail

open Ranking
open TankGame (Trigonometry)
open Transition

instance : Std.Total higher := ⟨fun first second => Int32.le_total second first⟩

instance : IsTrans Int32 higher := ⟨fun _ _ _ hfirst hsecond => Int32.le_trans hsecond hfirst⟩

instance : Std.Antisymm higher := ⟨fun _ _ hfirst hsecond => Int32.le_antisymm hsecond hfirst⟩

/-- The sixth entry is removed. -/
theorem removeFrom_eq_take (size : ℕ) (scores : List Int32) (hlength : scores.length ≤ size + 1) :
    removeFrom size scores = scores.take size := by
  rw [removeFrom]
  split
  · rename_i hlast
    have herase : (scores.eraseIdx size).length = size := by
      rw [List.length_eraseIdx_of_lt hlast]
      omega
    rw [removeFrom, if_neg (by omega), List.eraseIdx_eq_take_drop_succ,
      List.drop_eq_nil_of_le hlength, List.append_nil]
  · rename_i hfew
    exact (List.take_of_length_le (Nat.le_of_not_lt hfew)).symm

/-- The best five of at most six entries are kept. -/
theorem highScore_eq (scores : List Int32) (hlength : scores.length ≤ 6) :
    highScore scores = best higher 5 scores := by
  have hsorted : (scores.insertionSort higher).length ≤ 5 + 1 :=
    (List.length_insertionSort higher scores).trans_le hlength
  rw [highScore, exchangeSort_eq]
  split
  · exact removeFrom_eq_take 5 _ hsorted
  · rename_i hfew
    exact (List.take_of_length_le (Nat.le_of_not_le hfew)).symm

/-- The score after the dock: a paint at the dock in a game is one with `setScore`. -/
def AnimationPanel.dockedScore (panel : AnimationPanel) : Int32 :=
  if panel.moonLanded = true ∧ panel.start = true then panel.paid else panel.curScore

/-- The ship is in flight once a paint has left the dock, and touches an asteroid and none of the
moons that are left. -/
def Crashes (panel : AnimationPanel) (draw : Draw) : Prop :=
  panel.initPosition = false ∧ panel.ship.landed = false ∧
    (panel.moonLanded = true → panel.moonCounter < panel.moonAnimations.length) ∧
    (∀ counter < panel.remaining, draw.touchesMoon counter = false) ∧
    ∃ counter < panel.asteroidAnimations.length, draw.touchesAsteroid counter = true

instance (panel : AnimationPanel) (draw : Draw) : Decidable (Crashes panel draw) :=
  inferInstanceAs (Decidable (_ ∧ _ ∧ _ ∧ _ ∧ _))

/-- The score at which the ship crashes in an event, if it does. -/
def AnimationPanel.crashScore (panel : AnimationPanel) : Event → List Int32
  | .paint draw => if Crashes panel draw then [panel.dockedScore] else []
  | .keyPressed _ | .keyReleased _ | .tick => []

/-- The scores at which ships crash in a run, in order. -/
def crashScores (trig : Trigonometry) : AnimationPanel → List Event → List Int32
  | _, [] => []
  | panel, event :: rest => panel.crashScore event ++ crashScores trig (panel.step trig event) rest

/-- The loop over the moons lands the ship in flight if it touches a moon. -/
theorem foldl_meetMoon_moonLanded (draw : Draw) (indices : List ℕ) (panel : AnimationPanel) :
    (indices.foldl (AnimationPanel.meetMoon draw) panel).moonLanded = true ↔
      panel.moonLanded = true ∨ ∃ counter ∈ indices, draw.touchesMoon counter = true := by
  induction indices generalizing panel with
  | nil => simp
  | cons counter rest ih =>
    rw [List.foldl_cons, ih, AnimationPanel.meetMoon, List.exists_mem_cons_iff]
    split
    · rename_i hmeet
      rw [Bool.and_eq_true] at hmeet
      exact iff_of_true (Or.inl rfl) (Or.inr (Or.inl hmeet.1))
    · rename_i hmeet
      rw [Bool.and_eq_true, Bool.not_eq_true'] at hmeet
      by_cases hlanded : panel.moonLanded = true
      · exact iff_of_true (Or.inl hlanded) (Or.inl hlanded)
      · have hmissed : ¬draw.touchesMoon counter = true := fun htouches =>
          hmeet ⟨htouches, Bool.eq_false_iff.mpr hlanded⟩
        rw [or_iff_right hmissed]

/-- The loop over the asteroids destroys the ship in flight if it touches an asteroid. -/
theorem foldl_meetAsteroid_destroy (draw : Draw) (indices : List ℕ) (panel : AnimationPanel) :
    (indices.foldl (AnimationPanel.meetAsteroid draw) panel).destroy = true ↔
      panel.destroy = true ∨ panel.moonLanded = false ∧ panel.ship.landed = false ∧
        ∃ counter ∈ indices, draw.touchesAsteroid counter = true := by
  induction indices generalizing panel with
  | nil => simp
  | cons counter rest ih =>
    rw [List.foldl_cons, ih, AnimationPanel.meetAsteroid, List.exists_mem_cons_iff]
    split
    · rename_i hmeet
      rw [Bool.and_eq_true, Bool.and_eq_true, Bool.not_eq_true', Bool.not_eq_true'] at hmeet
      exact iff_of_true (Or.inl rfl) (Or.inr ⟨hmeet.1.2, hmeet.2, Or.inl hmeet.1.1⟩)
    · rename_i hmeet
      rw [Bool.and_eq_true, Bool.and_eq_true, Bool.not_eq_true', Bool.not_eq_true'] at hmeet
      apply or_congr_right
      apply and_congr_right
      intro hflight
      apply and_congr_right
      intro hlanded
      have hmissed : ¬draw.touchesAsteroid counter = true := fun htouches =>
        hmeet ⟨⟨htouches, hflight⟩, hlanded⟩
      rw [or_iff_right hmissed]

/-- The score after the dock. -/
theorem AnimationPanel.dock_curScore {panel docked : AnimationPanel}
    (hdock : panel.dock = some docked) : docked.curScore = panel.dockedScore := by
  rw [AnimationPanel.dock] at hdock
  rw [AnimationPanel.dockedScore]
  split at hdock
  · rename_i hlanded
    obtain ⟨moon, -, rfl⟩ := Option.map_eq_some_iff.mp hdock
    have hlaunch : ∀ panel : AnimationPanel, panel.launch.curScore = panel.curScore := by
      intro panel
      rw [AnimationPanel.launch]
      split <;> rfl
    rw [AnimationPanel.dockAt, hlaunch, AnimationPanel.stay]
    by_cases hstart : panel.start = true
    · have hplaced : (panel.setShip (panel.ship.place moon.x moon.y)).start = true := hstart
      rw [if_pos hplaced, if_pos ⟨hlanded, hstart⟩, AnimationPanel.setScore_eq]
      rfl
    · have hplaced : ¬(panel.setShip (panel.ship.place moon.x moon.y)).start = true := hstart
      rw [if_neg hplaced, if_neg fun h => hstart h.2]
      rfl
  · rename_i hflight
    obtain rfl := Option.some.inj hdock
    rw [if_neg fun h => hflight h.1]

section Moves

variable (trig : Trigonometry)

/-- The ship is destroyed in the loops if it is in flight and touches an asteroid and no moon. -/
theorem AnimationPanel.painted_destroy (panel : AnimationPanel) (draw : Draw) :
    (panel.painted trig draw).destroy = true ↔
      panel.destroy = true ∨ panel.moonLanded = false ∧ panel.ship.landed = false ∧
        (∀ counter < panel.moonAnimations.length, draw.touchesMoon counter = false) ∧
        ∃ counter < panel.asteroidAnimations.length, draw.touchesAsteroid counter = true := by
  have hdestroy : (panel.painted trig draw).destroy = true ↔ _ :=
    foldl_meetAsteroid_destroy draw
      (List.range (panel.paintMoons trig draw).asteroidAnimations.length)
      (panel.paintMoons trig draw)
  have hlanded : (panel.paintMoons trig draw).moonLanded = true ↔ _ :=
    foldl_meetMoon_moonLanded draw (List.range panel.moonAnimations.length) panel
  rw [hdestroy]
  simp only [List.mem_range] at hlanded ⊢
  rcases panel.paintMoons_eq trig draw with hsame | ⟨hflight, counter, hcounter, hland⟩
  · rw [hsame] at hlanded ⊢
    apply or_congr_right
    constructor
    · rintro ⟨hflight, hship, hasteroid⟩
      refine ⟨hflight, hship, fun counter hcounter => ?_, hasteroid⟩
      by_contra htouches
      have hmoon := hlanded.mpr (Or.inr ⟨counter, hcounter, Bool.not_eq_false _ ▸ htouches⟩)
      exact Bool.false_ne_true (hflight.symm.trans hmoon)
    · rintro ⟨hflight, hship, -, hasteroid⟩
      exact ⟨hflight, hship, hasteroid⟩
  · rw [hland] at hlanded ⊢
    apply or_congr_right
    constructor
    · rintro ⟨hmoon, -⟩
      exact absurd hmoon.symm Bool.false_ne_true
    · rintro ⟨-, -, hmissed, -⟩
      obtain ⟨touched, htouched, htouches⟩ := (hlanded.mp rfl).resolve_left
        fun h => Bool.false_ne_true (hflight.symm.trans h)
      exact absurd ((hmissed touched htouched).symm.trans htouches) Bool.false_ne_true

/-- The loops leave the scores alone. -/
theorem AnimationPanel.painted_scores (panel : AnimationPanel) (draw : Draw) :
    (panel.painted trig draw).scoreDataList = panel.scoreDataList ∧
      (panel.painted trig draw).curScore = panel.curScore := by
  obtain ⟨destroy, hpaint, -⟩ := (panel.paintMoons trig draw).paintAsteroids_eq trig draw
  rw [AnimationPanel.painted, hpaint]
  rcases panel.paintMoons_eq trig draw with hsame | ⟨-, counter, -, hland⟩
  · rw [hsame]
    exact ⟨rfl, rfl⟩
  · rw [hland]
    exact ⟨rfl, rfl⟩

/-- The next level and the flight leave the scores alone. -/
theorem AnimationPanel.left_levelUp (panel : AnimationPanel) (draw : Draw) :
    (AnimationPanel.left ((panel.levelUp draw).map (AnimationPanel.fly trig))).scoreDataList =
        panel.scoreDataList ∧
      (AnimationPanel.left ((panel.levelUp draw).map (AnimationPanel.fly trig))).died =
        panel.died := by
  rw [AnimationPanel.levelUp]
  split
  · rw [AnimationPanel.nextLevel]
    split <;> exact ⟨rfl, rfl⟩
  · exact ⟨rfl, rfl⟩

/-- After the loops the ship is destroyed exactly if it crashes. -/
theorem Round.painted_destroy {panel docked : AnimationPanel} (h : Round panel) (draw : Draw)
    (hdock : (panel.fill draw).init.dock = some docked) :
    (docked.painted trig draw).destroy = true ↔ Crashes panel draw := by
  have hdocking := (panel.fill draw).init.docking docked hdock
  have hlandedShip : (panel.fill draw).init.ship.landed = true → panel.initPosition = true →
      (panel.fill draw).init.destroy = false →
        ((docked.painted trig draw).destroy = true ↔ Crashes panel draw) := by
    intro hlanded hinit hwhole
    rw [docked.painted_destroy trig draw, hdocking.destroy, hdocking.landed, hwhole, hlanded]
    refine iff_of_false ?_ fun hcrash => Bool.false_ne_true (hcrash.1.symm.trans hinit)
    rintro (hdestroy | ⟨-, hflight, -⟩)
    · exact Bool.false_ne_true hdestroy
    · exact Bool.false_ne_true hflight.symm
  rcases h with hcleared | ⟨hstocked, halive⟩
  · apply hlandedShip
    · rw [hcleared.fill_eq draw]
      rfl
    · exact hcleared.initPosition
    · rw [hcleared.fill_eq draw]
      exact hcleared.destroy
  · rw [hstocked.fill_eq draw] at hlandedShip hdocking
    by_cases hinit : panel.initPosition = true
    · rw [AnimationPanel.init, if_pos hinit] at hlandedShip
      exact hlandedShip rfl hinit halive.destroy
    · have hnotInit : panel.initPosition = false := Bool.eq_false_iff.mpr hinit
      rw [AnimationPanel.init, if_neg hinit] at hdocking
      rw [docked.painted_destroy trig draw, hdocking.destroy, hdocking.landed, hdocking.moons,
        hdocking.asteroids, halive.destroy, Crashes, hnotInit]
      constructor
      · rintro (hdestroy | ⟨-, hflight, hmoons, hasteroid⟩)
        · exact absurd hdestroy Bool.false_ne_true
        · exact ⟨rfl, hflight, hdocking.moon, hmoons, hasteroid⟩
      · rintro ⟨-, hflight, -, hmoons, hasteroid⟩
        exact Or.inr ⟨hdocking.flight hflight, hflight, hmoons, hasteroid⟩

/-- A paint that finds no moon at the dock finds no ship in flight. -/
theorem Round.not_crashes_of_dock {panel : AnimationPanel} (h : Round panel) (draw : Draw)
    (hdock : (panel.fill draw).init.dock = none) : ¬Crashes panel draw := by
  rintro ⟨hinit, -, hmoon, -⟩
  rcases h with hcleared | ⟨hstocked, -⟩
  · exact Bool.false_ne_true (hinit.symm.trans hcleared.initPosition)
  · rw [hstocked.fill_eq draw, AnimationPanel.init, hinit, if_neg Bool.false_ne_true] at hdock
    obtain ⟨docked, hdocked⟩ := panel.exists_dock hmoon
    cases hdock.symm.trans hdocked

/-- A ship crashes at the score that its game has after the dock. -/
theorem Crashes.painted_curScore {panel docked : AnimationPanel} {draw : Draw}
    (h : Crashes panel draw) (hdock : (panel.fill draw).init.dock = some docked) :
    (docked.painted trig draw).curScore = panel.dockedScore := by
  have hinit : (panel.fill draw).init = panel.fill draw := by
    rw [AnimationPanel.init]
    exact if_neg fun hinit => Bool.false_ne_true (h.1.symm.trans hinit)
  rw [(docked.painted_scores trig draw).2, AnimationPanel.dock_curScore hdock, hinit]
  rfl

/-- A paint ends the game if the ship crashes, and then adds the score at which it does. While the
game is over, it ranks the scores. -/
theorem Round.paint_scores {panel : AnimationPanel} (h : Round panel) (draw : Draw) :
    ((panel.step trig (.paint draw)).died = true ↔ panel.died = true ∨ Crashes panel draw) ∧
      (panel.step trig (.paint draw)).scoreDataList =
        if (panel.step trig (.paint draw)).died then
          highScore (panel.scoreDataList ++ panel.crashScore (.paint draw))
        else panel.scoreDataList := by
  obtain ⟨hready, hlist⟩ : (panel.fill draw).init.died = panel.died ∧
      (panel.fill draw).init.scoreDataList = panel.scoreDataList := by
    rw [AnimationPanel.init]
    split <;> exact ⟨rfl, rfl⟩
  cases hdock : (panel.fill draw).init.dock with
  | none =>
    have hnone : panel.step trig (.paint draw) = (panel.fill draw).init := by
      rw [AnimationPanel.step, AnimationPanel.paintComponent, hdock]
      rfl
    have hdied := (h.alive_of_dock draw hdock).died
    have hsafe := h.not_crashes_of_dock draw hdock
    rw [hnone, hlist, hdied, ← hready, hdied]
    exact ⟨iff_of_false Bool.false_ne_true (not_or.mpr ⟨Bool.false_ne_true, hsafe⟩), rfl⟩
  | some docked =>
    have hstep : panel.step trig (.paint draw) = AnimationPanel.left
        (((docked.painted trig draw).crash.reset.levelUp draw).map (AnimationPanel.fly trig)) := by
      rw [AnimationPanel.step, AnimationPanel.paintComponent, hdock]
      rfl
    have hdocking := (panel.fill draw).init.docking docked hdock
    have hscores : (docked.painted trig draw).scoreDataList = panel.scoreDataList :=
      (docked.painted_scores trig draw).1.trans (hdocking.scoreDataList.trans hlist)
    have hdied : (docked.painted trig draw).died = panel.died :=
      (docked.painted_eq trig draw).2.1.trans (hdocking.died.trans hready)
    have hdestroy := h.painted_destroy trig draw hdock
    obtain ⟨hkept, hover⟩ := (docked.painted trig draw).crash.reset.left_levelUp trig draw
    rw [hstep, hkept, hover]
    by_cases hcrash : Crashes panel draw
    · rw [AnimationPanel.crash, if_pos (hdestroy.mpr hcrash), AnimationPanel.reset, if_pos rfl,
        if_pos rfl, AnimationPanel.crashScore, if_pos hcrash]
      refine ⟨iff_of_true rfl (Or.inr hcrash), ?_⟩
      change highScore ((docked.painted trig draw).scoreDataList ++
        [(docked.painted trig draw).curScore]) = _
      rw [hscores, hcrash.painted_curScore trig hdock]
    · rw [AnimationPanel.crash, if_neg fun hdestroyed => hcrash (hdestroy.mp hdestroyed),
        AnimationPanel.reset, hdied, AnimationPanel.crashScore, if_neg hcrash, List.append_nil,
        or_iff_left hcrash]
      split
      · rename_i hbefore
        rw [hscores]
        exact ⟨Iff.rfl, rfl⟩
      · rename_i hbefore
        rw [hdied, hscores]
        exact ⟨Iff.rfl, (if_neg hbefore).symm⟩

end Moves

/-- The high scores are the best five of some scores. -/
def Ranked (scores : List Int32) (panel : AnimationPanel) : Prop :=
  panel.scoreDataList = best higher 5 scores

/-- A paint keeps the scores ranked, with the one that it adds. -/
theorem Ranked.paint {scores : List Int32} {panel : AnimationPanel} (trig : Trigonometry)
    (h : Ranked scores panel) (hround : Round panel) (draw : Draw) :
    Ranked (scores ++ panel.crashScore (.paint draw)) (panel.step trig (.paint draw)) := by
  obtain ⟨hdied, hscores⟩ := hround.paint_scores trig draw
  have hlength : (best higher 5 scores).length ≤ 5 := by
    rw [length_best]
    exact Nat.min_le_left _ _
  rw [Ranked, hscores, h]
  by_cases hcrash : Crashes panel draw
  · rw [if_pos (hdied.mpr (Or.inr hcrash)), AnimationPanel.crashScore, if_pos hcrash, highScore_eq,
      best_best_append]
    rw [List.length_append]
    exact Nat.succ_le_succ hlength
  · rw [AnimationPanel.crashScore, if_neg hcrash, List.append_nil, List.append_nil]
    split
    · rw [highScore_eq _ (Nat.le_succ_of_le hlength), best_best]
    · rfl

/-- The scores are ranked after every run, with those of its crashes. -/
theorem Ranked.run {scores : List Int32} {panel : AnimationPanel} (trig : Trigonometry)
    (h : Ranked scores panel) (hround : Round panel) (events : List Event) :
    Ranked (scores ++ crashScores trig panel events) ((game trig).run panel events) := by
  induction events generalizing scores panel with
  | nil =>
    rw [crashScores, List.append_nil]
    exact h
  | cons event rest ih =>
    rw [crashScores, ← List.append_assoc]
    cases event with
    | keyPressed key =>
      rw [AnimationPanel.crashScore, List.append_nil]
      exact ih h (hround.setKey key true)
    | keyReleased key =>
      rw [AnimationPanel.crashScore, List.append_nil]
      exact ih h (hround.setKey key false)
    | tick =>
      rw [AnimationPanel.crashScore, List.append_nil]
      refine ih ?_ hround.tick
      obtain ⟨ship, -, -, htick⟩ := panel.tick_eq
      change Ranked scores panel.tick
      rw [htick]
      split <;> exact h
    | paint draw => exact ih (h.paint trig hround draw) (hround.paint trig draw)

/-- While a game is over, no paint finds the ship in flight. -/
theorem crashScores_paints {panel : AnimationPanel} (trig : Trigonometry) (hround : Round panel)
    (hdied : panel.died = true) (draws : List Draw) :
    crashScores trig panel (draws.map .paint) = [] ∧
      ((game trig).run panel (draws.map .paint)).died = true := by
  induction draws generalizing panel with
  | nil => exact ⟨rfl, hdied⟩
  | cons draw rest ih =>
    have hsafe : ¬Crashes panel draw := by
      rcases hround with hcleared | ⟨-, halive⟩
      · exact fun hcrash => Bool.false_ne_true (hcrash.1.symm.trans hcleared.initPosition)
      · exact absurd (halive.died.symm.trans hdied) Bool.false_ne_true
    have hafter := (hround.paint_scores trig draw).1.mpr (Or.inl hdied)
    obtain ⟨hnone, hover⟩ := ih (hround.paint trig draw) hafter
    rw [List.map_cons, crashScores, hnone, AnimationPanel.crashScore, if_neg hsafe]
    exact ⟨rfl, hover⟩

/-- Whatever is played, the list of high scores has the best five of the scores at which ships have
crashed, in order. A crash ends its game, and however often the game is painted while it is over,
there is no other crash, and the list stays. -/
theorem leads_scoreDataList (trig : Trigonometry) (events : List Event) :
    let panel := (game trig).run .new events
    Leads higher 5 panel.scoreDataList (crashScores trig .new events) ∧
      (∀ draw, Crashes panel draw → (panel.step trig (.paint draw)).died = true) ∧
      (panel.died = true → ∀ draws : List Draw,
        ((game trig).run panel (draws.map .paint)).died = true ∧
          crashScores trig panel (draws.map .paint) = [] ∧
          ((game trig).run panel (draws.map .paint)).scoreDataList = panel.scoreDataList) := by
  intro panel
  have hround : Round panel := Round.run trig events
  have hnew : Ranked [] .new := rfl
  have hranked : Ranked (crashScores trig .new events) panel := hnew.run trig (Or.inl .new) events
  refine ⟨?_, ?_, ?_⟩
  · rw [hranked]
    exact leads_best higher 5 _
  · intro draw hcrash
    exact (hround.paint_scores trig draw).1.mpr (Or.inr hcrash)
  · intro hdied draws
    obtain ⟨hnone, hover⟩ := crashScores_paints trig hround hdied draws
    have hafter := hranked.run trig hround (draws.map .paint)
    rw [hnone, List.append_nil] at hafter
    exact ⟨hover, hnone, hafter.trans hranked.symm⟩

/-- Two paints of a crash, of which the second finds the game over. -/
example :
    let crash := Event.paint { Draw.quiet with touchesAsteroid := fun _ => true }
    let events := opening ++ [.keyPressed .space, .tick, .keyReleased .space, crash, crash]
    crashScores TankGame.eastward .new events = [998] ∧
      ((game TankGame.eastward).run .new events).scoreDataList = [998] := by
  decide +kernel

end Coursework.GalacticMail
