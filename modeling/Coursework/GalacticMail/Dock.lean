import Coursework.GalacticMail.Rounds
import Coursework.TankGame.Volley

/-!
# The moon of the dock

A paint that finds the ship docked looks for its moon by an index. A launch removes the moon, and
after one from the last moon of the list the index is that of no moon any more: enter docks the
ship there all the same.
-/

namespace Coursework.GalacticMail

open TankGame (Trigonometry)
open Transition

/-- A paint in which the ship touches nothing. -/
def Draw.quiet : Draw where
  moon := fun _ => ⟨false, false, ⟨0, Nat.succ_pos 358⟩⟩
  asteroid := fun _ => ⟨false, false, ⟨0, Nat.succ_pos 358⟩⟩
  touchesMoon := fun _ => false
  touchesAsteroid := fun _ => false

/-- The moon of the dock exists when a paint evaluates `get(moonCounter)` and
`remove(moonCounter)`. -/
def DockInBounds (panel : AnimationPanel) (draw : Draw) : Prop :=
  (panel.fill draw).init.moonLanded = true →
    (panel.fill draw).init.moonCounter < (panel.fill draw).init.moonAnimations.length

/-- When the moon of the dock is looked for, and when it exists. -/
theorem dockInBounds_iff (panel : AnimationPanel) (draw : Draw) :
    DockInBounds panel draw ↔ (panel.initPosition = true ∨ panel.moonLanded = true →
      panel.moonCounter < panel.moonAnimations.length + (4 - panel.moonNum)) := by
  have hlength : (panel.fill draw).moonAnimations.length =
      panel.moonAnimations.length + (4 - panel.moonNum) := by
    rw [AnimationPanel.fill, List.length_append, List.length_map, List.length_range]
  rw [DockInBounds, ← hlength, AnimationPanel.init]
  split
  · rename_i hinit
    exact ⟨fun h _ => h rfl, fun h _ => h (Or.inl hinit)⟩
  · rename_i hinit
    exact ⟨fun h hdock => h (hdock.resolve_left hinit), fun h hlanded => h (Or.inr hlanded)⟩

/-- The ship is in flight after a launch from the last moon of the list. -/
def Astray (panel : AnimationPanel) : Prop :=
  panel.moonLanded = false ∧ panel.initPosition = false ∧
    panel.moonCounter = panel.moonAnimations.length

/-- The moon of the dock exists, and in flight the index is at most one behind the last moon. -/
structure Indexed (panel : AnimationPanel) : Prop where
  le : panel.moonCounter ≤ panel.moonAnimations.length
  lt : panel.moonLanded = true → panel.moonCounter < panel.moonAnimations.length

/-- A panel between two events, as long as no paint has broken off. -/
def Sound (panel : AnimationPanel) : Prop :=
  Round panel ∧ (Stocked panel → Indexed panel)

/-- A new game docks at a moon that exists. -/
theorem Cleared.dockInBounds {panel : AnimationPanel} (h : Cleared panel) (draw : Draw) :
    DockInBounds panel draw := by
  rw [dockInBounds_iff, h.moonAnimations, h.moonNum]
  exact fun _ => h.moonCounter

/-- While a game is on, only a ship that is on its way to the dock may find no moon there. -/
theorem Stocked.dockInBounds_iff {panel : AnimationPanel} (h : Stocked panel)
    (hindexed : Indexed panel) (draw : Draw) :
    DockInBounds panel draw ↔
      (panel.initPosition = true → panel.moonCounter < panel.moonAnimations.length) := by
  rw [GalacticMail.dockInBounds_iff, h.moonNum]
  exact ⟨fun hdock hinit => hdock (Or.inl hinit), fun hdock => Or.rec hdock hindexed.lt⟩

/-- The panel is ready for the dock with an index that is in bounds. -/
theorem Sound.ready {panel : AnimationPanel} (h : Sound panel) (draw : Draw)
    (hdock : DockInBounds panel draw) :
    Indexed (panel.fill draw).init ∧ (panel.fill draw).init.initPosition = false := by
  rw [DockInBounds] at hdock
  rcases h with ⟨hcleared | ⟨hstocked, -⟩, hindexed⟩
  · rw [hcleared.fill_eq draw] at hdock ⊢
    exact ⟨⟨(hdock rfl).le, hdock⟩, rfl⟩
  · have hbefore := hindexed hstocked
    rw [hstocked.fill_eq draw] at hdock ⊢
    rw [AnimationPanel.init] at hdock ⊢
    split
    · rename_i hinit
      rw [if_pos hinit] at hdock
      exact ⟨⟨hbefore.le, hdock⟩, rfl⟩
    · rename_i hinit
      exact ⟨hbefore, Bool.eq_false_iff.mpr hinit⟩

/-- A launch leaves an index that is at most one behind the last. -/
theorem Indexed.dockAt {panel : AnimationPanel} (h : Indexed panel) (moon : Animation)
    (hlanded : panel.moonLanded = true) : Indexed (panel.dockAt moon) := by
  obtain ⟨curScore, earnPoints, start, docked, hdock⟩ := panel.dockAt_eq moon
  rw [hdock]
  split
  · exact ⟨h.le, h.lt⟩
  · refine ⟨?_, nofun⟩
    have hlength := List.length_eraseIdx_of_lt (h.lt hlanded)
    change panel.moonCounter ≤ (panel.moonAnimations.eraseIdx panel.moonCounter).length
    rw [hlength]
    exact Nat.le_sub_one_of_lt (h.lt hlanded)

/-- The next level adds moons behind. -/
theorem Indexed.risen {panel : AnimationPanel} (h : Indexed panel) (draw : Draw) :
    Indexed (panel.risen draw) := by
  have hlength : panel.moonAnimations.length ≤ (panel.risen draw).moonAnimations.length := by
    rw [AnimationPanel.risen, List.length_append, List.length_map]
    exact Nat.le_add_right _ _
  exact ⟨h.le.trans hlength, fun hlanded => (h.lt hlanded).trans_le hlength⟩

/-- What a paint that finds the moon of the dock leaves of a game. -/
theorem Sound.paint_indexed {panel : AnimationPanel} (trig : Trigonometry) (h : Sound panel)
    (draw : Draw) (hdock : DockInBounds panel draw) :
    Round (panel.step trig (.paint draw)) ∧
      ((panel.step trig (.paint draw)).moonNum = 4 →
        Indexed (panel.step trig (.paint draw)) ∧
          (panel.step trig (.paint draw)).initPosition = false) := by
  refine h.1.paint_keeps trig draw
    (P := fun panel => panel.moonNum = 4 → Indexed panel ∧ panel.initPosition = false)
    (fun _ => h.ready draw hdock) ?_ ?_ ?_ ?_ ?_ ?_ ?_ ?_
  · intro moon hlanded _
    obtain ⟨hindexed, hinit⟩ := h.ready draw hdock
    exact ⟨hindexed.dockAt moon hlanded, (AnimationPanel.dockAt_initPosition _ moon).trans hinit⟩
  · intro panel hP hfour
    obtain ⟨hindexed, hinit⟩ := hP hfour
    have hlength : (panel.moonAnimations.map (Animation.repaint trig)).length =
        panel.moonAnimations.length := List.length_map _
    exact ⟨⟨hindexed.le.trans_eq hlength.symm,
      fun hlanded => (hindexed.lt hlanded).trans_eq hlength.symm⟩, hinit⟩
  · intro panel counter _ hcounter hP hfour
    exact ⟨⟨hcounter.le, fun _ => hcounter⟩, (hP hfour).2⟩
  · intro panel hP hfour
    obtain ⟨hindexed, hinit⟩ := hP hfour
    exact ⟨⟨hindexed.le, hindexed.lt⟩, hinit⟩
  · intro panel _ _ destroy hP hfour
    obtain ⟨hindexed, hinit⟩ := hP hfour
    exact ⟨⟨hindexed.le, hindexed.lt⟩, hinit⟩
  · intro panel hstocked hP
    rcases hstocked.reset with ⟨hcleared, -⟩ | ⟨hsame, -⟩
    · intro hfour
      exact absurd (hcleared.moonNum.symm.trans hfour) (Nat.succ_ne_zero 3).symm
    · rw [hsame]
      exact hP
  · intro docked _ _ _ hP hfour
    obtain ⟨hindexed, hinit⟩ := hP hfour
    exact ⟨hindexed.risen draw, hinit⟩
  · intro panel hP hfour
    obtain ⟨hindexed, hinit⟩ := hP hfour
    exact ⟨⟨hindexed.le, hindexed.lt⟩, hinit⟩

/-- A paint that finds the moon of the dock leaves the panel sound, and a next paint finds the
moon. -/
theorem Sound.paint {panel : AnimationPanel} (trig : Trigonometry) (h : Sound panel)
    (draw : Draw) (hdock : DockInBounds panel draw) :
    Sound (panel.step trig (.paint draw)) ∧
      ∀ next, DockInBounds (panel.step trig (.paint draw)) next := by
  obtain ⟨hround, hafter⟩ := h.paint_indexed trig draw hdock
  refine ⟨⟨hround, fun hstocked => (hafter hstocked.moonNum).1⟩, ?_⟩
  intro next
  rcases hround with hcleared | ⟨hstocked, -⟩
  · exact hcleared.dockInBounds next
  · obtain ⟨hindexed, hinit⟩ := hafter hstocked.moonNum
    refine (hstocked.dockInBounds_iff hindexed next).mpr fun htrue => ?_
    exact absurd (hinit.symm.trans htrue) Bool.false_ne_true

/-- A tick leaves the index alone. -/
theorem Indexed.tick {panel : AnimationPanel} (h : Indexed panel) : Indexed panel.tick := by
  obtain ⟨ship, -, -, htick⟩ := panel.tick_eq
  rw [htick]
  split <;> exact ⟨h.le, h.lt⟩

/-- A tick leads to a dock without a moon exactly if enter is held down in flight after a launch
from the last moon of the list. -/
theorem Sound.tick {panel : AnimationPanel} (h : Sound panel)
    (hdock : ∀ draw, DockInBounds panel draw) :
    Sound panel.tick ∧
      ((∀ draw, DockInBounds panel.tick draw) ↔
        (panel.pressed .enter = true → ¬Astray panel)) := by
  obtain ⟨hround, hindexed⟩ := h
  have hroundTick := hround.tick
  rcases hround with hcleared | ⟨hstocked, -⟩
  · refine ⟨⟨hroundTick, fun hstocked => ?_⟩, iff_of_true hcleared.tick.dockInBounds ?_⟩
    · exact absurd (hcleared.tick.moonNum.symm.trans hstocked.moonNum) (Nat.succ_ne_zero 3).symm
    · rintro - ⟨-, hinit, -⟩
      rw [hcleared.initPosition] at hinit
      exact Bool.false_ne_true hinit.symm
  · have hindexed := hindexed hstocked
    refine ⟨⟨hroundTick, fun _ => hindexed.tick⟩, ?_⟩
    have hbefore := (hstocked.dockInBounds_iff hindexed .quiet).mp (hdock .quiet)
    have htest : (∀ draw, DockInBounds panel.tick draw) ↔
        (panel.tick.initPosition = true →
          panel.tick.moonCounter < panel.tick.moonAnimations.length) :=
      ⟨fun h => (hstocked.tick.dockInBounds_iff hindexed.tick .quiet).mp (h .quiet),
        fun h draw => (hstocked.tick.dockInBounds_iff hindexed.tick draw).mpr h⟩
    obtain ⟨ship, -, -, htick⟩ := panel.tick_eq
    rw [htest, htick]
    by_cases henter : panel.pressed .enter = true
    · rw [if_pos henter]
      constructor
      · rintro hlt - ⟨-, -, hlast⟩
        exact absurd hlast (hlt rfl).ne
      · intro hastray _
        by_contra hbehind
        have hlast := Nat.le_antisymm hindexed.le (Nat.le_of_not_lt hbehind)
        refine hastray henter ⟨?_, ?_, hlast⟩
        · exact Bool.eq_false_iff.mpr fun hlanded => hbehind (hindexed.lt hlanded)
        · exact Bool.eq_false_iff.mpr fun hinit => hbehind (hbefore hinit)
    · rw [if_neg henter]
      exact iff_of_true hbefore fun henter' => absurd henter' henter

/-- A key leaves the panel sound. -/
theorem Sound.setKey {panel : AnimationPanel} (h : Sound panel) (key : Key) (down : Bool) :
    Sound (panel.setKey key down) := by
  refine ⟨h.1.setKey key down, fun hstocked => ?_⟩
  have hindexed := h.2 ⟨hstocked.moonNum, hstocked.asteroidNum, hstocked.moonCounter,
    hstocked.moons_le, hstocked.asteroids⟩
  exact ⟨hindexed.le, hindexed.lt⟩

/-- A new panel is sound. -/
theorem Sound.new : Sound .new :=
  ⟨Or.inl .new, fun hstocked => absurd hstocked.moonNum (Nat.succ_ne_zero 3).symm⟩

/-- A key leaves the dock alone. -/
theorem dockInBounds_setKey {panel : AnimationPanel} {draw : Draw} (h : DockInBounds panel draw)
    (key : Key) (down : Bool) : DockInBounds (panel.setKey key down) draw := by
  rw [dockInBounds_iff] at h ⊢
  exact h

/-- Whatever is played, the moon of the dock exists whenever a paint looks for it exactly as long as
enter is not held down in flight after a launch from the last moon of the list. -/
theorem run_dockInBounds_iff (trig : Trigonometry) (events : List Event) :
    (∀ front, front <+: events → ∀ draw, DockInBounds ((game trig).run .new front) draw) ↔
      ∀ front, front ++ [.tick] <+: events →
        ((game trig).run .new front).pressed .enter = true →
          ¬Astray ((game trig).run .new front) := by
  rw [(game trig).forall_prefix_iff Sound (fun panel => ∀ draw, DockInBounds panel draw)
    (fun panel event => event = .tick → panel.pressed .enter = true → ¬Astray panel) ?_ .new
    .new Cleared.new.dockInBounds]
  · constructor
    · intro h front hfront
      exact h front .tick hfront rfl
    · rintro h front event hfront rfl
      exact h front hfront
  · intro panel event h hdock
    cases event with
    | keyPressed key =>
      exact ⟨h.setKey key true,
        iff_of_true (fun draw => dockInBounds_setKey (hdock draw) key true) nofun⟩
    | keyReleased key =>
      exact ⟨h.setKey key false,
        iff_of_true (fun draw => dockInBounds_setKey (hdock draw) key false) nofun⟩
    | tick =>
      obtain ⟨hsound, hiff⟩ := h.tick hdock
      refine ⟨hsound, hiff.trans ?_⟩
      exact ⟨fun hsafe _ => hsafe, fun hsafe => hsafe rfl⟩
    | paint draw =>
      obtain ⟨hsound, hnext⟩ := h.paint trig draw (hdock draw)
      exact ⟨hsound, iff_of_true hnext nofun⟩

/-- A paint in which the ship touches the moon at an index. -/
def Draw.landing (index : ℕ) : Draw :=
  { Draw.quiet with touchesMoon := fun counter => counter == index }

/-- A game starts. -/
def opening : List Event := [.keyPressed .enter, .tick, .keyReleased .enter, .paint .quiet]

/-- A launch. -/
def launch : List Event := [.keyPressed .space, .tick, .keyReleased .space, .paint .quiet]

/-- Enter is pressed after a launch from the third of three moons. -/
def strayed : List Event :=
  opening ++ launch ++ [.paint (.landing 2)] ++ launch ++ [.keyPressed .enter, .tick]

/-- The next paint looks for the third of two moons. -/
theorem not_dockInBounds_strayed :
    ¬DockInBounds ((game TankGame.eastward).run .new strayed) .quiet := by
  rw [dockInBounds_iff]
  intro h
  exact absurd (h (Or.inl rfl)) (by decide +kernel)

end Coursework.GalacticMail
