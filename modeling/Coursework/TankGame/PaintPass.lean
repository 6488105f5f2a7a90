import Coursework.TankGame.PaintLoop
import Coursework.Transition.RemovalWalk
import Mathlib.Data.List.GetD
import Mathlib.Data.List.Perm.Basic
import Mathlib.Data.List.ReduceOption

/-!
# What a paint does to each animation

A trace follows the loop of a paint: where each animation of the list was at the start, and
which ones the loop has repainted and removed. The loop passes over the successor of an
animation that it removes, so that it advances all live animations only if none but the
last one is stopped.
-/

namespace Coursework.TankGame

open Transition

/-- The positions that the animations of the list had at the start of the loop, if they were in it, and
those of the animations repainted and removed so far, in order. -/
structure Trace where
  present : List (Option ℕ)
  repainted : List (Option ℕ)
  removed : List (Option ℕ)

/-- The position at the start of the animation at an index. -/
def Trace.position (trace : Trace) (counter : ℕ) : Option ℕ := trace.present.getD counter none

/-- The trace after the removal at an index. -/
def Trace.remove (trace : Trace) (counter : ℕ) : Trace :=
  { trace with
    present := trace.present.eraseIdx counter
    removed := trace.removed ++ [trace.position counter] }

/-- The trace after the repaint at an index, which has appended so many animations. -/
def Trace.repaint (trace : Trace) (counter appended : ℕ) : Trace :=
  { trace with
    present := trace.present ++ List.replicate appended none
    repainted := trace.repainted ++ [trace.position counter] }

/-- The trace at the start of the loop. -/
def Trace.start (panel : AnimationPanel) : Trace :=
  ⟨(List.range panel.animations.length).map some, [], []⟩

/-- The positions of the animations with a property. -/
def AnimationPanel.positions (panel : AnimationPanel) (p : PanelAnimation → Bool) : List ℕ :=
  (panel.animations.zipIdx.filter fun entry => p entry.1).map Prod.snd

/-- The positions of the animations with a property are those where there is one. -/
theorem AnimationPanel.mem_positions (panel : AnimationPanel) (p : PanelAnimation → Bool) (i : ℕ) :
    i ∈ panel.positions p ↔
      ∃ animation, panel.animations[i]? = some animation ∧ p animation = true := by
  rw [AnimationPanel.positions, List.mem_map]
  constructor
  · rintro ⟨⟨animation, i⟩, hentry, rfl⟩
    obtain ⟨hmem, hp⟩ := List.mem_filter.mp hentry
    exact ⟨animation, List.mk_mem_zipIdx_iff_getElem?.mp hmem, hp⟩
  · rintro ⟨animation, hget, hp⟩
    exact ⟨(animation, i), List.mem_filter.mpr ⟨List.mk_mem_zipIdx_iff_getElem?.mpr hget, hp⟩, rfl⟩

section Moves

variable (trig : Trigonometry)

/-- The loop over the animations with its trace. -/
def AnimationPanel.paintTrace (panel : AnimationPanel) (counter : ℕ) (trace : Trace) :
    AnimationPanel × Trace :=
  if h : counter < panel.animations.length then
    let animation := panel.animations.get ⟨counter, h⟩
    if animation.isStopped then
      AnimationPanel.paintTrace { panel with animations := panel.animations.eraseIdx counter }
        (counter + 1) (trace.remove counter)
    else
      let after := panel.repaintAt trig counter animation
      AnimationPanel.paintTrace after (counter + 1)
        (trace.repaint counter (after.animations.length - panel.animations.length))
  else (panel, trace)
termination_by turns (panel.animations.drop counter)
decreasing_by
  · exact turns_eraseIdx_lt _ _ h
  · exact panel.turns_repaintAt_lt trig counter h

/-- A turn at a stopped animation. -/
theorem paintTrace_of_stopped {panel : AnimationPanel} {counter : ℕ} {trace : Trace}
    (hcounter : counter < panel.animations.length)
    (hstopped : (panel.animations.get ⟨counter, hcounter⟩).isStopped = true) :
    panel.paintTrace trig counter trace =
      AnimationPanel.paintTrace trig
        { panel with animations := panel.animations.eraseIdx counter } (counter + 1)
        (trace.remove counter) := by
  rw [AnimationPanel.paintTrace, dif_pos hcounter]
  exact if_pos hstopped

/-- A turn at a live animation. -/
theorem paintTrace_of_live {panel : AnimationPanel} {counter : ℕ} {trace : Trace}
    (hcounter : counter < panel.animations.length)
    (hlive : ¬(panel.animations.get ⟨counter, hcounter⟩).isStopped = true) :
    panel.paintTrace trig counter trace =
      (panel.repaintAt trig counter (panel.animations.get ⟨counter, hcounter⟩)).paintTrace trig
        (counter + 1) (trace.repaint counter
          ((panel.repaintAt trig counter
            (panel.animations.get ⟨counter, hcounter⟩)).animations.length -
              panel.animations.length)) := by
  rw [AnimationPanel.paintTrace, dif_pos hcounter]
  exact if_neg hlive

/-- The end of the loop. -/
theorem paintTrace_of_not_lt {panel : AnimationPanel} {counter : ℕ} {trace : Trace}
    (hcounter : ¬counter < panel.animations.length) :
    panel.paintTrace trig counter trace = (panel, trace) := by
  rw [AnimationPanel.paintTrace, dif_neg hcounter]

/-- The trace does not change what the loop does. -/
theorem AnimationPanel.paintTrace_fst (panel : AnimationPanel) (counter : ℕ) (trace : Trace) :
    (panel.paintTrace trig counter trace).1 = panel.paintLoop trig counter := by
  induction panel, counter, trace using AnimationPanel.paintTrace.induct trig with
  | case1 panel counter trace h animation hstopped ih =>
    rw [paintTrace_of_stopped trig h hstopped, AnimationPanel.paintLoop, dif_pos h]
    rw [if_pos hstopped, ih]
  | case2 panel counter trace h animation hlive after ih =>
    rw [paintTrace_of_live trig h hlive, AnimationPanel.paintLoop, dif_pos h]
    rw [if_neg hlive, ih]
  | case3 panel counter trace h =>
    rw [paintTrace_of_not_lt trig h, AnimationPanel.paintLoop, dif_neg h]

/-- A paint advances the animations: it removes those that were stopped at the start and no other one,
repaints those that were live once and in order, and keeps them in the list. -/
structure AnimationPanel.AdvancesOnce (panel : AnimationPanel) : Prop where
  removed : (panel.paintTrace trig 0 (.start panel)).2.removed =
    (panel.positions PanelAnimation.isStopped).map some
  repainted : (panel.paintTrace trig 0 (.start panel)).2.repainted.reduceOption =
    panel.positions fun animation => !animation.isStopped
  present : ∀ i ∈ panel.positions fun animation => !animation.isStopped,
    some i ∈ (panel.paintTrace trig 0 (.start panel)).2.present

/-- Animations with their positions at the start, and then new explosions. -/
def ahead (rest : List (PanelAnimation × ℕ)) (explosions : List Animation) :
    List (PanelAnimation × Option ℕ) :=
  rest.map (fun entry => (entry.1, some entry.2)) ++
    explosions.map fun explosion => (.plain explosion, none)

/-- The loop still has these animations before it, and then only new explosions. -/
structure Pending (panel : AnimationPanel) (counter : ℕ) (trace : Trace)
    (rest : List (PanelAnimation × ℕ)) (explosions : List Animation) : Prop where
  length : trace.present.length = panel.animations.length
  live : ∀ explosion ∈ explosions, explosion.stop = false
  animations : panel.animations.drop counter = (ahead rest explosions).map Prod.fst
  present : trace.present.drop counter = (ahead rest explosions).map Prod.snd

/-- Without the first of them, and with more explosions at the end. -/
theorem exists_ahead_tail (rest : List (PanelAnimation × ℕ)) {explosions appended : List Animation}
    (hlive : ∀ explosion ∈ explosions, explosion.stop = false)
    (happended : ∀ explosion ∈ appended, explosion.stop = false) :
    ∃ later, (∀ explosion ∈ later, explosion.stop = false) ∧
      (ahead rest explosions).tail ++ appended.map (fun explosion => (.plain explosion, none)) =
        ahead rest.tail later := by
  cases rest with
  | nil =>
    refine ⟨explosions.tail ++ appended, ?_, by simp [ahead]⟩
    intro explosion hmem
    rcases List.mem_append.mp hmem with htail | hnew
    · exact hlive explosion (List.mem_of_mem_tail htail)
    · exact happended explosion hnew
  | cons entry rest =>
    refine ⟨explosions ++ appended, ?_, by simp [ahead]⟩
    intro explosion hmem
    exact (List.mem_append.mp hmem).elim (hlive explosion) (happended explosion)

/-- A removal keeps the trace as long as the list. -/
theorem Trace.length_remove {panel : AnimationPanel} {counter : ℕ} {trace : Trace}
    (hlength : trace.present.length = panel.animations.length)
    (hcounter : counter < panel.animations.length) :
    (trace.remove counter).present.length = (panel.animations.eraseIdx counter).length := by
  have hlt : counter < trace.present.length := hlength ▸ hcounter
  change (trace.present.eraseIdx counter).length = _
  rw [List.length_eraseIdx_of_lt hlt, List.length_eraseIdx_of_lt hcounter, hlength]

/-- A repaint keeps the trace as long as the list. -/
theorem Trace.length_repaint {panel : AnimationPanel} {counter : ℕ} {trace : Trace}
    (hlength : trace.present.length = panel.animations.length)
    (hcounter : counter < panel.animations.length) (animation : PanelAnimation) :
    (trace.repaint counter ((panel.repaintAt trig counter animation).animations.length -
      panel.animations.length)).present.length =
        (panel.repaintAt trig counter animation).animations.length := by
  obtain ⟨entry, appended, -, -, hafter⟩ := panel.repaintAt_animations trig counter hcounter
    animation
  have hmore : (panel.repaintAt trig counter animation).animations.length =
      panel.animations.length + appended.length := by
    rw [hafter, List.length_append, List.length_set, List.length_map]
  change (trace.present ++ List.replicate _ none).length = _
  rw [List.length_append, List.length_replicate, hlength, hmore, Nat.add_sub_cancel_left]

/-- The first animation before the loop is the one at the index. -/
theorem Pending.get_eq {panel : AnimationPanel} {counter : ℕ} {trace : Trace}
    {entry : PanelAnimation × ℕ} {rest : List (PanelAnimation × ℕ)} {explosions : List Animation}
    (h : Pending panel counter trace (entry :: rest) explosions)
    (hcounter : counter < panel.animations.length) :
    panel.animations.get ⟨counter, hcounter⟩ = entry.1 ∧
      trace.position counter = some entry.2 := by
  have hanimations := h.animations
  have hpresent := h.present
  have hlength : counter < trace.present.length := h.length ▸ hcounter
  rw [List.drop_eq_getElem_cons hcounter] at hanimations
  rw [List.drop_eq_getElem_cons hlength] at hpresent
  exact ⟨(List.cons.inj hanimations).1,
    (List.getD_eq_getElem _ _ hlength).trans (List.cons.inj hpresent).1⟩

/-- With no animation before it the loop comes to an explosion, which is not stopped. -/
theorem Pending.get_explosion {panel : AnimationPanel} {counter : ℕ} {trace : Trace}
    {explosions : List Animation} (h : Pending panel counter trace [] explosions)
    (hcounter : counter < panel.animations.length) :
    (panel.animations.get ⟨counter, hcounter⟩).isStopped = false ∧
      trace.position counter = none ∧ ∃ explosion rest, explosions = explosion :: rest := by
  have hanimations := h.animations
  have hpresent := h.present
  have hlength : counter < trace.present.length := h.length ▸ hcounter
  rw [List.drop_eq_getElem_cons hcounter] at hanimations
  rw [List.drop_eq_getElem_cons hlength] at hpresent
  cases explosions with
  | nil => cases hanimations
  | cons explosion explosions =>
    refine ⟨?_, (List.getD_eq_getElem _ _ hlength).trans (List.cons.inj hpresent).1, _, _, rfl⟩
    have hget : panel.animations.get ⟨counter, hcounter⟩ = .plain explosion :=
      (List.cons.inj hanimations).1
    rw [hget]
    exact h.live explosion List.mem_cons_self

/-- A removal passes over the next animation, or else over the next explosion. -/
theorem Pending.remove {panel : AnimationPanel} {counter : ℕ} {trace : Trace}
    {entry : PanelAnimation × ℕ} {rest : List (PanelAnimation × ℕ)} {explosions : List Animation}
    (h : Pending panel counter trace (entry :: rest) explosions)
    (hcounter : counter < panel.animations.length) :
    ∃ later, Pending { panel with animations := panel.animations.eraseIdx counter } (counter + 1)
      (trace.remove counter) rest.tail later := by
  have hlength : counter < trace.present.length := h.length ▸ hcounter
  obtain ⟨later, hlater, htail⟩ := exists_ahead_tail rest h.live (List.forall_mem_nil _)
  rw [List.map_nil, List.append_nil] at htail
  refine ⟨later, Trace.length_remove h.length hcounter, hlater, ?_, ?_⟩
  · change (panel.animations.eraseIdx counter).drop (counter + 1) = _
    rw [drop_eraseIdx _ _ hcounter, ← List.drop_drop, h.animations, ← htail, ← List.map_drop,
      ← List.drop_one]
    rfl
  · change (trace.present.eraseIdx counter).drop (counter + 1) = _
    rw [drop_eraseIdx _ _ hlength, ← List.drop_drop, h.present, ← htail, ← List.map_drop,
      ← List.drop_one]
    rfl

/-- A repaint leaves the animations after the index, and may append explosions. -/
theorem Pending.repaint {panel : AnimationPanel} {counter : ℕ} {trace : Trace}
    {rest : List (PanelAnimation × ℕ)} {explosions : List Animation}
    (h : Pending panel counter trace rest explosions)
    (hcounter : counter < panel.animations.length) (animation : PanelAnimation) :
    ∃ later, Pending (panel.repaintAt trig counter animation) (counter + 1)
      (trace.repaint counter ((panel.repaintAt trig counter animation).animations.length -
        panel.animations.length)) rest.tail later := by
  have hlength : counter + 1 ≤ trace.present.length := h.length ▸ hcounter
  obtain ⟨entry, appended, hlive, -, hafter⟩ := panel.repaintAt_animations trig counter hcounter
    animation
  have hmore : (panel.repaintAt trig counter animation).animations.length -
      panel.animations.length = appended.length := by
    rw [hafter, List.length_append, List.length_set, List.length_map, Nat.add_sub_cancel_left]
  obtain ⟨later, hlater, htail⟩ := exists_ahead_tail rest h.live hlive
  refine ⟨later, Trace.length_repaint trig h.length hcounter animation, hlater, ?_, ?_⟩
  · have hset : counter + 1 ≤ (panel.animations.set counter entry).length := by
      rw [List.length_set]
      exact hcounter
    have hnext : counter < counter + 1 := Nat.lt_succ_self counter
    rw [hafter, List.drop_append_of_le_length hset, List.drop_set_of_lt hnext, ← List.drop_drop,
      h.animations, ← htail, List.map_append, List.map_map, List.drop_one, List.map_tail]
    rfl
  · have hnone : List.replicate appended.length none = appended.map fun _ => (none : Option ℕ) :=
      List.map_const'.symm
    rw [hmore]
    change (trace.present ++ List.replicate appended.length none).drop (counter + 1) = _
    rw [List.drop_append_of_le_length hlength, ← List.drop_drop, h.present, ← htail, hnone,
      List.map_append, List.map_map, List.drop_one, List.map_tail]
    rfl

/-- What is left of the loop removes and repaints the animations that it visits. -/
theorem paintTrace_of_pending (panel : AnimationPanel) (counter : ℕ) (trace : Trace)
    (rest : List (PanelAnimation × ℕ)) (explosions : List Animation)
    (h : Pending panel counter trace rest explosions) :
    (panel.paintTrace trig counter trace).2.removed = trace.removed ++
        (((visited (fun entry => entry.1.isStopped) rest).filter
          fun entry => entry.1.isStopped).map fun entry => some entry.2) ∧
      (panel.paintTrace trig counter trace).2.repainted.reduceOption =
        trace.repainted.reduceOption ++
        (((visited (fun entry => entry.1.isStopped) rest).filter
          fun entry => !entry.1.isStopped).map Prod.snd) := by
  induction panel, counter, trace using AnimationPanel.paintTrace.induct trig
    generalizing rest explosions with
  | case1 panel counter trace hcounter animation hstopped ih =>
    rw [paintTrace_of_stopped trig hcounter hstopped]
    cases rest with
    | nil =>
      have hlive := (h.get_explosion hcounter).1
      exact absurd (hstopped.symm.trans hlive) (by decide)
    | cons entry rest =>
      obtain ⟨hget, hposition⟩ := h.get_eq hcounter
      obtain ⟨later, hnext⟩ := h.remove hcounter
      obtain ⟨hremoved, hrepainted⟩ := ih rest.tail later hnext
      have hentry : entry.1.isStopped = true := hget ▸ hstopped
      rw [hremoved, hrepainted, visited_cons, if_pos hentry]
      simp [Trace.remove, hposition, hentry]
  | case2 panel counter trace hcounter animation hlive after ih =>
    rw [paintTrace_of_live trig hcounter hlive]
    obtain ⟨later, hnext⟩ := h.repaint trig hcounter animation
    obtain ⟨hremoved, hrepainted⟩ := ih rest.tail later hnext
    rw [hremoved, hrepainted]
    cases rest with
    | nil =>
      have hposition := (h.get_explosion hcounter).2.1
      simp [Trace.repaint, visited, hposition, List.reduceOption_append]
    | cons entry rest =>
      obtain ⟨hget, hposition⟩ := h.get_eq hcounter
      have hentry : entry.1.isStopped = false := by
        rw [← hget]
        exact eq_false_of_ne_true hlive
      rw [visited_cons, if_neg (by rw [hentry]; decide)]
      simp [Trace.repaint, hposition, hentry, List.reduceOption_append]
  | case3 panel counter trace hcounter =>
    have hnil : rest = [] := by
      have hanimations := h.animations
      rw [List.drop_eq_nil_of_le (Nat.le_of_not_lt hcounter)] at hanimations
      have hahead := List.map_eq_nil_iff.mp hanimations.symm
      exact List.map_eq_nil_iff.mp (List.append_eq_nil_iff.mp hahead).1
    rw [paintTrace_of_not_lt trig hcounter, hnil]
    simp [visited]

/-- At the start the loop has all animations before it. -/
theorem pending_start (panel : AnimationPanel) :
    Pending panel 0 (.start panel) panel.animations.zipIdx [] := by
  refine ⟨?_, List.forall_mem_nil _, ?_, ?_⟩
  · rw [Trace.start, List.length_map, List.length_range]
  · rw [List.drop_zero, ahead, List.map_nil, List.append_nil, List.map_map]
    exact (List.zipIdx_map_fst 0 panel.animations).symm
  · rw [List.drop_zero, ahead, List.map_nil, List.append_nil, List.map_map, Trace.start,
      List.range_eq_range', ← List.zipIdx_map_snd 0 panel.animations, List.map_map]
    rfl

/-- The loop loses no animation: each one stays in the list or is removed. -/
theorem mem_paintTrace (panel : AnimationPanel) (counter : ℕ) (trace : Trace)
    (hlength : trace.present.length = panel.animations.length) (position : Option ℕ)
    (hmem : position ∈ trace.present ∨ position ∈ trace.removed) :
    position ∈ (panel.paintTrace trig counter trace).2.present ∨
      position ∈ (panel.paintTrace trig counter trace).2.removed := by
  induction panel, counter, trace using AnimationPanel.paintTrace.induct trig with
  | case1 panel counter trace hcounter animation hstopped ih =>
    have hlt : counter < trace.present.length := hlength ▸ hcounter
    rw [paintTrace_of_stopped trig hcounter hstopped]
    apply ih
    · exact Trace.length_remove hlength hcounter
    · rcases hmem with hpresent | hremoved
      · rw [← (List.getElem_cons_eraseIdx_perm hlt).mem_iff, List.mem_cons] at hpresent
        rcases hpresent with hat | herased
        · refine Or.inr (List.mem_append_right _ (List.mem_singleton.mpr ?_))
          exact hat.trans (List.getD_eq_getElem _ _ hlt).symm
        · exact Or.inl herased
      · exact Or.inr (List.mem_append_left _ hremoved)
  | case2 panel counter trace hcounter animation hlive after ih =>
    rw [paintTrace_of_live trig hcounter hlive]
    apply ih
    · exact Trace.length_repaint trig hlength hcounter animation
    · exact hmem.imp_left (List.mem_append_left _)
  | case3 panel counter trace hcounter =>
    rw [paintTrace_of_not_lt trig hcounter]
    exact hmem

/-- The loop removes and repaints what it visits of the list at the start. -/
theorem paintTrace_start (panel : AnimationPanel) :
    (panel.paintTrace trig 0 (.start panel)).2.removed =
        (((visited (fun entry => entry.1.isStopped) panel.animations.zipIdx).filter
          fun entry => entry.1.isStopped).map Prod.snd).map some ∧
      (panel.paintTrace trig 0 (.start panel)).2.repainted.reduceOption =
        ((visited (fun entry => entry.1.isStopped) panel.animations.zipIdx).filter
          fun entry => !entry.1.isStopped).map Prod.snd := by
  obtain ⟨hremoved, hrepainted⟩ := paintTrace_of_pending trig panel 0 (.start panel) _ _
    (pending_start panel)
  rw [hremoved, hrepainted, List.map_map]
  exact ⟨List.nil_append _, List.nil_append _⟩

/-- Among the visited animations, equal positions are equal animations. -/
theorem map_filter_visited_eq_iff (panel : AnimationPanel) (p q : PanelAnimation × ℕ → Bool) :
    ((visited p panel.animations.zipIdx).filter q).map Prod.snd =
        (panel.animations.zipIdx.filter q).map Prod.snd ↔
      (visited p panel.animations.zipIdx).filter q = panel.animations.zipIdx.filter q := by
  constructor
  · intro heq
    apply ((visited_sublist p panel.animations.zipIdx).filter q).eq_of_length
    simpa only [List.length_map] using congrArg List.length heq
  · exact congrArg _

/-- Every animation but the last is live exactly if every one before the last position is. -/
theorem forall_dropLast_zipIdx (panel : AnimationPanel) :
    (∀ entry ∈ panel.animations.zipIdx.dropLast, entry.1.isStopped = false) ↔
      ∀ animation ∈ panel.animations.dropLast, animation.isStopped = false := by
  have hfirst : panel.animations.zipIdx.dropLast.map Prod.fst = panel.animations.dropLast := by
    rw [List.map_dropLast, List.zipIdx_map_fst]
  rw [← hfirst, List.forall_mem_map]

/-- A paint that leaves no animation out keeps the live ones in the list. -/
theorem mem_present_of_removed (panel : AnimationPanel)
    (hremoved : (panel.paintTrace trig 0 (.start panel)).2.removed =
      (panel.positions PanelAnimation.isStopped).map some) (i : ℕ)
    (hi : i ∈ panel.positions fun animation => !animation.isStopped) :
    some i ∈ (panel.paintTrace trig 0 (.start panel)).2.present := by
  obtain ⟨animation, hget, hlive⟩ := (panel.mem_positions _ i).mp hi
  obtain ⟨hlt, -⟩ := List.getElem?_eq_some_iff.mp hget
  have hboth := mem_paintTrace trig panel 0 (.start panel) (pending_start panel).length (some i)
    (Or.inl (List.mem_map.mpr ⟨i, List.mem_range.mpr hlt, rfl⟩))
  refine hboth.resolve_right fun hmem => ?_
  rw [hremoved] at hmem
  obtain ⟨j, hj, hji⟩ := List.mem_map.mp hmem
  obtain rfl := Option.some.inj hji
  obtain ⟨animation', hget', hstopped⟩ := (panel.mem_positions _ j).mp hj
  obtain rfl := Option.some.inj (hget.symm.trans hget')
  rw [hstopped] at hlive
  cases hlive

/-- A paint advances every live animation once and removes exactly the stopped ones, exactly if none
but the last animation of the list is stopped at the start. -/
theorem paint_advances_iff (panel : AnimationPanel) :
    panel.AdvancesOnce trig ↔
      ∀ animation ∈ panel.animations.dropLast, animation.isStopped = false := by
  obtain ⟨hremoved, hrepainted⟩ := paintTrace_start trig panel
  rw [← forall_dropLast_zipIdx, ← filter_visited_eq_iff, ← map_filter_visited_eq_iff,
    ← map_filter_visited_eq_iff]
  constructor
  · rintro ⟨hremoved', hrepainted', -⟩
    rw [hremoved] at hremoved'
    rw [hrepainted] at hrepainted'
    exact ⟨(List.map_injective_iff.mpr (Option.some_injective ℕ)) hremoved', hrepainted'⟩
  · rintro ⟨hstopped, hlive⟩
    rw [hstopped] at hremoved
    rw [hlive] at hrepainted
    exact ⟨hremoved, hrepainted, mem_present_of_removed trig panel hremoved⟩

end Moves

/-- A stopped bullet and a live one behind it: the paint does not come to the live one. -/
theorem not_paint_advances_two :
    ¬AnimationPanel.AdvancesOnce ⟨fun _ _ => 0, fun _ _ => 0⟩
      ⟨fun _ => .new, fun _ => .new '3', .new fun _ _ => ' ',
        [.shot ⟨.tank1, 0, 40, 40, true⟩, .shot ⟨.tank1, 0, 80, 80, false⟩],
        fun _ _ => false⟩ := by
  intro h
  have hrepainted := h.repainted
  rw [paintTrace_of_stopped _ (by exact Nat.two_pos) (by rfl),
    paintTrace_of_not_lt _ (by exact Nat.lt_irrefl 1)] at hrepainted
  exact absurd hrepainted (by decide)

end Coursework.TankGame
