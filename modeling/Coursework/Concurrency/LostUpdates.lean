import Coursework.Transition.UpdateSum
import Mathlib.Algebra.BigOperators.Ring.Finset
import Mathlib.Data.Fintype.BigOperators
import Mathlib.Logic.Relation

/-!
# Increments of one counter that are not atomic

Each of several threads increments one counter a number of times, by reading it and writing
back what it has read increased by one. An increment that falls between the two is lost.
The values that the counter can end with are exactly those of an interval: with more than
one thread at work its lower end is one or two, whatever the number of increments.
-/

namespace Coursework.Concurrency

open Transition

/-- The increments that each thread has completed, the value it has read and not yet written back,
and the counter. -/
structure RaceState (ι : Type*) where
  done : ι → ℕ
  held : ι → Option ℕ
  value : ℕ

variable {ι : Type*} [DecidableEq ι] {total : ι → ℕ} {s s' : RaceState ι}

/-- A thread with increments left reads the counter, or writes back what it has read. -/
inductive RaceStep (total : ι → ℕ) (s : RaceState ι) : RaceState ι → Prop where
  | load (i : ι) (hheld : s.held i = none) (hleft : s.done i < total i) :
      RaceStep total s { s with held := Function.update s.held i (some s.value) }
  | store (i : ι) (value : ℕ) (hheld : s.held i = some value) :
      RaceStep total s
        ⟨Function.update s.done i (s.done i + 1), Function.update s.held i none, value + 1⟩

/-- No thread has read the counter. -/
def RaceState.initial : RaceState ι := ⟨fun _ => 0, fun _ => none, 0⟩

/-- The states that some order of the steps leads to from another one. -/
def RaceRun (total : ι → ℕ) : RaceState ι → RaceState ι → Prop :=
  Relation.ReflTransGen (RaceStep total)

/-- All increments are completed. -/
structure RaceState.Finished (total : ι → ℕ) (s : RaceState ι) : Prop where
  done : ∀ i, s.done i = total i
  held : ∀ i, s.held i = none

/-- What holds initially and is kept by every step holds after every run. -/
theorem RaceRun.invariant (Inv : RaceState ι → Prop) (hs : Inv s)
    (hstep : ∀ s s', Inv s → RaceStep total s s' → Inv s') (hrun : RaceRun total s s') :
    Inv s' := by
  induction hrun with
  | refl => exact hs
  | tail _ hlast ih => exact hstep _ _ ih hlast

/-- No step follows when all increments are completed. -/
theorem RaceState.Finished.not_step (hs : s.Finished total) : ¬ RaceStep total s s' := by
  intro hstep
  cases hstep with
  | load i hheld hleft => exact hleft.ne (hs.done i)
  | store i value hheld =>
    rw [hs.held i] at hheld
    cases hheld

section Bounds

variable [Fintype ι]

/-- The counter and the values read from it are at most the number of completed increments, and at
least one after an increment. -/
structure RaceState.Bounded (total : ι → ℕ) (s : RaceState ι) : Prop where
  done_le : ∀ i, s.done i ≤ total i
  done_lt : ∀ i value, s.held i = some value → s.done i < total i
  value_le : s.value ≤ ∑ i, s.done i
  held_le : ∀ i value, s.held i = some value → value ≤ ∑ i, s.done i
  value_pos : ∀ i, 0 < s.done i → 0 < s.value
  held_pos : ∀ i value, s.held i = some value → 0 < s.done i → 0 < value

/-- A completed increment adds one to their number. -/
theorem sum_done_succ (done : ι → ℕ) (i : ι) :
    ∑ j, Function.update done i (done i + 1) j = (∑ j, done j) + 1 := by
  have hsum := sum_update_succ Finset.univ id done i (done i + 1) rfl
  rw [if_pos (Finset.mem_univ i)] at hsum
  exact hsum

/-- Every step keeps the bounds. -/
theorem RaceState.Bounded.step (h : s.Bounded total) (hstep : RaceStep total s s') :
    s'.Bounded total := by
  cases hstep with
  | load i hheld hleft =>
    refine ⟨h.done_le, ?_, h.value_le, ?_, h.value_pos, ?_⟩
    · intro j value hj
      by_cases hji : j = i
      · exact hji ▸ hleft
      · exact h.done_lt j value ((Function.update_of_ne hji _ _).symm.trans hj)
    · intro j value hj
      by_cases hji : j = i
      · subst hji
        obtain rfl := Option.some.inj ((Function.update_self j _ _).symm.trans hj)
        exact h.value_le
      · exact h.held_le j value ((Function.update_of_ne hji _ _).symm.trans hj)
    · intro j value hj hpos
      by_cases hji : j = i
      · subst hji
        obtain rfl := Option.some.inj ((Function.update_self j _ _).symm.trans hj)
        exact h.value_pos j hpos
      · exact h.held_pos j value ((Function.update_of_ne hji _ _).symm.trans hj) hpos
  | store i value hheld =>
    have hother : ∀ j w, Function.update s.held i none j = some w → j ≠ i ∧ s.held j = some w := by
      intro j w hj
      by_cases hji : j = i
      · rw [hji, Function.update_self] at hj
        cases hj
      · exact ⟨hji, (Function.update_of_ne hji _ _).symm.trans hj⟩
    refine ⟨?_, ?_, ?_, ?_, fun _ _ => Nat.succ_pos value, ?_⟩
    · intro j
      change Function.update s.done i (s.done i + 1) j ≤ total j
      by_cases hji : j = i
      · subst hji
        rw [Function.update_self]
        exact h.done_lt j value hheld
      · rw [Function.update_of_ne hji]
        exact h.done_le j
    · intro j w hj
      obtain ⟨hji, hw⟩ := hother j w hj
      change Function.update s.done i (s.done i + 1) j < total j
      rw [Function.update_of_ne hji]
      exact h.done_lt j w hw
    · change value + 1 ≤ ∑ j, Function.update s.done i (s.done i + 1) j
      rw [sum_done_succ]
      exact Nat.succ_le_succ (h.held_le i value hheld)
    · intro j w hj
      change w ≤ ∑ j, Function.update s.done i (s.done i + 1) j
      rw [sum_done_succ]
      exact (h.held_le j w (hother j w hj).2).trans (Nat.le_succ _)
    · intro j w hj hpos
      obtain ⟨hji, hw⟩ := hother j w hj
      change 0 < Function.update s.done i (s.done i + 1) j at hpos
      rw [Function.update_of_ne hji] at hpos
      exact h.held_pos j w hw hpos

/-- The bounds hold after every run. -/
theorem bounded_of_run (hrun : RaceRun total RaceState.initial s) : s.Bounded total := by
  apply hrun.invariant (RaceState.Bounded total)
  · refine ⟨fun _ => Nat.zero_le _, ?_, Nat.zero_le _, ?_, ?_, ?_⟩
    · intro i value hheld
      cases hheld
    · intro i value hheld
      cases hheld
    · intro i hpos
      cases hpos
    · intro i value hheld
      cases hheld
  · intro s s' h hstep
    exact h.step hstep

/-- If no thread increments just once, the counter is at least two unless the last write was the
first of its thread. -/
def RaceState.Twice (s : RaceState ι) : Prop :=
  (∃ i, 0 < s.done i) → 2 ≤ s.value ∨ ∃ i, s.done i = 1

/-- Every step keeps this. -/
theorem RaceState.Twice.step (h : s.Twice) (hbounded : s.Bounded total)
    (hstep : RaceStep total s s') : s'.Twice := by
  cases hstep with
  | load i hheld hleft => exact h
  | store i value hheld =>
    intro _
    by_cases hfirst : s.done i = 0
    · right
      refine ⟨i, ?_⟩
      change Function.update s.done i (s.done i + 1) i = 1
      rw [Function.update_self, hfirst]
    · left
      exact Nat.succ_le_succ (hbounded.held_pos i value hheld (Nat.pos_of_ne_zero hfirst))

/-- If only one thread increments, no increment is lost. -/
structure RaceState.Alone (i : ι) (s : RaceState ι) : Prop where
  value : s.value = s.done i
  held : ∀ value, s.held i = some value → value = s.done i

/-- Every step keeps this. -/
theorem RaceState.Alone.step {i : ι} (h : s.Alone i) (hbounded : s.Bounded total)
    (hzero : ∀ j, j ≠ i → total j = 0) (hstep : RaceStep total s s') : s'.Alone i := by
  cases hstep with
  | load j hheld hleft =>
    have hji : j = i := by
      by_contra hne
      rw [hzero j hne] at hleft
      cases hleft
    subst hji
    refine ⟨h.value, fun value hvalue => ?_⟩
    obtain rfl := Option.some.inj ((Function.update_self j _ _).symm.trans hvalue)
    exact h.value
  | store j value hheld =>
    have hji : j = i := by
      by_contra hne
      have hlt := hbounded.done_lt j value hheld
      rw [hzero j hne] at hlt
      cases hlt
    subst hji
    refine ⟨?_, fun w hw => ?_⟩
    · change value + 1 = Function.update s.done j (s.done j + 1) j
      rw [Function.update_self, h.held value hheld]
    · change Function.update s.held j none j = some w at hw
      rw [Function.update_self] at hw
      cases hw

/-- The lowest value that the counter can end with. -/
def fewest (total : ι → ℕ) : ℕ :=
  if (Finset.univ.filter fun i => 0 < total i).card ≤ 1 then ∑ i, total i
  else if ∃ i, total i = 1 then 1 else 2

omit [DecidableEq ι] in
/-- One thread at most has increments, if no two have. -/
theorem exists_alone (hcard : (Finset.univ.filter fun i => 0 < total i).card ≤ 1) (i : ι)
    (hi : 0 < total i) (j : ι) (hne : j ≠ i) : total j = 0 := by
  by_contra hj
  refine hne (Finset.card_le_one.mp hcard j ?_ i ?_)
  · exact Finset.mem_filter.mpr ⟨Finset.mem_univ j, Nat.pos_of_ne_zero hj⟩
  · exact Finset.mem_filter.mpr ⟨Finset.mem_univ i, hi⟩

/-- A run that is finished ends with at least the lowest value. -/
theorem fewest_le_of_run (hrun : RaceRun total RaceState.initial s) (hs : s.Finished total) :
    fewest total ≤ s.value := by
  have hbounded := bounded_of_run hrun
  rw [fewest]
  split
  · rename_i hcard
    by_cases hnone : ∀ i, total i = 0
    · simp [hnone]
    · obtain ⟨i, hi⟩ := not_forall.mp hnone
      have hzero := exists_alone hcard i (Nat.pos_of_ne_zero hi)
      have halone : s.Bounded total ∧ s.Alone i := by
        apply hrun.invariant fun s => s.Bounded total ∧ s.Alone i
        · exact ⟨bounded_of_run Relation.ReflTransGen.refl, rfl, fun value hheld => nomatch hheld⟩
        · rintro s s' ⟨hb, ha⟩ hstep
          exact ⟨hb.step hstep, ha.step hb hzero hstep⟩
      rw [Finset.sum_eq_single i (fun j _ hne => hzero j hne)
        (fun hnot => absurd (Finset.mem_univ i) hnot), ← hs.done i, halone.2.value]
  · rename_i hcard
    obtain ⟨i, hi, -⟩ := Finset.one_lt_card.mp (not_le.mp hcard)
    have hpos : 0 < s.done i := (hs.done i).symm ▸ (Finset.mem_filter.mp hi).2
    split
    · exact hbounded.value_pos i hpos
    · rename_i hone
      have htwice : s.Bounded total ∧ s.Twice := by
        apply hrun.invariant fun s => s.Bounded total ∧ s.Twice
        · exact ⟨bounded_of_run Relation.ReflTransGen.refl, fun ⟨i, hi⟩ => nomatch hi⟩
        · rintro s s' ⟨hb, ht⟩ hstep
          exact ⟨hb.step hstep, ht.step hb hstep⟩
      obtain htwo | ⟨j, hj⟩ := htwice.2 ⟨i, hpos⟩
      · exact htwo
      · exact absurd ⟨j, (hs.done j).symm.trans hj⟩ hone

/-- A run that is finished ends with at most the number of increments. -/
theorem le_sum_of_run (hrun : RaceRun total RaceState.initial s) (hs : s.Finished total) :
    s.value ≤ ∑ i, total i := by
  have hle := (bounded_of_run hrun).value_le
  rwa [Finset.sum_congr rfl fun i _ => hs.done i] at hle

end Bounds

section Schedules

/-- A thread that has read nothing can complete an increment before any other step. -/
theorem exists_increment (i : ι) (hheld : s.held i = none) (hleft : s.done i < total i) :
    RaceRun total s
      ⟨Function.update s.done i (s.done i + 1), s.held, s.value + 1⟩ := by
  have hload : RaceStep total s { s with held := Function.update s.held i (some s.value) } :=
    .load i hheld hleft
  have hstore : RaceStep total { s with held := Function.update s.held i (some s.value) } _ :=
    .store i s.value (Function.update_self i _ _)
  have hback : Function.update (Function.update s.held i (some s.value)) i none = s.held := by
    rw [Function.update_idem, ← hheld, Function.update_eq_self]
  rw [hback] at hstore
  exact (Relation.ReflTransGen.single hload).tail hstore

/-- Threads that have read nothing can complete increments before any other thread steps. -/
theorem exists_increments (total : ι → ℕ) (s : RaceState ι) (threads : Finset ι) (count : ℕ)
    (hfree : ∀ i ∈ threads, s.held i = none) (hle : ∀ i, s.done i ≤ total i)
    (hcount : ∑ i ∈ threads, s.done i + count ≤ ∑ i ∈ threads, total i) :
    ∃ s', RaceRun total s s' ∧ s'.held = s.held ∧ s'.value = s.value + count ∧
      (∀ i, s'.done i ≤ total i) ∧ (∀ i ∉ threads, s'.done i = s.done i) ∧
      ∑ i ∈ threads, s'.done i = ∑ i ∈ threads, s.done i + count := by
  induction count with
  | zero => exact ⟨s, .refl, rfl, rfl, hle, fun _ _ => rfl, rfl⟩
  | succ count ih =>
    obtain ⟨s₁, hrun, hheld, hvalue, hle₁, hother, hsum⟩ := ih (by omega)
    obtain ⟨i, hi, hlt⟩ : ∃ i ∈ threads, s₁.done i < total i := by
      apply Finset.exists_lt_of_sum_lt
      omega
    refine ⟨_, hrun.trans (exists_increment i ((congrFun hheld i).trans (hfree i hi)) hlt), hheld,
      ?_, ?_, ?_, ?_⟩
    · change s₁.value + 1 = _
      omega
    · intro j
      change Function.update s₁.done i (s₁.done i + 1) j ≤ total j
      by_cases hji : j = i
      · subst hji
        rw [Function.update_self]
        exact hlt
      · rw [Function.update_of_ne hji]
        exact hle₁ j
    · intro j hj
      change Function.update s₁.done i (s₁.done i + 1) j = s.done j
      rw [Function.update_of_ne (ne_of_mem_of_not_mem hi hj).symm, hother j hj]
    · change ∑ j ∈ threads, Function.update s₁.done i (s₁.done i + 1) j = _
      have hone := sum_update_succ threads id s₁.done i (s₁.done i + 1) rfl
      rw [if_pos hi] at hone
      change ∑ j ∈ threads, Function.update s₁.done i (s₁.done i + 1) j =
        ∑ j ∈ threads, s₁.done j + 1 at hone
      omega

/-- One thread that has read nothing can complete increments before any other thread steps. -/
theorem exists_increments_of (total : ι → ℕ) (s : RaceState ι) (i : ι) (count : ℕ)
    (hfree : s.held i = none) (hle : ∀ j, s.done j ≤ total j) (hcount : s.done i + count ≤ total i) :
    ∃ s', RaceRun total s s' ∧ s'.held = s.held ∧ s'.value = s.value + count ∧
      (∀ j, s'.done j ≤ total j) ∧ (∀ j, j ≠ i → s'.done j = s.done j) ∧
      s'.done i = s.done i + count := by
  obtain ⟨s', hrun, hheld, hvalue, hle', hother, hsum⟩ :=
    exists_increments total s {i} count
      (fun j hj => Finset.mem_singleton.mp hj ▸ hfree) hle (by simpa using hcount)
  rw [Finset.sum_singleton, Finset.sum_singleton] at hsum
  exact ⟨s', hrun, hheld, hvalue, hle',
    fun j hj => hother j (fun hmem => hj (Finset.mem_singleton.mp hmem)), hsum⟩

variable [Fintype ι]

/-- A thread before its last increment can have all others complete theirs between its read and its
write. -/
theorem exists_finished_of_last (k : ι) (hfree : ∀ i, s.held i = none)
    (hle : ∀ i, s.done i ≤ total i) (hlast : s.done k + 1 = total k) :
    ∃ s', RaceRun total s s' ∧ s'.Finished total ∧ s'.value = s.value + 1 := by
  have hload : RaceStep total s { s with held := Function.update s.held k (some s.value) } :=
    .load k (hfree k) (by omega)
  have hsum := Finset.sum_le_sum fun i (_ : i ∈ Finset.univ.erase k) => hle i
  obtain ⟨s₁, hrun, hheld, -, hle₁, hother, hall⟩ := exists_increments total
    { s with held := Function.update s.held k (some s.value) } (Finset.univ.erase k)
    (∑ i ∈ Finset.univ.erase k, total i - ∑ i ∈ Finset.univ.erase k, s.done i)
    (fun i hi => (Function.update_of_ne (Finset.ne_of_mem_erase hi) _ _).trans (hfree i)) hle
    (by simp only; omega)
  have hvalue : s₁.held k = some s.value := (congrFun hheld k).trans (Function.update_self k _ _)
  have hdone : ∀ i ∈ Finset.univ.erase k, s₁.done i = total i := by
    apply (Finset.sum_eq_sum_iff_of_le fun i _ => hle₁ i).mp
    simp only at hall
    omega
  refine ⟨_, ((Relation.ReflTransGen.single hload).trans hrun).tail (.store k s.value hvalue),
    ⟨fun i => ?_, fun i => ?_⟩, rfl⟩
  · change Function.update s₁.done k (s₁.done k + 1) i = total i
    by_cases hi : i = k
    · subst hi
      rw [Function.update_self, hother i (Finset.notMem_erase i _)]
      exact hlast
    · rw [Function.update_of_ne hi]
      exact hdone i (Finset.mem_erase.mpr ⟨hi, Finset.mem_univ i⟩)
  · change Function.update s₁.held k none i = none
    by_cases hi : i = k
    · rw [hi, Function.update_self]
    · rw [Function.update_of_ne hi, hheld]
      exact (Function.update_of_ne hi _ _).trans (hfree i)

/-- With two threads at work, some thread can come to its last increment when the counter is any
value that leads to one of the interval. -/
theorem exists_before_last (hcard : ¬ (Finset.univ.filter fun i => 0 < total i).card ≤ 1)
    (value : ℕ) (hfewest : fewest total ≤ value + 1) (hvalue : value + 1 ≤ ∑ i, total i) :
    ∃ k s, RaceRun total RaceState.initial s ∧ (∀ i, s.held i = none) ∧
      (∀ i, s.done i ≤ total i) ∧ s.done k + 1 = total k ∧ s.value = value := by
  rw [fewest, if_neg hcard] at hfewest
  by_cases hone : ∃ k, total k = 1
  · obtain ⟨k, hk⟩ := hone
    have hsum := Finset.add_sum_erase Finset.univ total (Finset.mem_univ k)
    obtain ⟨s, hrun, hheld, hs, hle, hother, -⟩ := exists_increments total RaceState.initial
      (Finset.univ.erase k) value (fun _ _ => rfl)
      (fun _ => Nat.zero_le _) (by simp only [RaceState.initial, Finset.sum_const_zero]; omega)
    refine ⟨k, s, hrun, congrFun hheld, hle, ?_, hs.trans (Nat.zero_add value)⟩
    rw [hother k (Finset.notMem_erase k _), hk]
    rfl
  · rw [if_neg hone] at hfewest
    obtain ⟨i, hi, j, hj, hij⟩ := Finset.one_lt_card.mp (not_le.mp hcard)
    have hpos : ∀ k, k ∈ Finset.univ.filter (fun i => 0 < total i) → 2 ≤ total k := by
      intro k hk
      have hk0 : 0 < total k := (Finset.mem_filter.mp hk).2
      have hk1 : total k ≠ 1 := fun heq => hone ⟨k, heq⟩
      omega
    have hi2 := hpos i hi
    have hj2 := hpos j hj
    by_cases hmany : total j ≤ value + 1
    · have hsum := Finset.add_sum_erase Finset.univ total (Finset.mem_univ j)
      obtain ⟨s₁, hrun₁, hheld₁, hs₁, hle₁, hother₁, hdone₁⟩ := exists_increments_of total
        RaceState.initial j (total j - 1) rfl (fun _ => Nat.zero_le _)
        (by simp only [RaceState.initial]; omega)
      have hzero : ∑ k ∈ Finset.univ.erase j, s₁.done k = 0 := by
        apply Finset.sum_eq_zero
        intro k hk
        exact hother₁ k (Finset.ne_of_mem_erase hk)
      obtain ⟨s₂, hrun₂, hheld₂, hs₂, hle₂, hother₂, -⟩ := exists_increments total s₁
        (Finset.univ.erase j) (value + 1 - total j) (fun k _ => congrFun hheld₁ k) hle₁
        (by omega)
      refine ⟨j, s₂, hrun₁.trans hrun₂, fun k => (congrFun hheld₂ k).trans (congrFun hheld₁ k), hle₂,
        ?_, ?_⟩
      · rw [hother₂ j (Finset.notMem_erase j _), hdone₁]
        simp only [RaceState.initial]
        omega
      · rw [hs₂, hs₁]
        simp only [RaceState.initial]
        omega
    · -- `i` reads before the last but one of these increments of `j` and writes after the last.
      obtain ⟨s₁, hrun₁, hheld₁, hs₁, hle₁, hother₁, hdone₁⟩ := exists_increments_of total
        RaceState.initial j (value - 1) rfl (fun _ => Nat.zero_le _)
        (by simp only [RaceState.initial]; omega)
      have hi0 : s₁.done i = 0 := hother₁ i hij
      have hload : RaceStep total s₁ { s₁ with held := Function.update s₁.held i (some s₁.value) } :=
        .load i (congrFun hheld₁ i) (by omega)
      obtain ⟨s₂, hrun₂, hheld₂, -, hle₂, hother₂, hdone₂⟩ := exists_increments_of total
        { s₁ with held := Function.update s₁.held i (some s₁.value) } j
        (total j - value) ((Function.update_of_ne hij.symm _ _).trans (congrFun hheld₁ j)) hle₁
        (by simp only [hdone₁, RaceState.initial]; omega)
      have hread : s₂.held i = some s₁.value :=
        (congrFun hheld₂ i).trans (Function.update_self i _ _)
      refine ⟨j, _, (hrun₁.tail hload).trans (hrun₂.tail (.store i s₁.value hread)), ?_, ?_, ?_, ?_⟩
      · intro k
        change Function.update s₂.held i none k = none
        by_cases hk : k = i
        · rw [hk, Function.update_self]
        · rw [Function.update_of_ne hk, hheld₂]
          exact (Function.update_of_ne hk _ _).trans (congrFun hheld₁ k)
      · intro k
        change Function.update s₂.done i (s₂.done i + 1) k ≤ total k
        by_cases hk : k = i
        · rw [hk, Function.update_self, hother₂ i hij]
          change s₁.done i + 1 ≤ total i
          omega
        · rw [Function.update_of_ne hk]
          exact hle₂ k
      · change Function.update s₂.done i (s₂.done i + 1) j + 1 = total j
        rw [Function.update_of_ne hij.symm, hdone₂]
        simp only [hdone₁, RaceState.initial]
        omega
      · change s₁.value + 1 = value
        rw [hs₁]
        simp only [RaceState.initial]
        omega

/-- The counter can end with exactly the values from the lowest one to the number of increments. -/
theorem exists_finished_iff (value : ℕ) :
    (∃ s, RaceRun total RaceState.initial s ∧ s.Finished total ∧ s.value = value) ↔
      fewest total ≤ value ∧ value ≤ ∑ i, total i := by
  constructor
  · rintro ⟨s, hrun, hs, rfl⟩
    exact ⟨fewest_le_of_run hrun hs, le_sum_of_run hrun hs⟩
  · rintro ⟨hfewest, hvalue⟩
    by_cases hcard : (Finset.univ.filter fun i => 0 < total i).card ≤ 1
    · obtain ⟨s, hrun, hheld, hs, hle, -, hsum⟩ := exists_increments total RaceState.initial
        Finset.univ (∑ i, total i) (fun _ _ => rfl)
        (fun _ => Nat.zero_le _) (by simp [RaceState.initial])
      rw [fewest, if_pos hcard] at hfewest
      have hdone : ∀ i ∈ Finset.univ, s.done i = total i := by
        apply (Finset.sum_eq_sum_iff_of_le fun i _ => hle i).mp
        simpa [RaceState.initial] using hsum
      exact ⟨s, hrun, ⟨fun i => hdone i (Finset.mem_univ i), congrFun hheld⟩,
        (hs.trans (Nat.zero_add _)).trans (le_antisymm hfewest hvalue)⟩
    · have hpos : 1 ≤ fewest total := by
        rw [fewest, if_neg hcard]
        split <;> omega
      obtain ⟨value, rfl⟩ := Nat.exists_eq_add_of_le' (hpos.trans hfewest)
      obtain ⟨k, s, hrun, hfree, hle, hlast, rfl⟩ := exists_before_last hcard value hfewest hvalue
      obtain ⟨s', hrun', hs', hvalue'⟩ := exists_finished_of_last k hfree hle hlast
      exact ⟨s', hrun.trans hrun', hs', hvalue'⟩

end Schedules

end Coursework.Concurrency
