import Coursework.Concurrency.ForkJoin
import Coursework.Histogram.Sections
import Mathlib.Algebra.BigOperators.Fin

/-!
# Counting with one array per thread

Each thread sets its own counters to zero and counts its section in them. The main thread
adds the counters of a thread to `summation` when it has joined it.
-/

namespace Coursework.Histogram.ASCIICount

open Concurrency

/-- The loop a thread is in: the one over its counters, or the one over its section. -/
inductive Phase where
  | zeroing (i : ℕ)
  | counting (i : ℤ)
  | exited

/-- A thread with the array `count` of its section. -/
structure Runner where
  count : Fin 128 → ℤ
  phase : Phase

/-- The test of the loop over the section. -/
def countingTest (last i : ℤ) : Phase := if i ≤ last then .counting i else .exited

/-- The test of the loop over the counters, with the section that comes after it. -/
def zeroingTest (first last : ℤ) (i : ℕ) : Phase :=
  if i < 128 then .zeroing i else countingTest last first

/-- A step of `runner`, if it has one. -/
def runner (file : List UInt8) (k : Fin 8) (t : Runner) : Option Runner :=
  match t.phase with
  | .zeroing i =>
    some ⟨fun c => if (c : ℕ) = i then 0 else t.count c,
      zeroingTest (sectionStart (size file) k) (sectionEnd (size file) k) (i + 1)⟩
  | .counting i =>
    match counterAt file i with
    | some c =>
      some ⟨Function.update t.count c (t.count c + 1),
        countingTest (sectionEnd (size file) k) (i + 1)⟩
    | none => none
  | .exited => none

/-- Whether a thread has called `pthread_exit`. -/
def Runner.hasExited (t : Runner) : Bool :=
  match t.phase with
  | .exited => true
  | _ => false

/-- A thread that has exited has no step. -/
theorem runner_of_hasExited (file : List UInt8) (k : Fin 8) (t : Runner)
    (hexited : t.hasExited = true) : runner file k t = none := by
  obtain ⟨count, phase⟩ := t
  cases phase <;> first | rfl | cases hexited

/-- The threads of the program and its main thread; `garbage` is what the counters of the sections hold
before `main` runs. -/
def team (file : List UInt8) (garbage : Fin 8 → Fin 128 → ℤ) :
    Team (Fin 8) Runner Unit (Fin 128 → ℤ) where
  start k :=
    ⟨garbage k, zeroingTest (sectionStart (size file) k) (sectionEnd (size file) k) 0⟩
  step k t _ := (runner file k t).map fun t' => (t', ())
  exited := Runner.hasExited
  exited_step k t _ hexited := by rw [runner_of_hasExited file k t hexited, Option.map_none]
  merge _ t summation := fun c => summation c + t.count c
  shared := ()
  result := fun _ => 0
  order := threadOrder
  nodup := nodup_threadOrder
  complete := mem_threadOrder

/-- `main`, which starts no thread if the file does not fit into the buffer. -/
def main (file : List UInt8) (garbage : Fin 8 → Fin 128 → ℤ) :
    Option (Team (Fin 8) Runner Unit (Fin 128 → ℤ)) :=
  if Fits file then some (team file garbage) else none

/-- The counters of a thread hold what its phase has done: the first ones are zero, or all count the
positions that the thread has passed. -/
def Runner.Counts (file : List UInt8) (k : Fin 8) (t : Runner) : Prop :=
  match t.phase with
  | .zeroing i => i < 128 ∧ ∀ c : Fin 128, (c : ℕ) < i → t.count c = 0
  | .counting i =>
    (sectionStart (size file) k ≤ i ∧ i ≤ sectionEnd (size file) k) ∧
      ∀ c, t.count c = counted file (sectionStart (size file) k) i c
  | .exited =>
    ∀ c, t.count c =
      counted file (sectionStart (size file) k) (sectionEnd (size file) k + 1) c

/-- Counters that count the positions before `i` do so after the test of the loop over the section. -/
theorem counts_countingTest (file : List UInt8) (k : Fin 8) (count : Fin 128 → ℤ) (i : ℤ)
    (hfirst : sectionStart (size file) k ≤ i) (hlast : i ≤ sectionEnd (size file) k + 1)
    (hcount : ∀ c, count c = counted file (sectionStart (size file) k) i c) :
    (Runner.mk count (countingTest (sectionEnd (size file) k) i)).Counts file k := by
  by_cases hi : i ≤ sectionEnd (size file) k
  · rw [countingTest, if_pos hi]
    exact ⟨⟨hfirst, hi⟩, hcount⟩
  · have hnext : i = sectionEnd (size file) k + 1 := by omega
    rw [countingTest, if_neg hi]
    intro c
    exact hnext ▸ hcount c

/-- Counters that are zero before `i` are so after the test of the loop over the counters. -/
theorem counts_zeroingTest (file : List UInt8) (k : Fin 8) (count : Fin 128 → ℤ) (i : ℕ)
    (hcount : ∀ c : Fin 128, (c : ℕ) < i → count c = 0) :
    (Runner.mk count (zeroingTest (sectionStart (size file) k) (sectionEnd (size file) k) i)).Counts
      file k := by
  by_cases hi : i < 128
  · rw [zeroingTest, if_pos hi]
    exact ⟨hi, hcount⟩
  · obtain ⟨-, hle, -⟩ := section_bounds file k
    rw [zeroingTest, if_neg hi]
    apply counts_countingTest file k count _ le_rfl hle
    intro c
    rw [counted_self, hcount c (by omega)]
    rfl

/-- A step keeps what the counters hold. -/
theorem Runner.Counts.step {file : List UInt8} {k : Fin 8} {t t' : Runner} (h : t.Counts file k)
    (hstep : runner file k t = some t') : t'.Counts file k := by
  obtain ⟨count, phase⟩ := t
  cases phase with
  | zeroing i =>
    obtain ⟨-, hzero⟩ := h
    obtain rfl := Option.some.inj hstep
    apply counts_zeroingTest
    intro c hc
    by_cases hci : (c : ℕ) = i
    · exact if_pos hci
    · rw [if_neg hci]
      exact hzero c (by omega)
  | counting i =>
    obtain ⟨⟨hfirst, hlast⟩, hcount⟩ := h
    change ∀ c, count c = _ at hcount
    obtain ⟨hstart, -, hend⟩ := section_bounds file k
    cases hc : counterAt file i with
    | none => simp [runner, hc] at hstep
    | some c =>
      simp only [runner, hc, Option.some.injEq] at hstep
      obtain rfl := hstep
      apply counts_countingTest file k _ (i + 1) (by omega) (by omega)
      intro c'
      rw [counted_succ file _ i hstart hfirst (hlast.trans hend) c c' hc]
      by_cases hcc : c' = c
      · subst hcc
        rw [Function.update_self, hcount c']
        simp
      · rw [Function.update_of_ne hcc, hcount c']
        simp [hcc]
  | exited => cases hstep

/-- Every thread counts what it has passed in every reachable state. -/
theorem counts_of_reachable {file : List UInt8} {garbage : Fin 8 → Fin 128 → ℤ}
    {s : TeamState (Fin 8) Runner Unit (Fin 128 → ℤ)} (hs : (team file garbage).Reachable s)
    (k : Fin 8) (t : Runner) (hthread : s.threads k = some t) : t.Counts file k := by
  apply hs.thread_invariant (fun k t => t.Counts file k) _ _ k t hthread
  · intro k
    apply counts_zeroingTest
    intro c hc
    exact absurd hc (Nat.not_lt_zero _)
  · intro k t t' shared shared' h hstep
    obtain ⟨next, hnext, heq⟩ := Option.map_eq_some_iff.mp hstep
    obtain ⟨rfl, -⟩ := Prod.mk.inj heq
    exact h.step hnext

/-- The steps that a thread has left. -/
def Runner.left (first last : ℤ) (t : Runner) : ℕ :=
  match t.phase with
  | .zeroing i => (128 - i) + (last + 1 - first).toNat + 2
  | .counting i => (last + 1 - i).toNat + 1
  | .exited => 0

/-- Every step uses up some of them. -/
theorem left_lt (file : List UInt8) (k : Fin 8) (t t' : Runner)
    (hstep : runner file k t = some t') :
    t'.left (sectionStart (size file) k) (sectionEnd (size file) k) <
      t.left (sectionStart (size file) k) (sectionEnd (size file) k) := by
  obtain ⟨count, phase⟩ := t
  cases phase with
  | zeroing i =>
    obtain rfl := Option.some.inj hstep
    simp only [Runner.left, zeroingTest]
    split_ifs with hi
    · simp only
      omega
    · rw [countingTest]
      split_ifs with hj
      · simp only
        omega
      · exact Nat.succ_pos _
  | counting i =>
    cases hc : counterAt file i with
    | none => simp [runner, hc] at hstep
    | some c =>
      simp only [runner, hc, Option.some.injEq] at hstep
      obtain rfl := hstep
      simp only [Runner.left, countingTest]
      split_ifs with hj
      · simp only
        omega
      · exact Nat.succ_pos _
  | exited => cases hstep

/-- In a file whose bytes are below 128 every thread that has not exited can step. -/
theorem exists_step {file : List UInt8} (hfits : Fits file)
    (hascii : ∀ b ∈ file, b.toNat < 128) {garbage : Fin 8 → Fin 128 → ℤ}
    {s : TeamState (Fin 8) Runner Unit (Fin 128 → ℤ)} (hs : (team file garbage).Reachable s)
    (k : Fin 8) (t : Runner) (hthread : s.threads k = some t) (hexited : t.hasExited = false) :
    (team file garbage).threadStep k s ≠ none := by
  have hcounts := counts_of_reachable hs k t hthread
  obtain ⟨count, phase⟩ := t
  cases phase with
  | zeroing i => simp [Team.threadStep, hthread, team, runner]
  | counting i =>
    obtain ⟨⟨hfirst, hlast⟩, -⟩ := hcounts
    obtain ⟨hstart, -, hend⟩ := section_bounds file k
    obtain ⟨c, hc⟩ :=
      exists_counterAt file hfits hascii i (hstart.trans hfirst) (hlast.trans hend)
    simp [Team.threadStep, hthread, team, runner, hc]
  | exited => cases hexited

/-- The counters that the main thread adds up. -/
theorem foldl_mergeOf (file : List UInt8) (garbage : Fin 8 → Fin 128 → ℤ)
    (threads : Fin 8 → Option Runner) (counts : Fin 8 → Fin 128 → ℤ)
    (hthreads : ∀ k, ∃ t, threads k = some t ∧ t.count = counts k) (order : List (Fin 8))
    (summation : Fin 128 → ℤ) (c : Fin 128) :
    order.foldl ((team file garbage).mergeOf threads) summation c =
      summation c + (order.map fun k => counts k c).sum := by
  induction order generalizing summation with
  | nil => exact (add_zero _).symm
  | cons k rest ih =>
    obtain ⟨t, hthread, hcount⟩ := hthreads k
    rw [List.foldl_cons, ih, List.map_cons, List.sum_cons, ← add_assoc, ← hcount]
    simp only [Team.mergeOf, hthread]
    rfl

/-- Every schedule ends with the number of occurrences of each character in `summation`. -/
theorem delivers_occurrences (file : List UInt8) (hfits : Fits file)
    (hascii : ∀ b ∈ file, b.toNat < 128) (garbage : Fin 8 → Fin 128 → ℤ) :
    (team file garbage).Delivers fun s => ∀ c, s.result c = occurrences file c := by
  refine ⟨?_, ?_, ?_⟩
  · refine ⟨(team file garbage).remaining
      (fun k t => t.left (sectionStart (size file) k) (sectionEnd (size file) k))
      (team file garbage).initial, ?_⟩
    intro schedule s hrun
    apply (team file garbage).schedule_length_le _ _ schedule hrun
    intro s' _ k t t' shared _ hstep
    obtain ⟨next, hnext, heq⟩ := Option.map_eq_some_iff.mp hstep
    obtain ⟨rfl, -⟩ := Prod.mk.inj heq
    exact left_lt file k t next hnext
  · intro s hs hstuck
    apply hs.returned_of_stuck _ hstuck
    intro k t hthread hexited
    exact ⟨k, exists_step hfits hascii hs k t hthread hexited⟩
  · intro s hs hreturned c
    obtain ⟨hexited, hresult⟩ := hs.returned hreturned
    have hthreads : ∀ k, ∃ t, s.threads k = some t ∧ t.count = fun c : Fin 128 =>
        (counted file (sectionStart (size file) k) (sectionEnd (size file) k + 1) c : ℤ) := by
      intro k
      obtain ⟨t, hthread, ht⟩ := hexited k
      have hcounts := counts_of_reachable hs k t hthread
      refine ⟨t, hthread, ?_⟩
      obtain ⟨count, phase⟩ := t
      cases phase with
      | zeroing i => cases ht
      | counting i => cases ht
      | exited => exact funext hcounts
    rw [hresult, foldl_mergeOf file garbage s.threads _ hthreads, ← sum_counted file hfits hascii c]
    change 0 + ((List.finRange 8).map _).sum = _
    rw [zero_add, Nat.cast_sum, Fin.sum_univ_def]

end Coursework.Histogram.ASCIICount
