import Coursework.Concurrency.ForkJoin
import Coursework.Histogram.Sections

/-!
# Counting with one shared array

Each thread locks the mutex, reads the counter that its character selects, writes it back
increased by one, and unlocks the mutex. An access outside an array has no step.
-/

namespace Coursework.Histogram.ASCIICountS

open Concurrency Transition

/-- The point a thread has reached, with its position `i` and the counter it has read. -/
inductive Runner where
  | lock (i : ℤ)
  | load (i : ℤ)
  | store (i : ℤ) (value : ℤ)
  | unlock (i : ℤ)
  | exited

/-- The mutex and the array `count`. -/
structure Shared where
  mutex : Option (Fin 8)
  count : Fin 128 → ℤ

/-- The loop test. -/
def loopTest (last i : ℤ) : Runner := if i ≤ last then .lock i else .exited

/-- A step of `runner`, if it has one. -/
def runner (file : List UInt8) (k : Fin 8) : Runner → Shared → Option (Runner × Shared)
  | .lock i, shared =>
    if shared.mutex.isNone then some (.load i, { shared with mutex := some k }) else none
  | .load i, shared =>
    match counterAt file i with
    | some c => some (.store i (shared.count c), shared)
    | none => none
  | .store i value, shared =>
    match counterAt file i with
    | some c =>
      some (.unlock i, { shared with count := Function.update shared.count c (value + 1) })
    | none => none
  | .unlock i, shared =>
    some (loopTest (sectionEnd (size file) k) (i + 1), { shared with mutex := none })
  | .exited, _ => none

/-- What a step of `runner` can do, with the condition under which it is possible. -/
inductive RunnerMoves (file : List UInt8) (k : Fin 8) (shared : Shared) :
    Runner → Runner → Shared → Prop where
  | lock (i : ℤ) (hfree : shared.mutex = none) :
      RunnerMoves file k shared (.lock i) (.load i) { shared with mutex := some k }
  | load (i : ℤ) (c : Fin 128) (hc : counterAt file i = some c) :
      RunnerMoves file k shared (.load i) (.store i (shared.count c)) shared
  | store (i value : ℤ) (c : Fin 128) (hc : counterAt file i = some c) :
      RunnerMoves file k shared (.store i value) (.unlock i)
        { shared with count := Function.update shared.count c (value + 1) }
  | unlock (i : ℤ) :
      RunnerMoves file k shared (.unlock i) (loopTest (sectionEnd (size file) k) (i + 1))
        { shared with mutex := none }

/-- A step of `runner` is one of these moves. -/
theorem runnerMoves_of_runner {file : List UInt8} {k : Fin 8} {t t' : Runner}
    {shared shared' : Shared} (hstep : runner file k t shared = some (t', shared')) :
    RunnerMoves file k shared t t' shared' := by
  cases t with
  | lock i =>
    cases hfree : shared.mutex with
    | none =>
      simp only [runner, hfree, Option.isNone_none, if_true, Option.some.injEq,
        Prod.mk.injEq] at hstep
      obtain ⟨rfl, rfl⟩ := hstep
      exact .lock i hfree
    | some j => simp [runner, hfree] at hstep
  | load i =>
    cases hc : counterAt file i with
    | none => simp [runner, hc] at hstep
    | some c =>
      simp only [runner, hc, Option.some.injEq, Prod.mk.injEq] at hstep
      obtain ⟨rfl, rfl⟩ := hstep
      exact .load i c hc
  | store i value =>
    cases hc : counterAt file i with
    | none => simp [runner, hc] at hstep
    | some c =>
      simp only [runner, hc, Option.some.injEq, Prod.mk.injEq] at hstep
      obtain ⟨rfl, rfl⟩ := hstep
      exact .store i value c hc
  | unlock i =>
    simp only [runner, Option.some.injEq, Prod.mk.injEq] at hstep
    obtain ⟨rfl, rfl⟩ := hstep
    exact .unlock i
  | exited => cases hstep

/-- Whether a thread has called `pthread_exit`. -/
def Runner.hasExited : Runner → Bool
  | .exited => true
  | _ => false

/-- A thread that has exited has no step. -/
theorem runner_of_hasExited (file : List UInt8) (k : Fin 8) (t : Runner) (shared : Shared)
    (hexited : t.hasExited = true) : runner file k t shared = none := by
  cases t <;> first | rfl | cases hexited

/-- The threads of the program and its main thread. -/
def team (file : List UInt8) : Team (Fin 8) Runner Shared Unit where
  start k := loopTest (sectionEnd (size file) k) (sectionStart (size file) k)
  step := runner file
  exited := Runner.hasExited
  exited_step := runner_of_hasExited file
  merge _ _ _ := ()
  shared := ⟨none, fun _ => 0⟩
  result := ()
  order := threadOrder
  nodup := nodup_threadOrder
  complete := mem_threadOrder

/-- `main`, which starts no thread if the file does not fit into the buffer. -/
def main (file : List UInt8) : Option (Team (Fin 8) Runner Shared Unit) :=
  if Fits file then some (team file) else none

/-- The thread holds the mutex. -/
def Runner.Inside : Runner → Prop
  | .load _ | .store _ _ | .unlock _ => True
  | .lock _ | .exited => False

/-- The position of a thread lies in its section. -/
def Runner.InSection (file : List UInt8) (k : Fin 8) : Runner → Prop
  | .lock i | .load i | .store i _ | .unlock i =>
    sectionStart (size file) k ≤ i ∧ i ≤ sectionEnd (size file) k
  | .exited => True

/-- The first position of its section that a thread has not counted yet. -/
def next (file : List UInt8) (k : Fin 8) : Option Runner → ℤ
  | none => sectionStart (size file) k
  | some (.lock i) | some (.load i) | some (.store i _) => i
  | some (.unlock i) => i + 1
  | some .exited => sectionEnd (size file) k + 1

/-- The loop test leads to a position of the section or to the end. -/
theorem loopTest_inSection (file : List UInt8) (k : Fin 8) (i : ℤ)
    (hi : sectionStart (size file) k ≤ i) :
    (loopTest (sectionEnd (size file) k) i).InSection file k := by
  rw [loopTest]
  split
  · exact ⟨hi, by assumption⟩
  · trivial

/-- Nothing is counted by the loop test. -/
theorem next_loopTest (file : List UInt8) (k : Fin 8) (i : ℤ)
    (hi : i ≤ sectionEnd (size file) k + 1) :
    next file k (some (loopTest (sectionEnd (size file) k) i)) = i := by
  rw [loopTest]
  split
  · rfl
  · change sectionEnd (size file) k + 1 = i
    omega

/-- The loop test is outside of the mutex. -/
theorem not_inside_loopTest (last i : ℤ) : ¬ (loopTest last i).Inside := by
  rw [loopTest]
  split <;> exact not_false

/-- The holder of the mutex is the thread inside, a thread about to write has read the current counter,
and the counters count the positions that the threads have passed. -/
structure Counting (file : List UInt8) (threads : Fin 8 → Option Runner) (shared : Shared) :
    Prop where
  inSection : ∀ k t, threads k = some t → t.InSection file k
  inside : ∀ k t, threads k = some t → t.Inside → shared.mutex = some k
  holder : ∀ k, shared.mutex = some k → ∃ t, threads k = some t ∧ t.Inside
  loaded : ∀ k i value c, threads k = some (.store i value) → counterAt file i = some c →
    shared.count c = value
  count : ∀ c, shared.count c =
    ∑ k, (counted file (sectionStart (size file) k) (next file k (threads k)) c : ℤ)

/-- A move of one thread keeps the count if it moves the mutex as its new point requires, and changes
the counters by the positions that it passes while it holds the mutex. -/
theorem Counting.move {file : List UInt8} {threads : Fin 8 → Option Runner} {shared : Shared}
    (h : Counting file threads shared) (k : Fin 8) (t : Runner) (shared' : Shared)
    (hin : t.InSection file k) (hself : shared'.mutex = some k ↔ t.Inside)
    (hmutex : ∀ j, j ≠ k → (shared'.mutex = some j ↔ shared.mutex = some j))
    (hloaded : ∀ i value c, t = .store i value → counterAt file i = some c →
      shared'.count c = value)
    (hwrites : shared'.count = shared.count ∨ shared'.mutex = some k)
    (hcount : ∀ c, shared'.count c = shared.count c +
      ((counted file (sectionStart (size file) k) (next file k (some t)) c : ℤ) -
        counted file (sectionStart (size file) k) (next file k (threads k)) c)) :
    Counting file (Function.update threads k (some t)) shared' := by
  refine ⟨?_, ?_, ?_, ?_, ?_⟩
  · intro j t' hj
    by_cases hjk : j = k
    · subst hjk
      rw [Function.update_self] at hj
      exact Option.some.inj hj ▸ hin
    · rw [Function.update_of_ne hjk] at hj
      exact h.inSection j t' hj
  · intro j t' hj hinside
    by_cases hjk : j = k
    · subst hjk
      rw [Function.update_self] at hj
      exact hself.mpr (Option.some.inj hj ▸ hinside)
    · rw [Function.update_of_ne hjk] at hj
      exact (hmutex j hjk).mpr (h.inside j t' hj hinside)
  · intro j hj
    by_cases hjk : j = k
    · subst hjk
      exact ⟨t, Function.update_self j (some t) threads, hself.mp hj⟩
    · obtain ⟨t', hthread, hinside⟩ := h.holder j ((hmutex j hjk).mp hj)
      exact ⟨t', (Function.update_of_ne hjk _ _).trans hthread, hinside⟩
  · intro j i value c hj hc
    by_cases hjk : j = k
    · subst hjk
      rw [Function.update_self] at hj
      exact hloaded i value c (Option.some.inj hj) hc
    · rw [Function.update_of_ne hjk] at hj
      obtain hsame | hholds := hwrites
      · rw [hsame]
        exact h.loaded j i value c hj hc
      · have hother := (hmutex j hjk).mpr (h.inside j _ hj trivial)
        exact absurd (Option.some.inj (hother.symm.trans hholds)) hjk
  · intro c
    have hsum := sum_update_add Finset.univ (fun j t =>
      (counted file (sectionStart (size file) j) (next file j t) c : ℤ)) threads k (some t)
    rw [if_pos (Finset.mem_univ k), if_pos (Finset.mem_univ k), ← h.count c] at hsum
    rw [hcount c]
    omega

/-- The loop test is not about to write. -/
theorem loopTest_ne_store (last i i' value : ℤ) : loopTest last i ≠ .store i' value := by
  intro hstore
  apply not_inside_loopTest last i
  rw [hstore]
  trivial

/-- The creation of a thread counts nothing. -/
theorem Counting.create {file : List UInt8} {threads : Fin 8 → Option Runner} {shared : Shared}
    (h : Counting file threads shared) (k : Fin 8) (hnone : threads k = none) :
    Counting file (Function.update threads k
      (some (loopTest (sectionEnd (size file) k) (sectionStart (size file) k)))) shared := by
  obtain ⟨-, hle, -⟩ := section_bounds file k
  apply h.move k _ shared (loopTest_inSection file k _ le_rfl)
  · constructor
    · intro hmutex
      obtain ⟨t, hthread, -⟩ := h.holder k hmutex
      rw [hnone] at hthread
      cases hthread
    · intro hinside
      exact absurd hinside (not_inside_loopTest _ _)
  · intro j _
    rfl
  · intro i value c hstore
    exact absurd hstore (loopTest_ne_store _ _ _ _)
  · exact Or.inl rfl
  · intro c
    rw [next_loopTest file k _ hle, hnone, next, sub_self, add_zero]

/-- A thread that locks the free mutex counts nothing. -/
theorem Counting.lock {file : List UInt8} {threads : Fin 8 → Option Runner} {shared : Shared}
    (h : Counting file threads shared) (k : Fin 8) (i : ℤ) (hthread : threads k = some (.lock i))
    (hfree : shared.mutex = none) :
    Counting file (Function.update threads k (some (.load i)))
      { shared with mutex := some k } := by
  have hsection : sectionStart (size file) k ≤ i ∧ i ≤ sectionEnd (size file) k :=
    h.inSection k _ hthread
  apply h.move k (.load i) { shared with mutex := some k } hsection
  · exact iff_of_true rfl trivial
  · intro j hj
    rw [hfree]
    exact iff_of_false (fun heq => hj (Option.some.inj heq).symm) (fun heq => nomatch heq)
  · intro i' value c hstore
    cases hstore
  · exact Or.inl rfl
  · intro c
    rw [hthread, next, next, sub_self, add_zero]

/-- A thread that reads a counter remembers its value. -/
theorem Counting.load {file : List UInt8} {threads : Fin 8 → Option Runner} {shared : Shared}
    (h : Counting file threads shared) (k : Fin 8) (i : ℤ) (c : Fin 128)
    (hthread : threads k = some (.load i)) (hc : counterAt file i = some c) :
    Counting file (Function.update threads k (some (.store i (shared.count c)))) shared := by
  have hsection : sectionStart (size file) k ≤ i ∧ i ≤ sectionEnd (size file) k :=
    h.inSection k _ hthread
  apply h.move k (.store i (shared.count c)) shared hsection
  · exact iff_of_true (h.inside k _ hthread trivial) trivial
  · intro j _
    rfl
  · intro i' value c' hstore hc'
    obtain ⟨rfl, rfl⟩ := Runner.store.inj hstore
    obtain rfl := Option.some.inj (hc.symm.trans hc')
    rfl
  · exact Or.inl rfl
  · intro c'
    rw [hthread, next, next, sub_self, add_zero]

/-- A thread that writes a counter counts its position. -/
theorem Counting.store {file : List UInt8} {threads : Fin 8 → Option Runner} {shared : Shared}
    (h : Counting file threads shared) (k : Fin 8) (i value : ℤ) (c : Fin 128)
    (hthread : threads k = some (.store i value)) (hc : counterAt file i = some c) :
    Counting file (Function.update threads k (some (.unlock i)))
      { shared with count := Function.update shared.count c (value + 1) } := by
  obtain ⟨hstart, -, hend⟩ := section_bounds file k
  obtain ⟨hfirst, hlast⟩ := h.inSection k _ hthread
  have hmutex := h.inside k _ hthread trivial
  apply h.move k (.unlock i) { shared with count := Function.update shared.count c (value + 1) }
    ⟨hfirst, hlast⟩
  · exact iff_of_true hmutex trivial
  · intro j _
    rfl
  · intro i' value' c' hstore
    cases hstore
  · exact Or.inr hmutex
  · intro c'
    have hsucc := counted_succ file _ i hstart hfirst (hlast.trans hend) c c' hc
    rw [hthread, next, next, hsucc]
    change Function.update shared.count c (value + 1) c' = _
    by_cases hcc : c' = c
    · subst hcc
      rw [Function.update_self, h.loaded k i value c' hthread hc]
      simp
    · rw [Function.update_of_ne hcc]
      simp [hcc]

/-- A thread that unlocks the mutex counts nothing. -/
theorem Counting.unlock {file : List UInt8} {threads : Fin 8 → Option Runner} {shared : Shared}
    (h : Counting file threads shared) (k : Fin 8) (i : ℤ)
    (hthread : threads k = some (.unlock i)) :
    Counting file
      (Function.update threads k (some (loopTest (sectionEnd (size file) k) (i + 1))))
      { shared with mutex := none } := by
  obtain ⟨hfirst, hlast⟩ := h.inSection k _ hthread
  have hmutex := h.inside k _ hthread trivial
  apply h.move k _ { shared with mutex := none } (loopTest_inSection file k (i + 1) (by omega))
  · exact iff_of_false (fun heq => nomatch heq) (not_inside_loopTest _ _)
  · intro j hj
    rw [hmutex]
    exact iff_of_false (fun heq => nomatch heq) (fun heq => hj (Option.some.inj heq).symm)
  · intro i' value c hstore
    exact absurd hstore (loopTest_ne_store _ _ _ _)
  · exact Or.inl rfl
  · intro c
    rw [next_loopTest file k (i + 1) (by omega), hthread, next, sub_self, add_zero]

/-- A step of a thread counts the position that it writes. -/
theorem Counting.step {file : List UInt8} {threads : Fin 8 → Option Runner} {shared : Shared}
    (h : Counting file threads shared) (k : Fin 8) (t t' : Runner) (shared' : Shared)
    (hthread : threads k = some t) (hstep : runner file k t shared = some (t', shared')) :
    Counting file (Function.update threads k (some t')) shared' := by
  cases runnerMoves_of_runner hstep with
  | lock i hfree => exact h.lock k i hthread hfree
  | load i c hc => exact h.load k i c hthread hc
  | store i value c hc => exact h.store k i value c hthread hc
  | unlock i => exact h.unlock k i hthread

/-- The threads count the positions they have passed in every reachable state. -/
theorem counting_of_reachable {file : List UInt8} {s : TeamState (Fin 8) Runner Shared Unit}
    (hs : (team file).Reachable s) : Counting file s.threads s.shared := by
  apply hs.threads_invariant (Counting file)
  · refine ⟨?_, ?_, ?_, ?_, ?_⟩
    · intro k t hnone
      cases hnone
    · intro k t hnone
      cases hnone
    · intro k hmutex
      cases hmutex
    · intro k i value c hnone
      cases hnone
    · intro c
      simp only [next, counted_self, Nat.cast_zero, Finset.sum_const_zero]
      rfl
  · intro threads shared k h hnone
    exact h.create k hnone
  · intro threads shared k t t' shared' h hthread hstep
    exact h.step k t t' shared' hthread hstep

/-- The steps that a thread has left. -/
def Runner.left (last : ℤ) : Runner → ℕ
  | .lock i => 4 * (last + 1 - i).toNat + 4
  | .load i => 4 * (last + 1 - i).toNat + 3
  | .store i _ => 4 * (last + 1 - i).toNat + 2
  | .unlock i => 4 * (last + 1 - i).toNat + 1
  | .exited => 0

/-- Every step uses up one. -/
theorem left_lt (file : List UInt8) (k : Fin 8) (t t' : Runner) (shared shared' : Shared)
    (hstep : runner file k t shared = some (t', shared')) :
    t'.left (sectionEnd (size file) k) < t.left (sectionEnd (size file) k) := by
  cases runnerMoves_of_runner hstep with
  | lock i hfree => exact Nat.lt_succ_self _
  | load i c hc => exact Nat.lt_succ_self _
  | store i value c hc => exact Nat.lt_succ_self _
  | unlock i =>
    rw [loopTest]
    split
    · simp only [Runner.left]
      omega
    · exact Nat.succ_pos _

/-- In a file whose bytes are below 128 some thread can step as long as one has not exited. -/
theorem exists_step {file : List UInt8} (hfits : Fits file)
    (hascii : ∀ b ∈ file, b.toNat < 128) {s : TeamState (Fin 8) Runner Shared Unit}
    (hs : (team file).Reachable s) (k : Fin 8) (t : Runner) (hthread : s.threads k = some t)
    (hexited : t.hasExited = false) : ∃ j, (team file).threadStep j s ≠ none := by
  have h := counting_of_reachable hs
  have hselects : ∀ j i, sectionStart (size file) j ≤ i ∧ i ≤ sectionEnd (size file) j →
      ∃ c, counterAt file i = some c := by
    rintro j i ⟨hfirst, hlast⟩
    obtain ⟨hstart, -, hend⟩ := section_bounds file j
    exact exists_counterAt file hfits hascii i (hstart.trans hfirst) (hlast.trans hend)
  have hinside : ∀ j t, s.threads j = some t → t.Inside →
      (team file).threadStep j s ≠ none := by
    intro j t hj ht
    have hsection := h.inSection j t hj
    cases t with
    | lock i => cases ht
    | load i =>
      obtain ⟨c, hc⟩ := hselects j i hsection
      simp [Team.threadStep, hj, team, runner, hc]
    | store i value =>
      obtain ⟨c, hc⟩ := hselects j i hsection
      simp [Team.threadStep, hj, team, runner, hc]
    | unlock i => simp [Team.threadStep, hj, team, runner]
    | exited => cases ht
  cases hmutex : s.shared.mutex with
  | some j =>
    obtain ⟨t', hj, ht'⟩ := h.holder j hmutex
    exact ⟨j, hinside j t' hj ht'⟩
  | none =>
    refine ⟨k, ?_⟩
    cases t with
    | lock i => simp [Team.threadStep, hthread, team, runner, hmutex]
    | load i => exact hinside k _ hthread trivial
    | store i value => exact hinside k _ hthread trivial
    | unlock i => exact hinside k _ hthread trivial
    | exited => cases hexited

/-- Every schedule ends with the number of occurrences of each character in its counter. -/
theorem delivers_occurrences (file : List UInt8) (hfits : Fits file)
    (hascii : ∀ b ∈ file, b.toNat < 128) :
    (team file).Delivers fun s => ∀ c, s.shared.count c = occurrences file c := by
  refine ⟨?_, ?_, ?_⟩
  · refine ⟨(team file).remaining (fun k t => t.left (sectionEnd (size file) k))
      (team file).initial, ?_⟩
    intro schedule s hrun
    apply (team file).schedule_length_le _ _ schedule hrun
    intro s' _ k t t' shared _ hstep
    exact left_lt file k t t' s'.shared shared hstep
  · intro s hs hstuck
    exact hs.returned_of_stuck (exists_step hfits hascii hs) hstuck
  · intro s hs hreturned c
    have hexited := (hs.returned hreturned).1
    have hnext : ∀ k, next file k (s.threads k) = sectionEnd (size file) k + 1 := by
      intro k
      obtain ⟨t, hthread, ht⟩ := hexited k
      rw [hthread]
      cases t <;> first | rfl | cases ht
    rw [(counting_of_reachable hs).count c, ← sum_counted file hfits hascii c]
    simp only [hnext, Nat.cast_sum]

end Coursework.Histogram.ASCIICountS
