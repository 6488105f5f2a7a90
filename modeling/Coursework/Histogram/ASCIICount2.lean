import Coursework.Concurrency.ForkJoin
import Coursework.Histogram.Sections

/-!
# Counting with one shared array and no mutex

Each thread reads the counter that its character selects and writes it back increased by
one, and other threads may step between the two. An access outside an array has no step.
-/

namespace Coursework.Histogram.ASCIICount2

open Concurrency

/-- The point a thread has reached, with its position `i` and the counter it has read. -/
inductive Runner where
  | load (i : ℤ)
  | store (i : ℤ) (value : ℤ)
  | exited

/-- The loop test. -/
def loopTest (last i : ℤ) : Runner := if i ≤ last then .load i else .exited

/-- A step of `runner` on the array `count`, if it has one. -/
def runner (file : List UInt8) (k : Fin 8) :
    Runner → (Fin 128 → ℤ) → Option (Runner × (Fin 128 → ℤ))
  | .load i, count =>
    match counterAt file i with
    | some c => some (.store i (count c), count)
    | none => none
  | .store i value, count =>
    match counterAt file i with
    | some c =>
      some (loopTest (sectionEnd (size file) k) (i + 1), Function.update count c (value + 1))
    | none => none
  | .exited, _ => none

/-- Whether a thread has called `pthread_exit`. -/
def Runner.hasExited : Runner → Bool
  | .exited => true
  | _ => false

/-- A thread that has exited has no step. -/
theorem runner_of_hasExited (file : List UInt8) (k : Fin 8) (t : Runner) (count : Fin 128 → ℤ)
    (hexited : t.hasExited = true) : runner file k t count = none := by
  cases t <;> first | rfl | cases hexited

/-- The threads of the program and its main thread. -/
def team (file : List UInt8) : Team (Fin 8) Runner (Fin 128 → ℤ) Unit where
  start k := loopTest (sectionEnd (size file) k) (sectionStart (size file) k)
  step := runner file
  exited := Runner.hasExited
  exited_step := runner_of_hasExited file
  merge _ _ _ := ()
  shared := fun _ => 0
  result := ()
  order := threadOrder
  nodup := nodup_threadOrder
  complete := mem_threadOrder

/-- `main`, which starts no thread if the file does not fit into the buffer. -/
def main (file : List UInt8) : Option (Team (Fin 8) Runner (Fin 128 → ℤ) Unit) :=
  if Fits file then some (team file) else none

/-- The position of a thread lies in its section. -/
def Runner.InSection (file : List UInt8) (k : Fin 8) : Runner → Prop
  | .load i | .store i _ => sectionStart (size file) k ≤ i ∧ i ≤ sectionEnd (size file) k
  | .exited => True

/-- The loop test leads to a position of the section or to the end. -/
theorem loopTest_inSection (file : List UInt8) (k : Fin 8) (i : ℤ)
    (hi : sectionStart (size file) k ≤ i) :
    (loopTest (sectionEnd (size file) k) i).InSection file k := by
  rw [loopTest]
  split
  · rename_i hle
    exact ⟨hi, hle⟩
  · trivial

/-- A step stays in the section. -/
theorem Runner.InSection.step {file : List UInt8} {k : Fin 8} {t t' : Runner}
    {count count' : Fin 128 → ℤ} (h : t.InSection file k)
    (hstep : runner file k t count = some (t', count')) : t'.InSection file k := by
  cases t with
  | load i =>
    cases hc : counterAt file i with
    | none => simp [runner, hc] at hstep
    | some c =>
      simp only [runner, hc, Option.some.injEq, Prod.mk.injEq] at hstep
      exact hstep.1 ▸ h
  | store i value =>
    cases hc : counterAt file i with
    | none => simp [runner, hc] at hstep
    | some c =>
      simp only [runner, hc, Option.some.injEq, Prod.mk.injEq] at hstep
      exact hstep.1 ▸ loopTest_inSection file k (i + 1) (h.1.trans (Int.le_add_one le_rfl))
  | exited => cases hstep

/-- Every thread is in its section in every reachable state. -/
theorem inSection_of_reachable {file : List UInt8} {s : TeamState (Fin 8) Runner (Fin 128 → ℤ) Unit}
    (hs : (team file).Reachable s) (k : Fin 8) (t : Runner) (hthread : s.threads k = some t) :
    t.InSection file k := by
  apply hs.thread_invariant (fun k t => t.InSection file k) _ _ k t hthread
  · intro k
    exact loopTest_inSection file k _ le_rfl
  · intro k t t' count count' h hstep
    exact h.step hstep

end Coursework.Histogram.ASCIICount2
