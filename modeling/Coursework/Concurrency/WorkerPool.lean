import Mathlib.Algebra.BigOperators.Group.Finset.Basic
import Mathlib.Data.Fintype.Basic
import Mathlib.Logic.Function.Basic
import Mathlib.Logic.Relation

/-!
# A pool of workers with semaphores and a mutex

A main thread starts the workers one after the other, and joins them in the same order.
A worker runs a number of rounds: it waits on a semaphore, locks the common mutex, runs
its critical section on the shared data, unlocks the mutex and posts to a semaphore. In
every state each thread has at most one next step, and any thread that has one may take
it.
-/

namespace Coursework.Concurrency

/-- The point a worker has reached: before its start, in its loop, or at its end. -/
inductive Point where
  | unstarted
  | wait
  | lock
  | critical
  | unlock
  | post
  | exited
  deriving DecidableEq, Repr

/-- A worker: the rounds it has completed, and the point it has reached. -/
structure Worker where
  counter : ℕ
  point : Point
  deriving DecidableEq, Repr

/-- The loop test, with `counter` rounds completed. -/
def loopHead (rounds counter : ℕ) : Worker :=
  ⟨counter, if counter < rounds then .wait else .exited⟩

/-- The completed waits of a worker. -/
def Worker.waits (w : Worker) : ℕ :=
  match w.point with
  | .lock | .critical | .unlock | .post => w.counter + 1
  | .unstarted | .wait | .exited => w.counter

/-- The completed critical sections of a worker. -/
def Worker.entries (w : Worker) : ℕ :=
  match w.point with
  | .unlock | .post => w.counter + 1
  | .unstarted | .wait | .lock | .critical | .exited => w.counter

/-- A worker holds the mutex at these points. -/
def Worker.Inside (w : Worker) : Prop := w.point = .critical ∨ w.point = .unlock

/-- The rounds of a worker fit its point. -/
def Worker.Valid (rounds : ℕ) (w : Worker) : Prop :=
  match w.point with
  | .unstarted => w.counter = 0
  | .exited => w.counter = rounds
  | .wait | .lock | .critical | .unlock | .post => w.counter < rounds

/-- The steps a worker has left. -/
def Worker.remaining (rounds : ℕ) (w : Worker) : ℕ :=
  match w.point with
  | .unstarted | .wait => 5 * (rounds - w.counter)
  | .lock => 5 * (rounds - w.counter) - 1
  | .critical => 5 * (rounds - w.counter) - 2
  | .unlock => 5 * (rounds - w.counter) - 3
  | .post => 5 * (rounds - w.counter) - 4
  | .exited => 0

/-- The program of a pool: the semaphores each worker uses, its rounds and its critical section, the
initial permits and data, and the order in which the main thread starts and joins the workers. -/
structure Pool (ι κ σ : Type*) where
  waitsOn : ι → κ
  postsTo : ι → κ
  rounds : ι → ℕ
  body : ι → ℕ → σ → σ
  permits : κ → ℕ
  shared : σ
  order : List ι
  nodup : order.Nodup
  complete : ∀ i, i ∈ order

/-- The state of a pool: its workers, the starts and joins that the main thread has completed, the
semaphores, the holder of the mutex, and the shared data. -/
structure PoolState (ι κ σ : Type*) where
  workers : ι → Worker
  mainDone : ℕ
  semaphores : κ → ℕ
  mutex : Option ι
  shared : σ

/-- A thread of a pool. -/
inductive Actor (ι : Type*) where
  | main
  | worker (i : ι)

variable {ι κ σ : Type*} [DecidableEq ι] [DecidableEq κ]

/-- The state with one worker replaced. -/
def PoolState.setWorker (s : PoolState ι κ σ) (i : ι) (w : Worker) : PoolState ι κ σ :=
  { s with workers := Function.update s.workers i w }

/-- The state with one worker moved to another point of its round. -/
def PoolState.moveTo (s : PoolState ι κ σ) (i : ι) (point : Point) : PoolState ι κ σ :=
  s.setWorker i ⟨(s.workers i).counter, point⟩

/-- The step of a worker, if it has one. -/
def Pool.workerStep (pool : Pool ι κ σ) (i : ι) (s : PoolState ι κ σ) :
    Option (PoolState ι κ σ) :=
  match (s.workers i).point with
  | .unstarted => none
  | .wait =>
    let x := pool.waitsOn i
    if 0 < s.semaphores x then
      some { s.moveTo i .lock with
        semaphores := Function.update s.semaphores x (s.semaphores x - 1) }
    else none
  | .lock =>
    if s.mutex.isNone then some { s.moveTo i .critical with mutex := some i } else none
  | .critical =>
    some { s.moveTo i .unlock with shared := pool.body i (s.workers i).counter s.shared }
  | .unlock => some { s.moveTo i .post with mutex := none }
  | .post =>
    let x := pool.postsTo i
    some { s.setWorker i (loopHead (pool.rounds i) ((s.workers i).counter + 1)) with
      semaphores := Function.update s.semaphores x (s.semaphores x + 1) }
  | .exited => none

/-- The step of the main thread, if it has one: start the next worker, or join the next one. -/
def Pool.mainStep (pool : Pool ι κ σ) (s : PoolState ι κ σ) : Option (PoolState ι κ σ) :=
  match pool.order[s.mainDone]? with
  | some i => some { s.setWorker i (loopHead (pool.rounds i) 0) with mainDone := s.mainDone + 1 }
  | none =>
    match pool.order[s.mainDone - pool.order.length]? with
    | some i =>
      if (s.workers i).point = .exited then some { s with mainDone := s.mainDone + 1 } else none
    | none => none

/-- The step of a thread, if it has one. -/
def Pool.step (pool : Pool ι κ σ) : Actor ι → PoolState ι κ σ → Option (PoolState ι κ σ)
  | .main, s => pool.mainStep s
  | .worker i, s => pool.workerStep i s

/-- No worker is started and the mutex is free. -/
def Pool.initial (pool : Pool ι κ σ) : PoolState ι κ σ where
  workers _ := ⟨0, .unstarted⟩
  mainDone := 0
  semaphores := pool.permits
  mutex := none
  shared := pool.shared

/-- Some thread takes a step. -/
def Pool.Step (pool : Pool ι κ σ) (s s' : PoolState ι κ σ) : Prop :=
  ∃ actor, pool.step actor s = some s'

/-- The states of all interleavings. -/
def Pool.Reachable (pool : Pool ι κ σ) (s : PoolState ι κ σ) : Prop :=
  Relation.ReflTransGen pool.Step pool.initial s

/-- Run the threads of a schedule one step each, as long as each has one. -/
def Pool.run (pool : Pool ι κ σ) : List (Actor ι) → PoolState ι κ σ → Option (PoolState ι κ σ)
  | [], s => some s
  | actor :: rest, s => (pool.step actor s).bind (pool.run rest)

/-- A schedule leads to a reachable state. -/
theorem Pool.Reachable.run {pool : Pool ι κ σ} {s s' : PoolState ι κ σ} (schedule : List (Actor ι))
    (h : pool.Reachable s) (hrun : pool.run schedule s = some s') : pool.Reachable s' := by
  induction schedule generalizing s with
  | nil =>
    obtain rfl := Option.some.inj hrun
    exact h
  | cons actor rest ih =>
    obtain ⟨next, hstep, hrest⟩ := Option.bind_eq_some_iff.mp hrun
    exact ih (h.tail ⟨actor, hstep⟩) hrest

/-- No thread has a step. -/
def Pool.Stuck (pool : Pool ι κ σ) (s : PoolState ι κ σ) : Prop :=
  ∀ actor, pool.step actor s = none

/-- All workers have ended. -/
def PoolState.AllExited (s : PoolState ι κ σ) : Prop := ∀ i, (s.workers i).point = .exited

instance [Fintype ι] (s : PoolState ι κ σ) : Decidable s.AllExited :=
  inferInstanceAs (Decidable (∀ i, (s.workers i).point = .exited))

/-- The main thread has joined all workers. -/
def Pool.Returned (pool : Pool ι κ σ) (s : PoolState ι κ σ) : Prop :=
  s.mainDone = 2 * pool.order.length

/-- What a step can do, with the condition under which it is possible. -/
inductive Pool.Moves (pool : Pool ι κ σ) (s : PoolState ι κ σ) : PoolState ι κ σ → Prop where
  | wait (i : ι) (hpoint : (s.workers i).point = .wait)
      (hpermit : 0 < s.semaphores (pool.waitsOn i)) :
      pool.Moves s { s.moveTo i .lock with
        semaphores := Function.update s.semaphores (pool.waitsOn i)
          (s.semaphores (pool.waitsOn i) - 1) }
  | lock (i : ι) (hpoint : (s.workers i).point = .lock) (hfree : s.mutex = none) :
      pool.Moves s { s.moveTo i .critical with mutex := some i }
  | critical (i : ι) (hpoint : (s.workers i).point = .critical) :
      pool.Moves s
        { s.moveTo i .unlock with shared := pool.body i (s.workers i).counter s.shared }
  | unlock (i : ι) (hpoint : (s.workers i).point = .unlock) :
      pool.Moves s { s.moveTo i .post with mutex := none }
  | post (i : ι) (hpoint : (s.workers i).point = .post) :
      pool.Moves s { s.setWorker i (loopHead (pool.rounds i) ((s.workers i).counter + 1)) with
        semaphores := Function.update s.semaphores (pool.postsTo i)
          (s.semaphores (pool.postsTo i) + 1) }
  | start (i : ι) (hnext : pool.order[s.mainDone]? = some i) :
      pool.Moves s
        { s.setWorker i (loopHead (pool.rounds i) 0) with mainDone := s.mainDone + 1 }
  | join (i : ι) (hall : pool.order.length ≤ s.mainDone)
      (hnext : pool.order[s.mainDone - pool.order.length]? = some i)
      (hexited : (s.workers i).point = .exited) :
      pool.Moves s { s with mainDone := s.mainDone + 1 }

/-- A step is one of these moves. -/
theorem Pool.Step.moves {pool : Pool ι κ σ} {s s' : PoolState ι κ σ} (h : pool.Step s s') :
    pool.Moves s s' := by
  obtain ⟨actor, hstep⟩ := h
  cases actor with
  | main =>
    simp only [Pool.step, Pool.mainStep] at hstep
    cases hnext : pool.order[s.mainDone]? with
    | some i =>
      simp only [hnext, Option.some.injEq] at hstep
      exact hstep ▸ .start i hnext
    | none =>
      cases hjoin : pool.order[s.mainDone - pool.order.length]? with
      | none => simp [hnext, hjoin] at hstep
      | some i =>
        by_cases hexited : (s.workers i).point = .exited
        · simp only [hnext, hjoin, if_pos hexited, Option.some.injEq] at hstep
          exact hstep ▸ .join i (List.getElem?_eq_none_iff.mp hnext) hjoin hexited
        · simp [hnext, hjoin, hexited] at hstep
  | worker i =>
    simp only [Pool.step, Pool.workerStep] at hstep
    cases hpoint : (s.workers i).point with
    | unstarted => simp [hpoint] at hstep
    | wait =>
      by_cases hpermit : 0 < s.semaphores (pool.waitsOn i)
      · simp only [hpoint, if_pos hpermit, Option.some.injEq] at hstep
        exact hstep ▸ .wait i hpoint hpermit
      · simp [hpoint, hpermit] at hstep
    | lock =>
      by_cases hfree : s.mutex.isNone = true
      · simp only [hpoint, if_pos hfree, Option.some.injEq] at hstep
        exact hstep ▸ .lock i hpoint (Option.isNone_iff_eq_none.mp hfree)
      · simp [hpoint, hfree] at hstep
    | critical =>
      simp only [hpoint, Option.some.injEq] at hstep
      exact hstep ▸ .critical i hpoint
    | unlock =>
      simp only [hpoint, Option.some.injEq] at hstep
      exact hstep ▸ .unlock i hpoint
    | post =>
      simp only [hpoint, Option.some.injEq] at hstep
      exact hstep ▸ .post i hpoint
    | exited => simp [hpoint] at hstep

end Coursework.Concurrency
