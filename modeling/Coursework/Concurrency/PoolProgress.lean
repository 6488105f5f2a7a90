import Coursework.Concurrency.PoolInvariant

/-!
# How the runs of a pool end

Every step of a pool uses up a part of the work that is left, so every run can be
continued to a stuck state. In a stuck state every worker has ended or waits on a
semaphore without permits, and the main thread has returned only if all workers have
ended.
-/

namespace Coursework.Concurrency

variable {ι κ σ : Type*} [DecidableEq ι] [DecidableEq κ] [Fintype ι] {pool : Pool ι κ σ}
  {s s' : PoolState ι κ σ}

/-- The steps that the workers and the main thread have left. -/
def Pool.remaining (pool : Pool ι κ σ) (s : PoolState ι κ σ) : ℕ :=
  (∑ i, (s.workers i).remaining (pool.rounds i)) + (2 * pool.order.length - s.mainDone)

/-- At the loop test a worker has the steps of its further rounds left. -/
theorem remaining_loopHead (rounds counter : ℕ) :
    (loopHead rounds counter).remaining rounds = 5 * (rounds - counter) := by
  unfold loopHead
  split_ifs with hlt
  · rfl
  · simp [Worker.remaining, Nat.sub_eq_zero_of_le (Nat.le_of_not_lt hlt)]

/-- A worker that has one step less left lowers their number for the pool by one. -/
theorem sum_remaining_add_one (workers : ι → Worker) (rounds : ι → ℕ) (i : ι) (w : Worker)
    (h : w.remaining (rounds i) + 1 = (workers i).remaining (rounds i)) :
    ∑ j, (Function.update workers i w j).remaining (rounds j) + 1 =
      ∑ j, (workers j).remaining (rounds j) := by
  have hothers : ∑ j ∈ Finset.univ.erase i, (Function.update workers i w j).remaining (rounds j) =
      ∑ j ∈ Finset.univ.erase i, (workers j).remaining (rounds j) := by
    refine Finset.sum_congr rfl fun j hj => ?_
    rw [Function.update_of_ne (Finset.ne_of_mem_erase hj)]
  have hafter := Finset.add_sum_erase Finset.univ
    (fun j => (Function.update workers i w j).remaining (rounds j)) (Finset.mem_univ i)
  have hbefore := Finset.add_sum_erase Finset.univ
    (fun j => (workers j).remaining (rounds j)) (Finset.mem_univ i)
  simp only [Function.update_self] at hafter
  omega

/-- Every step from a consistent state is one of the steps left. -/
theorem Pool.Consistent.remaining_add_one (h : pool.Consistent s) (hmoves : pool.Moves s s') :
    pool.remaining s' + 1 = pool.remaining s := by
  have hround : ∀ (i : ι) (w : Worker),
      w.remaining (pool.rounds i) + 1 = (s.workers i).remaining (pool.rounds i) →
        pool.remaining (s.setWorker i w) + 1 = pool.remaining s := by
    intro i w hw
    have hsum := sum_remaining_add_one s.workers pool.rounds i w hw
    rw [Pool.remaining, Pool.remaining, ← hsum, Nat.add_right_comm]
    rfl
  cases hmoves with
  | wait i hpoint _ =>
    have hcounter := h.counter_lt i (by simp [hpoint]) (by simp [hpoint])
    exact hround i ⟨(s.workers i).counter, .lock⟩
      (by simp only [Worker.remaining, hpoint]; omega)
  | lock i hpoint _ =>
    have hcounter := h.counter_lt i (by simp [hpoint]) (by simp [hpoint])
    exact hround i ⟨(s.workers i).counter, .critical⟩
      (by simp only [Worker.remaining, hpoint]; omega)
  | critical i hpoint =>
    have hcounter := h.counter_lt i (by simp [hpoint]) (by simp [hpoint])
    exact hround i ⟨(s.workers i).counter, .unlock⟩
      (by simp only [Worker.remaining, hpoint]; omega)
  | unlock i hpoint =>
    have hcounter := h.counter_lt i (by simp [hpoint]) (by simp [hpoint])
    exact hround i ⟨(s.workers i).counter, .post⟩
      (by simp only [Worker.remaining, hpoint]; omega)
  | post i hpoint =>
    have hcounter := h.counter_lt i (by simp [hpoint]) (by simp [hpoint])
    exact hround i (loopHead (pool.rounds i) ((s.workers i).counter + 1))
      (by rw [remaining_loopHead]; simp only [Worker.remaining, hpoint]; omega)
  | start i hnext =>
    have hlt := (List.getElem?_eq_some_iff.mp hnext).1
    have hpoint := h.point_of_next hnext
    have hcounter := h.valid i
    simp only [Worker.Valid, hpoint] at hcounter
    have hsame : ∑ j, (Function.update s.workers i (loopHead (pool.rounds i) 0) j).remaining
        (pool.rounds j) = ∑ j, (s.workers j).remaining (pool.rounds j) := by
      apply Finset.sum_congr rfl
      intro j _
      by_cases hj : j = i
      · subst hj
        rw [Function.update_self, remaining_loopHead]
        simp only [Worker.remaining, hpoint, hcounter]
      · rw [Function.update_of_ne hj]
    simp only [Pool.remaining, PoolState.setWorker, hsame]
    omega
  | join i hall hnext _ =>
    have hlt := (List.getElem?_eq_some_iff.mp hnext).1
    simp only [Pool.remaining]
    omega

/-- The steps taken and the steps left are those left at first. -/
theorem Pool.Reachable.length_add_remaining (schedule : List (Actor ι)) (h : pool.Reachable s)
    (hrun : pool.run schedule s = some s') :
    schedule.length + pool.remaining s' = pool.remaining s := by
  induction schedule generalizing s with
  | nil =>
    obtain rfl := Option.some.inj hrun
    exact Nat.zero_add _
  | cons actor rest ih =>
    obtain ⟨next, hstep, hrest⟩ := Option.bind_eq_some_iff.mp hrun
    have hmoves : pool.Step s next := ⟨actor, hstep⟩
    have hone := h.consistent.remaining_add_one hmoves.moves
    have hleft := ih (h.tail hmoves) hrest
    rw [List.length_cons]
    omega

/-- Every run can be continued until no thread has a step. -/
theorem Pool.Reachable.exists_stuck (h : pool.Reachable s) :
    ∃ s', Relation.ReflTransGen pool.Step s s' ∧ pool.Stuck s' := by
  induction hn : pool.remaining s using Nat.strong_induction_on generalizing s with
  | _ n ih =>
    by_cases hstuck : pool.Stuck s
    · exact ⟨s, .refl, hstuck⟩
    · unfold Pool.Stuck at hstuck
      push Not at hstuck
      obtain ⟨actor, hactor⟩ := hstuck
      obtain ⟨next, hnext⟩ := Option.ne_none_iff_exists'.mp hactor
      have hstep : pool.Step s next := ⟨actor, hnext⟩
      have hlt := Nat.lt_of_succ_le (h.consistent.remaining_add_one hstep.moves).le
      obtain ⟨s', hrun, hend⟩ := ih _ (hn ▸ hlt) (h.tail hstep) rfl
      exact ⟨s', hrun.head hstep, hend⟩

omit [Fintype ι] in
/-- In a stuck state all workers have been started. -/
theorem Pool.Stuck.all_started (hstuck : pool.Stuck s) : pool.order.length ≤ s.mainDone := by
  have hmain := hstuck .main
  simp only [Pool.step, Pool.mainStep] at hmain
  cases hnext : pool.order[s.mainDone]? with
  | none => exact List.getElem?_eq_none_iff.mp hnext
  | some i => simp [hnext] at hmain

/-- In a stuck state nobody holds the mutex. -/
theorem Pool.Consistent.mutex_of_stuck (h : pool.Consistent s) (hstuck : pool.Stuck s) :
    s.mutex = none := by
  cases hmutex : s.mutex with
  | none => rfl
  | some i =>
    have hworker := hstuck (.worker i)
    simp only [Pool.step, Pool.workerStep] at hworker
    cases (h.mutex i).mp hmutex with
    | inl hpoint => simp [hpoint] at hworker
    | inr hpoint => simp [hpoint] at hworker

/-- In a stuck state every worker has ended, or waits on a semaphore without permits. -/
theorem Pool.Consistent.worker_of_stuck (h : pool.Consistent s) (hstuck : pool.Stuck s) (i : ι) :
    (s.workers i).point = .exited ∨
      (s.workers i).point = .wait ∧ s.semaphores (pool.waitsOn i) = 0 := by
  have hworker := hstuck (.worker i)
  simp only [Pool.step, Pool.workerStep] at hworker
  cases hpoint : (s.workers i).point with
  | unstarted =>
    have hstarted := (h.started i).mp hpoint
    simp [List.drop_eq_nil_of_le hstuck.all_started] at hstarted
  | wait =>
    right
    refine ⟨rfl, ?_⟩
    by_contra hpermit
    simp [hpoint, Nat.pos_of_ne_zero hpermit] at hworker
  | lock => simp [hpoint, h.mutex_of_stuck hstuck] at hworker
  | critical => simp [hpoint] at hworker
  | unlock => simp [hpoint] at hworker
  | post => simp [hpoint] at hworker
  | exited => exact .inl rfl

/-- In a stuck state no worker is in the middle of a round. -/
theorem Pool.Consistent.waits_of_stuck (h : pool.Consistent s) (hstuck : pool.Stuck s) (i : ι) :
    (s.workers i).waits = (s.workers i).counter := by
  cases h.worker_of_stuck hstuck i with
  | inl hexited => simp only [Worker.waits, hexited]
  | inr hwait => simp only [Worker.waits, hwait.1]

omit [DecidableEq ι] in
/-- Workers that have ended have completed all their rounds. -/
theorem Pool.Consistent.sum_counter_of_exited {τ : Type*} [Fintype τ] (h : pool.Consistent s)
    (f : τ → ι) (n : ℕ) (hrounds : ∀ j, pool.rounds (f j) = n)
    (hexited : ∀ j, (s.workers (f j)).point = .exited) :
    ∑ j, (s.workers (f j)).counter = Fintype.card τ * n := by
  have hcounter : ∀ j, (s.workers (f j)).counter = n := by
    intro j
    have hvalid := h.valid (f j)
    simp only [Worker.Valid, hexited j, hrounds j] at hvalid
    exact hvalid
  simp [hcounter]

omit [DecidableEq ι] in
/-- A worker has completed at most all its rounds. -/
theorem Pool.Consistent.counter_le (h : pool.Consistent s) (i : ι) :
    (s.workers i).counter ≤ pool.rounds i := by
  have hvalid := h.valid i
  unfold Worker.Valid at hvalid
  cases hpoint : (s.workers i).point <;> simp_all <;> omega

omit [DecidableEq ι] in
/-- Workers of which one still waits have not completed all their rounds. -/
theorem Pool.Consistent.sum_counter_lt {τ : Type*} [Fintype τ] (h : pool.Consistent s)
    (f : τ → ι) (n : ℕ) (hrounds : ∀ j, pool.rounds (f j) = n) (j : τ)
    (hwait : (s.workers (f j)).point = .wait) :
    ∑ j, (s.workers (f j)).counter < Fintype.card τ * n := by
  have hlt := h.counter_lt (f j) (by simp [hwait]) (by simp [hwait])
  rw [hrounds j] at hlt
  calc ∑ j, (s.workers (f j)).counter
      < ∑ _j : τ, n :=
        Finset.sum_lt_sum (fun k _ => hrounds k ▸ h.counter_le (f k)) ⟨j, Finset.mem_univ j, hlt⟩
    _ = Fintype.card τ * n := by simp

omit [DecidableEq ι] in
/-- The main thread returns only after all workers have ended. -/
theorem Pool.Consistent.allExited_of_returned (h : pool.Consistent s)
    (hreturned : pool.Returned s) : s.AllExited := by
  intro i
  obtain ⟨k, hk⟩ := List.getElem?_of_mem (pool.complete i)
  have hlt := (List.getElem?_eq_some_iff.mp hk).1
  unfold Pool.Returned at hreturned
  exact h.joined k i hk (by omega)

omit [Fintype ι] in
/-- The main thread starts and joins each worker once. -/
theorem Pool.Reachable.mainDone_le (h : pool.Reachable s) : s.mainDone ≤ 2 * pool.order.length := by
  induction h with
  | refl => exact Nat.zero_le _
  | tail _ hstep ih =>
    cases hstep.moves with
    | start i hnext =>
      have hlt := (List.getElem?_eq_some_iff.mp hnext).1
      change _ + 1 ≤ _
      omega
    | join i hall hnext _ =>
      have hlt := (List.getElem?_eq_some_iff.mp hnext).1
      change _ + 1 ≤ _
      omega
    | wait | lock | critical | unlock | post => exact ih

omit [Fintype ι] in
/-- Once all workers have ended nothing keeps the main thread from returning. -/
theorem Pool.Reachable.returned_of_stuck (h : pool.Reachable s) (hstuck : pool.Stuck s)
    (hexited : s.AllExited) : pool.Returned s := by
  have hstarted := hstuck.all_started
  have hmain := hstuck .main
  rw [Pool.step, Pool.mainStep, List.getElem?_eq_none hstarted] at hmain
  cases hjoin : pool.order[s.mainDone - pool.order.length]? with
  | none =>
    have hlast := List.getElem?_eq_none_iff.mp hjoin
    have hle := h.mainDone_le
    unfold Pool.Returned
    omega
  | some i =>
    simp only [hjoin, if_pos (hexited i)] at hmain
    cases hmain

/-- The main thread has returned exactly when no steps are left. -/
theorem Pool.Reachable.returned_iff (h : pool.Reachable s) :
    pool.Returned s ↔ pool.remaining s = 0 := by
  have hle := h.mainDone_le
  constructor
  · intro hreturned
    have hended : ∀ i, (s.workers i).remaining (pool.rounds i) = 0 := fun i => by
      rw [Worker.remaining, h.consistent.allExited_of_returned hreturned i]
    rw [Pool.remaining, hreturned, Nat.sub_self, Nat.add_zero]
    exact Finset.sum_eq_zero fun i _ => hended i
  · intro hnone
    unfold Pool.remaining at hnone
    unfold Pool.Returned
    omega

/-- Where no steps are left no thread has one. -/
theorem Pool.Consistent.stuck_of_remaining (h : pool.Consistent s) (hnone : pool.remaining s = 0) :
    pool.Stuck s := by
  intro actor
  by_contra hsome
  obtain ⟨next, hnext⟩ := Option.ne_none_iff_exists'.mp hsome
  have hone := h.remaining_add_one (Pool.Step.moves ⟨actor, hnext⟩)
  omega

end Coursework.Concurrency
