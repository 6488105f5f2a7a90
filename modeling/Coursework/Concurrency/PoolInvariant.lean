import Coursework.Concurrency.WorkerPool
import Coursework.Transition.UpdateSum
import Mathlib.Tactic.SplitIfs

/-!
# What holds in every reachable state of a pool

Every semaphore counts its permits: its value and the completed waits balance its initial
permits and the completed posts. The holder of the mutex is the one worker inside its
critical section. An invariant of the shared data may rely on both, at the only step
that changes the data.
-/

namespace Coursework.Concurrency

open Transition

variable {ι κ σ : Type*} [DecidableEq ι] [DecidableEq κ]

/-- The loop test counts the rounds completed so far. -/
@[simp] theorem loopHead_counter (rounds counter : ℕ) : (loopHead rounds counter).counter = counter :=
  rfl

/-- At the loop test a worker has waited once for each completed round. -/
@[simp] theorem waits_loopHead (rounds counter : ℕ) : (loopHead rounds counter).waits = counter := by
  unfold loopHead
  split_ifs <;> rfl

/-- At the loop test a worker has entered once for each completed round. -/
@[simp] theorem entries_loopHead (rounds counter : ℕ) :
    (loopHead rounds counter).entries = counter := by
  unfold loopHead
  split_ifs <;> rfl

/-- At the loop test a worker is outside its critical section. -/
theorem not_inside_loopHead (rounds counter : ℕ) : ¬(loopHead rounds counter).Inside := by
  unfold loopHead Worker.Inside
  split_ifs <;> simp

/-- At the loop test a worker is started. -/
theorem loopHead_point_ne (rounds counter : ℕ) : (loopHead rounds counter).point ≠ .unstarted := by
  unfold loopHead
  split_ifs <;> simp

/-- The loop test ends a worker after its last round. -/
theorem valid_loopHead (rounds counter : ℕ) (h : counter ≤ rounds) :
    (loopHead rounds counter).Valid rounds := by
  unfold loopHead Worker.Valid
  split_ifs with hlt
  · exact hlt
  · exact Nat.le_antisymm h (Nat.le_of_not_lt hlt)

/-- A worker has entered at most as often as it has waited. -/
theorem entries_le_waits (w : Worker) : w.entries ≤ w.waits := by
  obtain ⟨counter, point⟩ := w
  cases point <;> simp [Worker.entries, Worker.waits]

/-- A worker has completed at most as many rounds as it has entered. -/
theorem counter_le_entries (w : Worker) : w.counter ≤ w.entries := by
  obtain ⟨counter, point⟩ := w
  cases point <;> simp [Worker.entries]

/-- The invariant of the threads, the semaphores and the mutex. -/
structure Pool.Consistent [Fintype ι] (pool : Pool ι κ σ) (s : PoolState ι κ σ) : Prop where
  semaphore : ∀ x, s.semaphores x + ∑ i with pool.waitsOn i = x, (s.workers i).waits =
    pool.permits x + ∑ i with pool.postsTo i = x, (s.workers i).counter
  mutex : ∀ i, s.mutex = some i ↔ (s.workers i).Inside
  valid : ∀ i, (s.workers i).Valid (pool.rounds i)
  started : ∀ i, (s.workers i).point = .unstarted ↔ i ∈ pool.order.drop s.mainDone
  joined : ∀ k i, pool.order[k]? = some i → pool.order.length + k < s.mainDone →
    (s.workers i).point = .exited

section Invariant

variable [Fintype ι] {pool : Pool ι κ σ} {s s' : PoolState ι κ σ}

omit [DecidableEq ι] in
/-- The initial state is consistent. -/
theorem Pool.consistent_initial (pool : Pool ι κ σ) : pool.Consistent pool.initial where
  semaphore x := by simp [Pool.initial, Worker.waits]
  mutex i := by simp [Pool.initial, Worker.Inside]
  valid i := rfl
  started i := by simpa [Pool.initial] using pool.complete i
  joined k i _ hlt := by simp [Pool.initial] at hlt

/-- The balance of the semaphores is kept by a worker that moves without a semaphore. -/
theorem Pool.Consistent.semaphore_setWorker (h : pool.Consistent s) (i : ι) (w : Worker)
    (hwaits : w.waits = (s.workers i).waits) (hcounter : w.counter = (s.workers i).counter) (x : κ) :
    s.semaphores x + ∑ j with pool.waitsOn j = x, (Function.update s.workers i w j).waits =
      pool.permits x +
        ∑ j with pool.postsTo j = x, (Function.update s.workers i w j).counter := by
  rw [sum_update_of_eq _ Worker.waits s.workers i w hwaits,
    sum_update_of_eq _ Worker.counter s.workers i w hcounter]
  exact h.semaphore x

/-- The holder of the mutex is the same after a move that stays inside or stays outside. -/
theorem Pool.Consistent.mutex_setWorker (h : pool.Consistent s) (i : ι) (w : Worker)
    (hw : w.Inside ↔ (s.workers i).Inside) (j : ι) :
    s.mutex = some j ↔ (Function.update s.workers i w j).Inside := by
  by_cases hj : j = i
  · subst hj
    rw [Function.update_self, hw]
    exact h.mutex j
  · rw [Function.update_of_ne hj]
    exact h.mutex j

/-- A move of one running worker keeps the state consistent if it keeps the balance of the
semaphores and the holder of the mutex. -/
theorem Pool.Consistent.setWorker (h : pool.Consistent s) (i : ι) (w : Worker)
    (hunstarted : (s.workers i).point ≠ .unstarted) (hexited : (s.workers i).point ≠ .exited)
    (hvalid : w.Valid (pool.rounds i)) (hstarted : w.point ≠ .unstarted)
    (semaphores : κ → ℕ) (mutex : Option ι) (shared : σ)
    (hsemaphore : ∀ x, semaphores x +
      ∑ j with pool.waitsOn j = x, (Function.update s.workers i w j).waits =
        pool.permits x + ∑ j with pool.postsTo j = x, (Function.update s.workers i w j).counter)
    (hmutex : ∀ j, mutex = some j ↔ (Function.update s.workers i w j).Inside) :
    pool.Consistent ⟨Function.update s.workers i w, s.mainDone, semaphores, mutex, shared⟩ where
  semaphore := hsemaphore
  mutex := hmutex
  valid j := by
    by_cases hj : j = i
    · subst hj
      simpa using hvalid
    · simpa [hj] using h.valid j
  started j := by
    by_cases hj : j = i
    · subst hj
      have hold := h.started j
      simpa [hstarted, hunstarted] using hold
    · simpa [hj] using h.started j
  joined k j hk hlt := by
    have hold := h.joined k j hk hlt
    have hj : j ≠ i := by
      rintro rfl
      exact hexited hold
    simpa [hj] using hold

omit [DecidableEq ι] in
/-- A running worker is in one of its rounds. -/
theorem Pool.Consistent.counter_lt (h : pool.Consistent s) (i : ι)
    (hunstarted : (s.workers i).point ≠ .unstarted) (hexited : (s.workers i).point ≠ .exited) :
    (s.workers i).counter < pool.rounds i := by
  have hvalid := h.valid i
  unfold Worker.Valid at hvalid
  cases hpoint : (s.workers i).point <;> simp_all

omit [DecidableEq ι] in
/-- The next worker to start is not started yet. -/
theorem Pool.Consistent.point_of_next (h : pool.Consistent s) {i : ι}
    (hnext : pool.order[s.mainDone]? = some i) : (s.workers i).point = .unstarted := by
  rw [h.started i]
  exact List.mem_iff_getElem?.mpr ⟨0, by simpa using hnext⟩

omit [DecidableEq ι] in
/-- The completed critical sections of the workers that wait on a semaphore use up its permits and
what is posted to it; one more is left for a worker that is about to enter. -/
theorem Pool.Consistent.sum_entries_lt (h : pool.Consistent s) (i : ι)
    (hpoint : (s.workers i).point = .critical) :
    ∑ j with pool.waitsOn j = pool.waitsOn i, (s.workers j).entries <
      pool.permits (pool.waitsOn i) +
        ∑ j with pool.postsTo j = pool.waitsOn i, (s.workers j).entries := by
  have hwaits : ∑ j with pool.waitsOn j = pool.waitsOn i, (s.workers j).entries <
      ∑ j with pool.waitsOn j = pool.waitsOn i, (s.workers j).waits := by
    refine Finset.sum_lt_sum (fun j _ => entries_le_waits _) ⟨i, by simp, ?_⟩
    simp [Worker.entries, Worker.waits, hpoint]
  have hposts : ∑ j with pool.postsTo j = pool.waitsOn i, (s.workers j).counter ≤
      ∑ j with pool.postsTo j = pool.waitsOn i, (s.workers j).entries :=
    Finset.sum_le_sum fun j _ => counter_le_entries _
  have hbalance := h.semaphore (pool.waitsOn i)
  omega

/-- A completed wait takes the permit that it uses. -/
theorem Pool.Consistent.semaphore_wait (h : pool.Consistent s) (i : ι)
    (hpoint : (s.workers i).point = .wait) (hpermit : 0 < s.semaphores (pool.waitsOn i)) (x : κ) :
    Function.update s.semaphores (pool.waitsOn i) (s.semaphores (pool.waitsOn i) - 1) x +
        ∑ j with pool.waitsOn j = x, ((s.moveTo i .lock).workers j).waits =
      pool.permits x + ∑ j with pool.postsTo j = x, ((s.moveTo i .lock).workers j).counter := by
  have hbalance := h.semaphore x
  simp only [PoolState.moveTo, PoolState.setWorker]
  rw [sum_update_succ _ Worker.waits s.workers i ⟨_, .lock⟩ (by simp [Worker.waits, hpoint]),
    sum_update_of_eq _ Worker.counter s.workers i ⟨(s.workers i).counter, .lock⟩ rfl]
  by_cases hx : pool.waitsOn i = x
  · subst hx
    rw [Function.update_self, if_pos (by simp)]
    omega
  · rw [Function.update_of_ne (Ne.symm hx), if_neg (by simpa using hx)]
    exact hbalance

/-- A post that ends a round adds a permit. -/
theorem Pool.Consistent.semaphore_post (h : pool.Consistent s) (i : ι)
    (hpoint : (s.workers i).point = .post) (rounds : ℕ) (x : κ) :
    let w := loopHead rounds ((s.workers i).counter + 1)
    Function.update s.semaphores (pool.postsTo i) (s.semaphores (pool.postsTo i) + 1) x +
        ∑ j with pool.waitsOn j = x, (Function.update s.workers i w j).waits =
      pool.permits x + ∑ j with pool.postsTo j = x, (Function.update s.workers i w j).counter := by
  intro w
  have hbalance := h.semaphore x
  have hwaits : w.waits = (s.workers i).waits :=
    (waits_loopHead _ _).trans (by simp [Worker.waits, hpoint])
  rw [sum_update_of_eq _ Worker.waits s.workers i w hwaits,
    sum_update_succ _ Worker.counter s.workers i w (loopHead_counter _ _)]
  by_cases hx : pool.postsTo i = x
  · subst hx
    rw [Function.update_self, if_pos (by simp)]
    omega
  · rw [Function.update_of_ne (Ne.symm hx), if_neg (by simpa using hx)]
    exact hbalance

/-- A worker that locks the free mutex is the one inside its critical section. -/
theorem Pool.Consistent.mutex_lock (h : pool.Consistent s) (i : ι) (hfree : s.mutex = none)
    (j : ι) : some i = some j ↔ ((s.moveTo i .critical).workers j).Inside := by
  by_cases hj : j = i
  · subst hj
    simp [PoolState.moveTo, PoolState.setWorker, Worker.Inside]
  · have hout : ¬(s.workers j).Inside := by simp [← h.mutex j, hfree]
    simp [PoolState.moveTo, PoolState.setWorker, hj, Ne.symm hj, hout]

/-- A worker that unlocks the mutex leaves nobody inside a critical section. -/
theorem Pool.Consistent.mutex_unlock (h : pool.Consistent s) (i : ι)
    (hpoint : (s.workers i).point = .unlock) (j : ι) :
    none = some j ↔ ((s.moveTo i .post).workers j).Inside := by
  have hholder : s.mutex = some i := (h.mutex i).mpr (.inr hpoint)
  by_cases hj : j = i
  · subst hj
    simp [PoolState.moveTo, PoolState.setWorker, Worker.Inside]
  · have hout : ¬(s.workers j).Inside := by simp [← h.mutex j, hholder, Ne.symm hj]
    simp [PoolState.moveTo, PoolState.setWorker, hj, hout]

/-- Starting the next worker keeps the state consistent. -/
theorem Pool.Consistent.start (h : pool.Consistent s) (i : ι)
    (hnext : pool.order[s.mainDone]? = some i) :
    pool.Consistent
      { s.setWorker i (loopHead (pool.rounds i) 0) with mainDone := s.mainDone + 1 } := by
  have hlt := (List.getElem?_eq_some_iff.mp hnext).1
  have hdrop := List.drop_eq_getElem_cons hlt
  rw [(List.getElem?_eq_some_iff.mp hnext).2] at hdrop
  have hpoint := h.point_of_next hnext
  have hcounter := h.valid i
  simp only [Worker.Valid, hpoint] at hcounter
  have hwaits : (loopHead (pool.rounds i) 0).waits = (s.workers i).waits :=
    (waits_loopHead _ _).trans (by simp [Worker.waits, hpoint, hcounter])
  refine ⟨h.semaphore_setWorker i _ hwaits (by simp [hcounter]), h.mutex_setWorker i _
    (iff_of_false (not_inside_loopHead _ _) (by simp [Worker.Inside, hpoint])), ?_, ?_, ?_⟩
  · intro j
    by_cases hj : j = i
    · subst hj
      simpa [PoolState.setWorker] using valid_loopHead _ _ (Nat.zero_le _)
    · simpa [PoolState.setWorker, hj] using h.valid j
  · intro j
    have hnodup := pool.nodup.sublist (List.drop_sublist s.mainDone pool.order)
    rw [hdrop, List.nodup_cons] at hnodup
    by_cases hj : j = i
    · subst hj
      simpa [PoolState.setWorker, loopHead_point_ne] using hnodup.1
    · simpa [PoolState.setWorker, hj, hdrop] using h.started j
  · intro k j _ hjoined
    simp only at hjoined
    omega

omit [DecidableEq ι] in
/-- Joining the next worker keeps the state consistent. -/
theorem Pool.Consistent.join (h : pool.Consistent s) (i : ι)
    (hall : pool.order.length ≤ s.mainDone)
    (hnext : pool.order[s.mainDone - pool.order.length]? = some i)
    (hexited : (s.workers i).point = .exited) :
    pool.Consistent { s with mainDone := s.mainDone + 1 } := by
  refine ⟨h.semaphore, h.mutex, h.valid, ?_, ?_⟩
  · intro j
    rw [h.started j, List.drop_eq_nil_of_le hall, List.drop_eq_nil_of_le (by simp; omega)]
  · intro k j hk hjoined
    by_cases hlt : pool.order.length + k < s.mainDone
    · exact h.joined k j hk hlt
    · have hlast : s.mainDone - pool.order.length = k := by
        simp only at hjoined
        omega
      rw [hlast, hk] at hnext
      obtain rfl := Option.some.inj hnext
      exact hexited

/-- A step from a consistent state leads to a consistent state. -/
theorem Pool.Consistent.moves (h : pool.Consistent s) (hmoves : pool.Moves s s') :
    pool.Consistent s' := by
  cases hmoves with
  | wait i hpoint hpermit =>
    have hcounter := h.counter_lt i (by simp [hpoint]) (by simp [hpoint])
    exact h.setWorker i ⟨(s.workers i).counter, .lock⟩ (by simp [hpoint]) (by simp [hpoint])
      hcounter (by simp) _ _ _ (h.semaphore_wait i hpoint hpermit)
      (h.mutex_setWorker i _ (by simp [Worker.Inside, hpoint]))
  | lock i hpoint hfree =>
    have hcounter := h.counter_lt i (by simp [hpoint]) (by simp [hpoint])
    exact h.setWorker i ⟨(s.workers i).counter, .critical⟩ (by simp [hpoint]) (by simp [hpoint])
      hcounter (by simp) _ _ _ (h.semaphore_setWorker i _ (by simp [Worker.waits, hpoint]) rfl)
      (h.mutex_lock i hfree)
  | critical i hpoint =>
    have hcounter := h.counter_lt i (by simp [hpoint]) (by simp [hpoint])
    exact h.setWorker i ⟨(s.workers i).counter, .unlock⟩ (by simp [hpoint]) (by simp [hpoint])
      hcounter (by simp) _ _ _ (h.semaphore_setWorker i _ (by simp [Worker.waits, hpoint]) rfl)
      (h.mutex_setWorker i _ (by simp [Worker.Inside, hpoint]))
  | unlock i hpoint =>
    have hcounter := h.counter_lt i (by simp [hpoint]) (by simp [hpoint])
    exact h.setWorker i ⟨(s.workers i).counter, .post⟩ (by simp [hpoint]) (by simp [hpoint])
      hcounter (by simp) _ _ _ (h.semaphore_setWorker i _ (by simp [Worker.waits, hpoint]) rfl)
      (h.mutex_unlock i hpoint)
  | post i hpoint =>
    have hcounter := h.counter_lt i (by simp [hpoint]) (by simp [hpoint])
    exact h.setWorker i _ (by simp [hpoint]) (by simp [hpoint]) (valid_loopHead _ _ hcounter)
      (loopHead_point_ne _ _) _ _ _ (h.semaphore_post i hpoint _) (h.mutex_setWorker i _
        (iff_of_false (not_inside_loopHead _ _) (by simp [Worker.Inside, hpoint])))
  | start i hnext => exact h.start i hnext
  | join i hall hnext hexited => exact h.join i hall hnext hexited

/-- Every reachable state is consistent. -/
theorem Pool.Reachable.consistent (h : pool.Reachable s) : pool.Consistent s := by
  induction h with
  | refl => exact pool.consistent_initial
  | tail _ hstep ih => exact ih.moves hstep.moves

/-- The critical sections completed by each worker. -/
def PoolState.entries (s : PoolState ι κ σ) (i : ι) : ℕ := (s.workers i).entries

omit [DecidableEq κ] [Fintype ι] in
/-- Moving one worker changes its own completed critical sections. -/
theorem entries_setWorker (s : PoolState ι κ σ) (i : ι) (w : Worker) :
    (s.setWorker i w).entries = Function.update s.entries i w.entries := by
  funext j
  simp only [PoolState.entries, PoolState.setWorker, Function.update_apply]
  split <;> rfl

omit [DecidableEq κ] [Fintype ι] in
/-- Moving one worker outside its critical section changes no completed critical section. -/
theorem entries_setWorker_of_eq (s : PoolState ι κ σ) (i : ι) (w : Worker)
    (h : w.entries = (s.workers i).entries) : (s.setWorker i w).entries = s.entries := by
  rw [entries_setWorker, h]
  exact Function.update_eq_self i s.entries

/-- A step completes a critical section and runs its body, or changes neither the completed critical
sections nor the shared data. -/
theorem Pool.Consistent.entries_of_moves (h : pool.Consistent s) (hmoves : pool.Moves s s') :
    (s'.entries = s.entries ∧ s'.shared = s.shared) ∨
      ∃ i, (s.workers i).point = .critical ∧
        s'.entries = Function.update s.entries i (s.entries i + 1) ∧
        s'.shared = pool.body i (s.workers i).counter s.shared := by
  cases hmoves with
  | wait i hpoint _ =>
    exact .inl ⟨entries_setWorker_of_eq s i ⟨(s.workers i).counter, .lock⟩
      (by simp [Worker.entries, hpoint]), rfl⟩
  | lock i hpoint _ =>
    exact .inl ⟨entries_setWorker_of_eq s i ⟨(s.workers i).counter, .critical⟩
      (by simp [Worker.entries, hpoint]), rfl⟩
  | critical i hpoint =>
    have hentry : s.entries i = (s.workers i).counter := by
      simp [PoolState.entries, Worker.entries, hpoint]
    have hentries := entries_setWorker s i ⟨(s.workers i).counter, .unlock⟩
    refine .inr ⟨i, hpoint, hentries.trans ?_, rfl⟩
    rw [hentry]
    rfl
  | unlock i hpoint =>
    exact .inl ⟨entries_setWorker_of_eq s i ⟨(s.workers i).counter, .post⟩
      (by simp [Worker.entries, hpoint]), rfl⟩
  | post i hpoint =>
    exact .inl ⟨entries_setWorker_of_eq s i (loopHead (pool.rounds i) ((s.workers i).counter + 1))
      ((entries_loopHead _ _).trans (by simp [Worker.entries, hpoint])), rfl⟩
  | start i hnext =>
    have hpoint := h.point_of_next hnext
    have hcounter := h.valid i
    simp only [Worker.Valid, hpoint] at hcounter
    exact .inl ⟨entries_setWorker_of_eq s i (loopHead (pool.rounds i) 0)
      ((entries_loopHead _ _).trans (by simp [Worker.entries, hpoint, hcounter])), rfl⟩
  | join i _ _ _ => exact .inl ⟨rfl, rfl⟩

/-- An invariant of the shared data, relative to the completed critical sections, needs only be kept
by a worker that is about to run its critical section in a consistent state. -/
theorem Pool.Reachable.shared_invariant (h : pool.Reachable s) (D : (ι → ℕ) → σ → Prop)
    (hinitial : D (fun _ => 0) pool.shared)
    (hbody : ∀ s i, pool.Consistent s → (s.workers i).point = .critical → D s.entries s.shared →
      D (Function.update s.entries i (s.entries i + 1))
        (pool.body i (s.workers i).counter s.shared)) :
    D s.entries s.shared := by
  induction h with
  | refl => exact hinitial
  | @tail s s' hreachable hstep ih =>
    have hconsistent : pool.Consistent s := Pool.Reachable.consistent hreachable
    cases hconsistent.entries_of_moves hstep.moves with
    | inl hsame =>
      rw [hsame.1, hsame.2]
      exact ih
    | inr hcritical =>
      obtain ⟨i, hpoint, hentries, hshared⟩ := hcritical
      rw [hentries, hshared]
      exact hbody s i hconsistent hpoint ih

end Invariant

end Coursework.Concurrency
