import Coursework.Concurrency.WorkerPool
import Coursework.Transition.Observation
import Coursework.Transition.UpdateSum

/-!
# A team of threads that is created, joined and merged

A main thread creates the threads of a team in order, joins them in the same order, and
merges what each has left into a result when it joins it. A thread steps on its own data
and on the shared data, and may be blocked. A schedule names the actor of each step.
-/

namespace Coursework.Concurrency

open Transition

/-- The program of a team: the data a thread is created with, its next step if it has one, the threads
that have exited, what the main thread does after joining a thread, the initial shared data and
result, and the order in which the main thread creates and joins the threads. -/
structure Team (ι τ σ ρ : Type*) where
  start : ι → τ
  step : ι → τ → σ → Option (τ × σ)
  exited : τ → Bool
  exited_step : ∀ i t shared, exited t = true → step i t shared = none
  merge : ι → τ → ρ → ρ
  shared : σ
  result : ρ
  order : List ι
  nodup : order.Nodup
  complete : ∀ i, i ∈ order

/-- The state of a team: the threads created so far, the creations and joins that the main thread has
completed, the shared data, and the result. -/
structure TeamState (ι τ σ ρ : Type*) where
  threads : ι → Option τ
  mainDone : ℕ
  shared : σ
  result : ρ

variable {ι τ σ ρ : Type*} [DecidableEq ι] {team : Team ι τ σ ρ} {s s' : TeamState ι τ σ ρ}

/-- The step of a thread, if it has one. -/
def Team.threadStep (team : Team ι τ σ ρ) (i : ι) (s : TeamState ι τ σ ρ) :
    Option (TeamState ι τ σ ρ) :=
  match s.threads i with
  | none => none
  | some t =>
    match team.step i t s.shared with
    | none => none
    | some (t', shared) =>
      some { s with threads := Function.update s.threads i (some t'), shared := shared }

/-- The step of the main thread, if it has one: create the next thread, or join the next one. -/
def Team.mainStep (team : Team ι τ σ ρ) (s : TeamState ι τ σ ρ) : Option (TeamState ι τ σ ρ) :=
  match team.order[s.mainDone]? with
  | some i =>
    some { s with
      threads := Function.update s.threads i (some (team.start i))
      mainDone := s.mainDone + 1 }
  | none =>
    match team.order[s.mainDone - team.order.length]? with
    | none => none
    | some i =>
      match s.threads i with
      | none => none
      | some t =>
        if team.exited t then
          some { s with mainDone := s.mainDone + 1, result := team.merge i t s.result }
        else none

/-- No thread is created. -/
def Team.initial (team : Team ι τ σ ρ) : TeamState ι τ σ ρ :=
  ⟨fun _ => none, 0, team.shared, team.result⟩

/-- The team as a machine whose inputs are the actors of a schedule. -/
def Team.machine (team : Team ι τ σ ρ) : Machine (TeamState ι τ σ ρ) (Actor ι) ρ where
  step s
    | .main => team.mainStep s
    | .worker i => team.threadStep i s
  observe := TeamState.result

/-- The states that some schedule leads to. -/
def Team.Reachable (team : Team ι τ σ ρ) (s : TeamState ι τ σ ρ) : Prop :=
  ∃ schedule, team.machine.run team.initial schedule = some s

/-- No actor has a step. -/
def Team.Stuck (team : Team ι τ σ ρ) (s : TeamState ι τ σ ρ) : Prop :=
  ∀ actor, team.machine.step s actor = none

/-- The main thread has joined all threads. -/
def Team.Returned (team : Team ι τ σ ρ) (s : TeamState ι τ σ ρ) : Prop :=
  s.mainDone = 2 * team.order.length

/-- What a step can do, with the condition under which it is possible. -/
inductive Team.Moves (team : Team ι τ σ ρ) (s : TeamState ι τ σ ρ) : TeamState ι τ σ ρ → Prop where
  | create (i : ι) (hnext : team.order[s.mainDone]? = some i) :
      team.Moves s { s with
        threads := Function.update s.threads i (some (team.start i))
        mainDone := s.mainDone + 1 }
  | join (i : ι) (t : τ) (hall : team.order.length ≤ s.mainDone)
      (hnext : team.order[s.mainDone - team.order.length]? = some i)
      (hthread : s.threads i = some t) (hexited : team.exited t = true) :
      team.Moves s { s with mainDone := s.mainDone + 1, result := team.merge i t s.result }
  | thread (i : ι) (t t' : τ) (shared : σ) (hthread : s.threads i = some t)
      (hstep : team.step i t s.shared = some (t', shared)) :
      team.Moves s { s with threads := Function.update s.threads i (some t'), shared := shared }

/-- A step is one of these moves. -/
theorem Team.moves_of_step (actor : Actor ι) (hstep : team.machine.step s actor = some s') :
    team.Moves s s' := by
  cases actor with
  | main =>
    change team.mainStep s = some s' at hstep
    rw [Team.mainStep] at hstep
    cases hnext : team.order[s.mainDone]? with
    | some i =>
      rw [hnext] at hstep
      obtain rfl := Option.some.inj hstep
      exact .create i hnext
    | none =>
      cases hjoin : team.order[s.mainDone - team.order.length]? with
      | none => simp [hnext, hjoin] at hstep
      | some i =>
        cases hthread : s.threads i with
        | none => simp [hnext, hjoin, hthread] at hstep
        | some t =>
          cases hexited : team.exited t with
          | false => simp [hnext, hjoin, hthread, hexited] at hstep
          | true =>
            simp only [hnext, hjoin, hthread, hexited, if_true, Option.some.injEq] at hstep
            exact hstep ▸ .join i t (List.getElem?_eq_none_iff.mp hnext) hjoin hthread hexited
  | worker i =>
    change team.threadStep i s = some s' at hstep
    rw [Team.threadStep] at hstep
    cases hthread : s.threads i with
    | none => simp [hthread] at hstep
    | some t =>
      cases hnext : team.step i t s.shared with
      | none => simp [hthread, hnext] at hstep
      | some next =>
        simp only [hthread, hnext, Option.some.injEq] at hstep
        exact hstep ▸ .thread i t next.1 next.2 hthread hnext

/-- What holds initially and is kept by every move holds in every reachable state. -/
theorem Team.Reachable.invariant (Inv : TeamState ι τ σ ρ → Prop) (hinitial : Inv team.initial)
    (hmoves : ∀ s s', Inv s → team.Moves s s' → Inv s') (hs : team.Reachable s) : Inv s := by
  obtain ⟨schedule, hrun⟩ := hs
  apply team.machine.run_invariant Inv _ team.initial s schedule hinitial hrun
  intro before actor after hbefore hstep
  exact hmoves before after hbefore (team.moves_of_step actor hstep)

/-- What the main thread merges for a thread. -/
def Team.mergeOf (team : Team ι τ σ ρ) (threads : ι → Option τ) (result : ρ) (i : ι) : ρ :=
  match threads i with
  | some t => team.merge i t result
  | none => result

/-- The threads exist in the order of their creation, and the result merges the joined ones. -/
structure Team.Ordered (team : Team ι τ σ ρ) (s : TeamState ι τ σ ρ) : Prop where
  bound : s.mainDone ≤ 2 * team.order.length
  created : ∀ i, (s.threads i).isSome = true ↔ i ∈ team.order.take s.mainDone
  joined : ∀ i ∈ team.order.take (s.mainDone - team.order.length),
    ∃ t, s.threads i = some t ∧ team.exited t = true
  result : s.result =
    (team.order.take (s.mainDone - team.order.length)).foldl (team.mergeOf s.threads) team.result

omit [DecidableEq ι] in
/-- A thread that can step is not joined yet. -/
theorem Team.Ordered.not_joined (h : team.Ordered s) {i : ι} {t t' : τ} {shared : σ}
    (hthread : s.threads i = some t) (hstep : team.step i t s.shared = some (t', shared)) :
    i ∉ team.order.take (s.mainDone - team.order.length) := by
  intro hmem
  obtain ⟨t₁, hthread₁, hexited⟩ := h.joined i hmem
  obtain rfl := Option.some.inj (hthread.symm.trans hthread₁)
  rw [team.exited_step i t s.shared hexited] at hstep
  cases hstep

omit [DecidableEq ι] in
/-- The thread that is created next does not exist yet. -/
theorem Team.Ordered.not_created (h : team.Ordered s) {i : ι}
    (hnext : team.order[s.mainDone]? = some i) : s.threads i = none := by
  have hdrop : i ∈ team.order.drop s.mainDone := by
    rw [List.drop_eq_getElem?_toList_append, hnext]
    exact List.mem_cons_self
  have hnot : i ∉ team.order.take s.mainDone := by
    intro htake
    exact List.disjoint_take_drop team.nodup le_rfl htake hdrop
  rw [← h.created i, Bool.not_eq_true, Option.isSome_eq_false_iff, Option.isNone_iff_eq_none] at hnot
  exact hnot

/-- Every move keeps the order of the team. -/
theorem Team.Ordered.moves (h : team.Ordered s) (hmoves : team.Moves s s') : team.Ordered s' := by
  cases hmoves with
  | create i hnext =>
    have hlt : s.mainDone < team.order.length := (List.getElem?_eq_some_iff.mp hnext).1
    have hzero : s.mainDone + 1 - team.order.length = 0 := by omega
    have hresult := h.result
    rw [show s.mainDone - team.order.length = 0 by omega] at hresult
    refine ⟨?_, ?_, ?_, ?_⟩
    · change s.mainDone + 1 ≤ 2 * team.order.length
      omega
    · intro j
      rw [List.take_add_one, hnext, Option.toList_some, List.mem_append, List.mem_singleton,
        ← h.created j]
      change (Function.update s.threads i (some (team.start i)) j).isSome = true ↔ _
      rw [Function.update_apply]
      by_cases hj : j = i
      · simp [hj]
      · simp [hj]
    · intro j hj
      change j ∈ team.order.take (s.mainDone + 1 - team.order.length) at hj
      rw [hzero, List.take_zero] at hj
      cases hj
    · change s.result = (team.order.take (s.mainDone + 1 - team.order.length)).foldl _ team.result
      rw [hzero]
      exact hresult
  | join i t hall hnext hthread hexited =>
    have hlt : s.mainDone - team.order.length < team.order.length :=
      (List.getElem?_eq_some_iff.mp hnext).1
    have htake : team.order.take (s.mainDone + 1 - team.order.length) =
        team.order.take (s.mainDone - team.order.length) ++ [i] := by
      rw [show s.mainDone + 1 - team.order.length = s.mainDone - team.order.length + 1 by omega,
        List.take_add_one, hnext, Option.toList_some]
    refine ⟨?_, ?_, ?_, ?_⟩
    · change s.mainDone + 1 ≤ 2 * team.order.length
      omega
    · intro j
      have hcreated := h.created j
      rw [List.take_of_length_le hall] at hcreated
      rw [List.take_of_length_le (show team.order.length ≤ s.mainDone + 1 by omega)]
      exact hcreated
    · intro j hj
      change j ∈ team.order.take (s.mainDone + 1 - team.order.length) at hj
      rw [htake, List.mem_append, List.mem_singleton] at hj
      obtain hj | rfl := hj
      · exact h.joined j hj
      · exact ⟨t, hthread, hexited⟩
    · change team.merge i t s.result =
        (team.order.take (s.mainDone + 1 - team.order.length)).foldl _ team.result
      rw [htake, List.foldl_append, ← h.result, List.foldl_cons, List.foldl_nil, Team.mergeOf,
        hthread]
  | thread i t t' shared hthread hstep =>
    have hnot := h.not_joined hthread hstep
    refine ⟨h.bound, ?_, ?_, ?_⟩
    · intro j
      rw [← h.created j]
      change (Function.update s.threads i (some t') j).isSome = true ↔ _
      rw [Function.update_apply]
      by_cases hj : j = i
      · simp [hj, hthread]
      · simp [hj]
    · intro j hj
      have hne : j ≠ i := ne_of_mem_of_not_mem hj hnot
      obtain ⟨t₁, hthread₁, hexited₁⟩ := h.joined j hj
      exact ⟨t₁, (Function.update_of_ne hne _ _).trans hthread₁, hexited₁⟩
    · change s.result = (team.order.take (s.mainDone - team.order.length)).foldl _ team.result
      rw [h.result]
      apply List.foldl_ext
      intro result j hj
      have hne : j ≠ i := ne_of_mem_of_not_mem hj hnot
      have hupdate : Function.update s.threads i (some t') j = s.threads j :=
        Function.update_of_ne hne _ _
      simp only [Team.mergeOf, hupdate]

/-- Reachable states are ordered. -/
theorem Team.Reachable.ordered (hs : team.Reachable s) : team.Ordered s := by
  apply hs.invariant team.Ordered
  · refine ⟨Nat.zero_le _, ?_, ?_, ?_⟩
    · intro i
      simp [Team.initial]
    · intro i hi
      simp [Team.initial] at hi
    · simp [Team.initial]
  · intro before after h hmoves
    exact h.moves hmoves

/-- What holds of no threads and the initial shared data, and is kept by the creation and by the steps
of a thread, holds in every reachable state. -/
theorem Team.Reachable.threads_invariant (Inv : (ι → Option τ) → σ → Prop)
    (hinitial : Inv (fun _ => none) team.shared)
    (hcreate : ∀ threads shared i, Inv threads shared → threads i = none →
      Inv (Function.update threads i (some (team.start i))) shared)
    (hthread : ∀ threads shared i t t' shared', Inv threads shared → threads i = some t →
      team.step i t shared = some (t', shared') →
      Inv (Function.update threads i (some t')) shared')
    (hs : team.Reachable s) : Inv s.threads s.shared := by
  have hboth : team.Ordered s ∧ Inv s.threads s.shared := by
    apply hs.invariant fun s => team.Ordered s ∧ Inv s.threads s.shared
    · exact ⟨Team.Reachable.ordered ⟨[], rfl⟩, hinitial⟩
    · rintro before after ⟨hordered, hinv⟩ hmoves
      refine ⟨hordered.moves hmoves, ?_⟩
      cases hmoves with
      | create i hnext => exact hcreate _ _ i hinv (hordered.not_created hnext)
      | join i t hall hnext hjoin hexited => exact hinv
      | thread i t t' shared hcurrent hstep => exact hthread _ _ i t t' shared hinv hcurrent hstep
  exact hboth.2

/-- When the main thread has returned, all threads have exited and their data are merged in order. -/
theorem Team.Reachable.returned (hs : team.Reachable s) (hreturned : team.Returned s) :
    (∀ i, ∃ t, s.threads i = some t ∧ team.exited t = true) ∧
      s.result = team.order.foldl (team.mergeOf s.threads) team.result := by
  have hordered := hs.ordered
  have htake : team.order.take (s.mainDone - team.order.length) = team.order := by
    rw [hreturned]
    apply List.take_of_length_le
    omega
  have hjoined := hordered.joined
  have hresult := hordered.result
  rw [htake] at hjoined hresult
  exact ⟨fun i => hjoined i (team.complete i), hresult⟩

/-- If some thread can step whenever one has not exited, only a main thread that has returned ends a
run. -/
theorem Team.Reachable.returned_of_stuck (hs : team.Reachable s)
    (hlive : ∀ i t, s.threads i = some t → team.exited t = false →
      ∃ j, team.threadStep j s ≠ none)
    (hstuck : team.Stuck s) : team.Returned s := by
  have hordered := hs.ordered
  have hmain : team.mainStep s = none := hstuck .main
  rw [Team.mainStep] at hmain
  cases hnext : team.order[s.mainDone]? with
  | some i => simp [hnext] at hmain
  | none =>
    have hall : team.order.length ≤ s.mainDone := List.getElem?_eq_none_iff.mp hnext
    cases hjoin : team.order[s.mainDone - team.order.length]? with
    | none =>
      have hlength := List.getElem?_eq_none_iff.mp hjoin
      have hbound := hordered.bound
      rw [Team.Returned]
      omega
    | some i =>
      have hcreated := (hordered.created i).mpr (by
        rw [List.take_of_length_le hall]
        exact team.complete i)
      obtain ⟨t, hthread⟩ := Option.isSome_iff_exists.mp hcreated
      cases hexited : team.exited t with
      | true => simp [hnext, hjoin, hthread, hexited] at hmain
      | false =>
        obtain ⟨j, hj⟩ := hlive i t hthread hexited
        exact absurd (hstuck (.worker j)) hj

/-- The steps that a team has left, if each step of a thread uses up one of its own. -/
def Team.remaining [Fintype ι] (team : Team ι τ σ ρ) (left : ι → τ → ℕ)
    (s : TeamState ι τ σ ρ) : ℕ :=
  (2 * team.order.length - s.mainDone) + ∑ i, left i ((s.threads i).getD (team.start i))

/-- A team whose threads use up their steps does so as a whole. -/
theorem Team.Ordered.remaining_lt [Fintype ι] (h : team.Ordered s) (left : ι → τ → ℕ)
    (hleft : ∀ i t t' shared, s.threads i = some t →
      team.step i t s.shared = some (t', shared) → left i t' < left i t)
    (hmoves : team.Moves s s') : team.remaining left s' < team.remaining left s := by
  have hbound' := (h.moves hmoves).bound
  cases hmoves with
  | create i hnext =>
    have hsame : ∀ j, left j ((Function.update s.threads i (some (team.start i)) j).getD
        (team.start j)) = left j ((s.threads j).getD (team.start j)) := by
      intro j
      by_cases hj : j = i
      · rw [hj, Function.update_self, h.not_created hnext, Option.getD_some, Option.getD_none]
      · rw [Function.update_of_ne hj]
    simp only [Team.remaining, hsame]
    change s.mainDone + 1 ≤ _ at hbound'
    omega
  | join i t hall hnext hthread hexited =>
    simp only [Team.remaining]
    change s.mainDone + 1 ≤ _ at hbound'
    omega
  | thread i t t' shared hthread hstep =>
    apply Nat.add_lt_add_left
    apply Finset.sum_lt_sum
    · intro j _
      by_cases hj : j = i
      · subst hj
        change left j ((Function.update s.threads j (some t') j).getD _) ≤ _
        rw [Function.update_self, hthread]
        exact (hleft j t t' shared hthread hstep).le
      · change left j ((Function.update s.threads i (some t') j).getD _) ≤ _
        rw [Function.update_of_ne hj]
    · refine ⟨i, Finset.mem_univ i, ?_⟩
      change left i ((Function.update s.threads i (some t') i).getD _) < _
      rw [Function.update_self, hthread]
      exact hleft i t t' shared hthread hstep

/-- What holds of the data a thread is created with and is kept by its steps holds of every thread. -/
theorem Team.Reachable.thread_invariant (Inv : ι → τ → Prop)
    (hstart : ∀ i, Inv i (team.start i))
    (hstep : ∀ i t t' shared shared', Inv i t → team.step i t shared = some (t', shared') → Inv i t')
    (hs : team.Reachable s) (i : ι) (t : τ) (hthread : s.threads i = some t) : Inv i t := by
  have hall : ∀ i t, s.threads i = some t → Inv i t := by
    apply hs.threads_invariant fun threads _ => ∀ i t, threads i = some t → Inv i t
    · intro j t hnone
      cases hnone
    · intro threads shared j hinv _ k t hk
      by_cases hkj : k = j
      · subst hkj
        rw [Function.update_self] at hk
        exact Option.some.inj hk ▸ hstart k
      · rw [Function.update_of_ne hkj] at hk
        exact hinv k t hk
    · intro threads shared j t₁ t₂ shared' hinv hj hnext k t hk
      by_cases hkj : k = j
      · subst hkj
        rw [Function.update_self] at hk
        exact Option.some.inj hk ▸ hstep k t₁ t₂ shared shared' (hinv k t₁ hj) hnext
      · rw [Function.update_of_ne hkj] at hk
        exact hinv k t hk
  exact hall i t hthread

/-- The state after a step is reachable. -/
theorem Team.Reachable.step (hs : team.Reachable s) (actor : Actor ι)
    (hstep : team.machine.step s actor = some s') : team.Reachable s' := by
  obtain ⟨schedule, hrun⟩ := hs
  refine ⟨schedule ++ [actor], ?_⟩
  rw [Machine.run_append_singleton, hrun]
  exact hstep

/-- The state after a step of a thread is reachable. -/
theorem Team.Reachable.threadStep (hs : team.Reachable s) {i : ι} {t t' : τ} {shared : σ}
    (hthread : s.threads i = some t) (hstep : team.step i t s.shared = some (t', shared)) :
    team.Reachable { s with threads := Function.update s.threads i (some t'), shared := shared } := by
  apply hs.step (.worker i)
  change team.threadStep i s = _
  rw [Team.threadStep, hthread]
  simp only [hstep]

/-- A step of a thread leads to a reachable state. -/
theorem Team.Reachable.thread (hs : team.Reachable s) {i : ι} {t t' : τ} {shared : σ}
    (hthread : s.threads i = some t) (hstep : team.step i t s.shared = some (t', shared)) :
    ∃ s', team.Reachable s' ∧ s'.threads i = some t' ∧ s'.shared = shared :=
  ⟨_, hs.threadStep hthread hstep, Function.update_self i (some t') s.threads, rfl⟩

/-- The main thread can create the threads before any of them steps. -/
theorem Team.exists_created (team : Team ι τ σ ρ) (created : ℕ)
    (hcreated : created ≤ team.order.length) :
    ∃ s, team.Reachable s ∧ s.mainDone = created ∧ s.shared = team.shared ∧
      ∀ i ∈ team.order.take created, s.threads i = some (team.start i) := by
  induction created with
  | zero => exact ⟨team.initial, ⟨[], rfl⟩, rfl, rfl, fun i hi => absurd hi (by simp)⟩
  | succ created ih =>
    obtain ⟨s, hs, hdone, hshared, hthreads⟩ := ih (Nat.le_of_succ_le hcreated)
    have hnext : team.order[s.mainDone]? = some team.order[created] := by
      rw [hdone]
      exact List.getElem?_eq_getElem hcreated
    refine ⟨{ s with
      threads := Function.update s.threads team.order[created]
        (some (team.start team.order[created]))
      mainDone := s.mainDone + 1 }, hs.step .main ?_, congrArg (· + 1) hdone, hshared, ?_⟩
    · change team.mainStep s = _
      rw [Team.mainStep, hnext]
    · intro i hi
      rw [List.take_add_one, List.mem_append, List.getElem?_eq_getElem hcreated,
        Option.toList_some, List.mem_singleton] at hi
      change Function.update s.threads team.order[created] _ i = _
      rw [Function.update_apply]
      split
      · rename_i heq
        rw [heq]
      · rename_i hne
        exact hthreads i (hi.resolve_right hne)

/-- Every thread can be at its start while the shared data are the initial ones. -/
theorem Team.exists_started (team : Team ι τ σ ρ) (i : ι) :
    ∃ s, team.Reachable s ∧ s.threads i = some (team.start i) ∧ s.shared = team.shared := by
  obtain ⟨s, hs, -, hshared, hthreads⟩ := team.exists_created team.order.length le_rfl
  refine ⟨s, hs, hthreads i ?_, hshared⟩
  rw [List.take_length]
  exact team.complete i

/-- Every run of a team whose threads use up their steps is bounded. -/
theorem Team.schedule_length_le [Fintype ι] (team : Team ι τ σ ρ) (left : ι → τ → ℕ)
    (hleft : ∀ s, team.Reachable s → ∀ i t t' shared, s.threads i = some t →
      team.step i t s.shared = some (t', shared) → left i t' < left i t)
    (schedule : List (Actor ι)) (hrun : team.machine.run team.initial schedule = some s) :
    schedule.length ≤ team.remaining left team.initial := by
  apply team.machine.run_length_le team.Reachable (team.remaining left) _ team.initial s schedule
    ⟨[], rfl⟩ hrun
  intro before actor after hbefore hstep
  exact ⟨hbefore.step actor hstep,
    hbefore.ordered.remaining_lt left (hleft before hbefore) (team.moves_of_step actor hstep)⟩

/-- Every schedule of the team is finite, it ends only when the main thread has returned, and then the
property holds. -/
structure Team.Delivers (team : Team ι τ σ ρ) (P : TeamState ι τ σ ρ → Prop) : Prop where
  bounded : ∃ bound, ∀ schedule s, team.machine.run team.initial schedule = some s →
    schedule.length ≤ bound
  returned : ∀ s, team.Reachable s → team.Stuck s → team.Returned s
  holds : ∀ s, team.Reachable s → team.Returned s → P s

/-- What is delivered delivers what it implies. -/
theorem Team.Delivers.imp {P Q : TeamState ι τ σ ρ → Prop} (h : team.Delivers P)
    (himp : ∀ s, P s → Q s) : team.Delivers Q :=
  ⟨h.bounded, h.returned, fun s hs hreturned => himp s (h.holds s hs hreturned)⟩

/-- Runs that are bounded come from every reachable state to one in which the main thread has returned,
and keep on their way what every move keeps. -/
theorem Team.Delivers.exists_returned_of {P : TeamState ι τ σ ρ → Prop} (h : team.Delivers P)
    (Inv : TeamState ι τ σ ρ → Prop) (hinv : Inv s) (hs : team.Reachable s)
    (hmoves : ∀ s s', team.Reachable s → Inv s → team.Moves s s' → Inv s') :
    ∃ s', team.Reachable s' ∧ team.Returned s' ∧ Inv s' := by
  obtain ⟨bound, hbound⟩ := h.bounded
  have hfrom : ∀ room schedule s, team.machine.run team.initial schedule = some s → Inv s →
      bound ≤ schedule.length + room → ∃ s', team.Reachable s' ∧ team.Returned s' ∧ Inv s' := by
    intro room
    induction room with
    | zero =>
      intro schedule s hrun hinv hroom
      refine ⟨s, ⟨schedule, hrun⟩, h.returned s ⟨schedule, hrun⟩ fun actor => ?_, hinv⟩
      cases hstep : team.machine.step s actor with
      | none => rfl
      | some s' =>
        have hlonger := hbound (schedule ++ [actor]) s' (by
          rw [Machine.run_append_singleton, hrun]
          exact hstep)
        rw [List.length_append, List.length_singleton] at hlonger
        omega
    | succ room ih =>
      intro schedule s hrun hinv hroom
      by_cases hstuck : team.Stuck s
      · exact ⟨s, ⟨schedule, hrun⟩, h.returned s ⟨schedule, hrun⟩ hstuck, hinv⟩
      · obtain ⟨actor, hactor⟩ := not_forall.mp hstuck
        obtain ⟨s', hstep⟩ := Option.ne_none_iff_exists'.mp hactor
        refine ih (schedule ++ [actor]) s' ?_ ?_ ?_
        · rw [Machine.run_append_singleton, hrun]
          exact hstep
        · exact hmoves s s' ⟨schedule, hrun⟩ hinv (team.moves_of_step actor hstep)
        · rw [List.length_append, List.length_singleton]
          omega
  obtain ⟨schedule, hrun⟩ := hs
  exact hfrom bound schedule s hrun hinv (Nat.le_add_left _ _)

/-- Runs that are bounded come to a state in which the main thread has returned. -/
theorem Team.Delivers.exists_returned {P : TeamState ι τ σ ρ → Prop} (h : team.Delivers P) :
    ∃ s, team.Reachable s ∧ team.Returned s := by
  obtain ⟨s, hs, hreturned, -⟩ := h.exists_returned_of (fun _ => True) trivial ⟨[], rfl⟩
    fun _ _ _ _ _ => trivial
  exact ⟨s, hs, hreturned⟩

/-- If the threads deliver a property on which another one is decided, that one is delivered exactly if
it is decided so. -/
theorem Team.Delivers.iff_of_forall {P Q : TeamState ι τ σ ρ → Prop} {c : Prop} (h : team.Delivers Q)
    (hiff : ∀ s, Q s → (P s ↔ c)) : team.Delivers P ↔ c := by
  constructor
  · intro hP
    obtain ⟨s, hs, hreturned⟩ := h.exists_returned
    exact (hiff s (h.holds s hs hreturned)).mp (hP.holds s hs hreturned)
  · intro hc
    exact ⟨h.bounded, h.returned, fun s hs hreturned =>
      (hiff s (h.holds s hs hreturned)).mpr hc⟩

end Coursework.Concurrency
