import Coursework.Concurrency.ForkJoin

/-!
# Threads with cells of their own

When each thread of a team has a cell of the shared data that no other thread reads or writes,
no schedule makes a difference to a thread: what its own steps keep of its data and of its cell
holds in every reachable state.
-/

namespace Coursework.Concurrency

variable {ι κ τ α ρ : Type*} [DecidableEq ι] [DecidableEq κ] {team : Team ι τ (κ → α) ρ}
  {s : TeamState ι τ (κ → α) ρ} {cell : ι → κ} {Inv : ι → τ → α → Prop}

/-- A property of each thread and its own cell, which no two threads share: a thread starts with it,
keeps it by its steps, and writes no other cell. -/
structure Team.OwnCells (team : Team ι τ (κ → α) ρ) (cell : ι → κ) (Inv : ι → τ → α → Prop) :
    Prop where
  injective : Function.Injective cell
  start : ∀ i, Inv i (team.start i) (team.shared (cell i))
  step : ∀ i t t' shared shared', Inv i t (shared (cell i)) →
    team.step i t shared = some (t', shared') →
    ∃ v, shared' = Function.update shared (cell i) v ∧ Inv i t' v

/-- The property holds of every thread in every reachable state. -/
theorem Team.OwnCells.holds (h : team.OwnCells cell Inv) (hs : team.Reachable s) (i : ι) (t : τ)
    (hthread : s.threads i = some t) : Inv i t (s.shared (cell i)) := by
  have hall : ∀ i, (s.threads i = none → s.shared (cell i) = team.shared (cell i)) ∧
      ∀ t, s.threads i = some t → Inv i t (s.shared (cell i)) := by
    apply hs.threads_invariant fun threads shared =>
      ∀ i, (threads i = none → shared (cell i) = team.shared (cell i)) ∧
        ∀ t, threads i = some t → Inv i t (shared (cell i))
    · exact fun i => ⟨fun _ => rfl, fun t hnone => nomatch hnone⟩
    · intro threads shared j hinv hnone i
      by_cases hij : i = j
      · subst hij
        rw [Function.update_self, (hinv i).1 hnone]
        exact ⟨fun hnone => absurd hnone (Option.some_ne_none _),
          fun t hsome => Option.some.inj hsome ▸ h.start i⟩
      · rw [Function.update_of_ne hij]
        exact hinv i
    · intro threads shared j t t' shared' hinv hthread hstep i
      obtain ⟨v, rfl, hv⟩ := h.step j t t' shared shared' ((hinv j).2 t hthread) hstep
      by_cases hij : i = j
      · subst hij
        rw [Function.update_self, Function.update_self]
        exact ⟨fun hnone => absurd hnone (Option.some_ne_none _),
          fun t hsome => Option.some.inj hsome ▸ hv⟩
      · rw [Function.update_of_ne hij, Function.update_of_ne (h.injective.ne hij)]
        exact hinv i
  exact (hall i).2 t hthread

/-- If with the property each step of a thread uses up one of its own, and a thread that has not
exited has one, then every schedule ends with all threads exited and the property of each. -/
theorem Team.OwnCells.delivers [Fintype ι] (h : team.OwnCells cell Inv) (left : ι → τ → ℕ)
    (hleft : ∀ i t t' shared shared', Inv i t (shared (cell i)) →
      team.step i t shared = some (t', shared') → left i t' < left i t)
    (hlive : ∀ i t shared, Inv i t (shared (cell i)) → team.exited t = false →
      ∃ next, team.step i t shared = some next) :
    team.Delivers fun s => ∀ i, ∃ t, team.exited t = true ∧ Inv i t (s.shared (cell i)) := by
  refine ⟨⟨team.remaining left team.initial, ?_⟩, ?_, ?_⟩
  · intro schedule s hrun
    refine team.schedule_length_le left ?_ schedule hrun
    intro s hs i t t' shared hthread hstep
    exact hleft i t t' s.shared shared (h.holds hs i t hthread) hstep
  · intro s hs hstuck
    apply hs.returned_of_stuck _ hstuck
    intro i t hthread hexited
    obtain ⟨next, hnext⟩ := hlive i t s.shared (h.holds hs i t hthread) hexited
    refine ⟨i, ?_⟩
    rw [Team.threadStep, hthread]
    simp only [hnext]
    exact Option.some_ne_none _
  · intro s hs hreturned i
    obtain ⟨t, hthread, hexited⟩ := (hs.returned hreturned).1 i
    exact ⟨t, hexited, h.holds hs i t hthread⟩

end Coursework.Concurrency
