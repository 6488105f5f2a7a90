import Coursework.CacheSimulation.TraceRun

/-!
# The order of accesses to different sets does not matter

The last uses are positions in the whole trace, but a victim is chosen by comparing them
within one set. Traces with the same accesses to every index therefore leave the same
tags and dirty bits in every way and print the same statistics.
-/

namespace Coursework.CacheSimulation.Sys2

open Coursework.Java
open Coursework.Recency

/-- What an entry shows apart from its last use: valid bit, dirty bit and tag. -/
def Target.content (target : Target) : Int32 × Int32 × String :=
  (target.valid, target.dirty, target.tag)

/-- The content of a way depends on the history of its index only. -/
theorem content_cacheOf_congr (W sets : ℕ) (past past' : List (Access ℕ)) (id : Fin W)
    (index : Fin sets) (h : setHistory sets past index = setHistory sets past' index) :
    (cacheOf W sets past id index).content = (cacheOf W sets past' id index).content := by
  simp only [cacheOf, h]
  cases (ways W (setHistory sets past' index))[id.val]? with
  | none => rfl
  | some block => simp only [entryOf, Target.content, h]

/-- The counters do not depend on the order of the kinds. -/
theorem statisticsOf_perm (kinds kinds' : List (Bool × Kind)) (h : kinds.Perm kinds') :
    statisticsOf kinds = statisticsOf kinds' := by
  simp only [statisticsOf, h.count_eq]

/-- Accesses that agree on every index give histories that do. -/
theorem setHistory_reverse_congr (sets : ℕ) (hsets : 0 < sets) (refs refs' : List (Access ℕ))
    (h : ∀ index < sets, refs.filter (fun a => a.block % sets = index) =
      refs'.filter (fun a => a.block % sets = index)) (index : ℕ) :
    setHistory sets refs.reverse index = setHistory sets refs'.reverse index := by
  rw [setHistory, setHistory, restrict, restrict, List.filter_reverse, List.filter_reverse]
  by_cases hindex : index < sets
  · rw [h index hindex]
  · have hnone (accesses : List (Access ℕ)) :
        accesses.filter (fun a => a.block % sets = index) = [] := by
      apply List.filter_eq_nil_iff.mpr
      intro a _
      have hlt := Nat.mod_lt a.block hsets
      simp only [decide_eq_true_eq]
      omega
    rw [hnone, hnone]

/-- Traces with the same accesses to every index print the same statistics and leave the same
content in every way of every set. -/
theorem simulate_eq_of_same_accesses (cacheSize setAssociativity : Int32) (w k : ℕ)
    (hgeometry : CacheGeometry cacheSize setAssociativity w k) (trace trace' : List String)
    (hlen : (accesses trace).length < 2 ^ 31) (hlen' : (accesses trace').length < 2 ^ 31)
    (hwf : ∀ line ∈ trace, WellFormedLine (2 ^ k) line)
    (hwf' : ∀ line ∈ trace', WellFormedLine (2 ^ k) line)
    (hsame : ∀ index < 2 ^ k, (accesses trace).filter (fun a => a.block % 2 ^ k = index) =
      (accesses trace').filter (fun a => a.block % 2 ^ k = index))
    (verbose : Bool) (first last : Int32) :
    ∃ run run', simulate (.ofLines trace) cacheSize setAssociativity verbose first last = .ok run ∧
      simulate (.ofLines trace') cacheSize setAssociativity verbose first last = .ok run' ∧
      run.report = run'.report ∧
      ∀ id index, (run.target id index).map Target.content =
        (run'.target id index).map Target.content := by
  obtain ⟨run, hrun, hshows⟩ := simulate_shows cacheSize setAssociativity w k hgeometry trace hlen
    hwf verbose first last
  obtain ⟨run', hrun', hshows'⟩ := simulate_shows cacheSize setAssociativity w k hgeometry trace'
    hlen' hwf' verbose first last
  have hhistory := setHistory_reverse_congr (2 ^ k) (by positivity) _ _ hsame
  refine ⟨run, run', hrun, hrun', ?_, ?_⟩
  · apply congrArg Statistics.report
    rw [hshows.stats, hshows'.stats]
    exact statisticsOf_perm _ _ (jointOutcomes_perm _ _ _ _ hhistory)
  · intro id index
    rw [hshows.target_eq, hshows'.target_eq]
    by_cases hbounds : id < 2 ^ w ∧ index < 2 ^ k
    · rw [dif_pos hbounds, dif_pos hbounds, Option.map_some, Option.map_some, Option.some.injEq]
      exact content_cacheOf_congr _ _ _ _ _ _ (hhistory index)
    · rw [dif_neg hbounds, dif_neg hbounds]

/-- Two orders of a store and two loads, the middle one to an index of its own. -/
theorem simulate_eq_of_same_accesses_swap :
    let trace := ["1 48d1e2 -1 5 45 - - S 0 400", "2 48d1e6 -1 5 45 - - L 0 410",
      "3 48d1ea -1 5 45 - - L 0 800"]
    let trace' := ["1 48d1e6 -1 5 45 - - L 0 410", "2 48d1e2 -1 5 45 - - S 0 400",
      "3 48d1ea -1 5 45 - - L 0 800"]
    ∃ run run', simulate (.ofLines trace) 1 2 true 0 9 = .ok run ∧
      simulate (.ofLines trace') 1 2 true 0 9 = .ok run' ∧ run.report = run'.report ∧
      ∀ id index, (run.target id index).map Target.content =
        (run'.target id index).map Target.content :=
  simulate_eq_of_same_accesses 1 2 1 5 ⟨by decide, by decide, by decide, by decide⟩ _ _
    (by decide) (by decide) (by decide) (by decide) (by decide +kernel) true 0 9

end Coursework.CacheSimulation.Sys2
