import Coursework.CacheSimulation.TraceRun

/-!
# Hits are short stack distances

An access of the set-associative simulator is handled as a hit exactly when its block
was accessed before and fewer distinct other blocks of the set than there are ways were
accessed since.
-/

namespace Coursework.CacheSimulation.Sys2

open Coursework.Java
open Coursework.Recency

/-- A block was accessed, and fewer than `ways` distinct blocks of its set were accessed after the
last time. -/
def ReusedWithin (ways sets : ℕ) (earlier : List (Access ℕ)) (block : ℕ) : Prop :=
  ∃ before last between, earlier = before ++ last :: between ∧ last.block = block ∧
    (∀ a ∈ between, a.block ≠ block) ∧
    (blocks (between.filter fun a => a.block % sets = block % sets)).toFinset.card < ways

/-- A block is resident after some accesses exactly when it was reused within the ways. -/
theorem mem_resident_iff_reusedWithin (W sets : ℕ) (earlier : List (Access ℕ)) (block : ℕ) :
    block ∈ resident W (setHistory sets earlier.reverse (block % sets)) ↔
      ReusedWithin W sets earlier block := by
  have hcount (between : List (Access ℕ)) :
      (blocks (setHistory sets between.reverse (block % sets))).toFinset =
        (blocks (between.filter fun a => a.block % sets = block % sets)).toFinset := by
    rw [setHistory, restrict, List.filter_reverse, blocks, List.map_reverse,
      List.toFinset_reverse, blocks]
  have hfresh (between : List (Access ℕ)) :
      block ∉ blocks between.reverse ↔ ∀ a ∈ between, a.block ≠ block := by
    simp [blocks]
  rw [setHistory, mem_resident_restrict_iff (fun block => block % sets)]
  constructor
  · intro h
    obtain ⟨newer, last, older, hsplit, hlast, hnewer, hcard⟩ := h
    refine ⟨older.reverse, last, newer.reverse, ?_, hlast, ?_, ?_⟩
    · rw [← List.reverse_reverse earlier, hsplit]
      simp
    · rw [← hfresh, List.reverse_reverse]
      exact hnewer
    · rw [← hcount, List.reverse_reverse]
      exact hcard
  · intro h
    obtain ⟨before, last, between, hsplit, hlast, hbetween, hcard⟩ := h
    refine ⟨between.reverse, last, before.reverse, ?_, hlast, (hfresh between).mpr hbetween, ?_⟩
    · rw [hsplit]
      simp
    · rw [← hcount] at hcard
      exact hcard

/-- The case that the simulator records for an access is the kind of the access. -/
theorem Represents.caseNum_eq {W sets : ℕ} {s : State W sets} {refs : List (Access ℕ)}
    (h : Represents W sets s refs.reverse) (i : ℕ) :
    (s.log[i]?).map VerboseLine.caseNum = (refs[i]?).map fun a =>
      caseNumOf (kind W (setHistory sets (refs.take i).reverse (a.block % sets)) a.block) := by
  rw [← List.getElem?_map, h.cases, List.getElem?_map, kindsOf, jointOutcomes_reverse_getElem?,
    Option.map_map]
  rfl

/-- Case 1 is a hit. -/
theorem caseNumOf_eq_case1_iff (kind : Kind) : caseNumOf kind = .case1 ↔ kind = .hit := by
  cases kind <;> simp [caseNumOf]

/-- The `i`-th access of a trace is a hit exactly when its block was accessed before and fewer
distinct other blocks of its set than there are ways were accessed in between. -/
theorem caseNum_eq_case1_iff (cacheSize setAssociativity : Int32) (w k : ℕ)
    (hgeometry : CacheGeometry cacheSize setAssociativity w k) (trace : List String)
    (hlen : (accesses trace).length < 2 ^ 31)
    (hwf : ∀ line ∈ trace, WellFormedLine (2 ^ k) line)
    (verbose : Bool) (first last : Int32) :
    ∃ run, simulate (.ofLines trace) cacheSize setAssociativity verbose first last = .ok run ∧
      run.final.log.length = (accesses trace).length ∧
      ∀ i line a, run.final.log[i]? = some line → (accesses trace)[i]? = some a →
        (line.caseNum = .case1 ↔
          ReusedWithin (2 ^ w) (2 ^ k) ((accesses trace).take i) a.block) := by
  obtain ⟨run, hrun, hshows⟩ := simulate_shows cacheSize setAssociativity w k hgeometry trace hlen
    hwf verbose first last
  refine ⟨run, hrun, ?_, ?_⟩
  · rw [hshows.log_length, List.length_reverse]
  · intro i line a hline ha
    have hcase := hshows.final.caseNum_eq i
    rw [hline, ha, Option.map_some, Option.map_some, Option.some.injEq, hshows.ways,
      hshows.sets] at hcase
    rw [hcase, ← mem_resident_iff_reusedWithin, ← kind_eq_hit_iff, caseNumOf_eq_case1_iff]

/-- A load, a store to another block of its set, a line that is skipped and a reload, on two ways
of 32 sets. -/
theorem caseNum_eq_case1_iff_reload :
    let trace := ["1 48d1e2 -1 5 45 - - L 0 200", "2 48d1e6 -1 5 45 - - S 0 a00",
      "3 48d1ea -1 5 45 - T - 0 0", "4 48d1ec -1 5 45 - - L 0 204"]
    ∃ run, simulate (.ofLines trace) 1 2 true 0 9 = .ok run ∧
      run.final.log.length = (accesses trace).length ∧
      ∀ i line a, run.final.log[i]? = some line → (accesses trace)[i]? = some a →
        (line.caseNum = .case1 ↔ ReusedWithin 2 32 ((accesses trace).take i) a.block) :=
  caseNum_eq_case1_iff 1 2 1 5 ⟨by decide, by decide, by decide, by decide⟩ _ (by decide)
    (by decide) true 0 9

end Coursework.CacheSimulation.Sys2
