import Coursework.CacheSimulation.TraceRun
import Coursework.Recency.Competition

/-!
# Simulated misses against those of other caches

A cache with the same sets may replace blocks in any way, even with the rest of the trace
known. The misses that are simulated stay in proportion to those of every such cache, nothing
misses less often as long as there are ways for all blocks of a set, and cutting a trace in two
costs at most one miss for each way.
-/

namespace Coursework.CacheSimulation.Sys2

open Coursework.Java
open Coursework.Recency

/-- Some cache with `2 ^ k` sets of so many ways serves the accesses of a trace with `n` misses. -/
def Served (k ways : ℕ) (trace : List String) (n : ℕ) : Prop :=
  ∃ contents, ServesSets (fun block => block % 2 ^ k) ways (accesses trace).reverse contents n

/-- The simulated misses of a history. -/
theorem Shows.totalMisses {run : Run} {w k : ℕ} {past : List (Access ℕ)} (h : Shows run w k past)
    (hlen : past.length < 2 ^ 31) :
    run.report.totalMisses.toInt = jointMisses (fun block => block % 2 ^ k) (2 ^ w) past := by
  have hmisses : jointMisses (fun block => block % 2 ^ k) (2 ^ w) past < 2 ^ 31 :=
    (jointMisses_le_length _ _ _).trans_lt hlen
  change run.final.stats.totalMisses.toInt = _
  rw [h.stats, totalMisses_statisticsOf]
  exact Int32.toInt_ofNat_of_lt hmisses

/-- The misses that are simulated with `2 ^ w` ways are those of one such cache, and at most
`2 ^ w / (2 ^ w + 1 - h)` times those of any cache with `h` ways. -/
theorem simulate_competitive (cacheSize setAssociativity : Int32) (w k : ℕ)
    (hgeometry : CacheGeometry cacheSize setAssociativity w k) (trace : List String)
    (hlen : (accesses trace).length < 2 ^ 31) (hwf : ∀ line ∈ trace, WellFormedLine (2 ^ k) line)
    (verbose : Bool) (first last : Int32) :
    ∃ run, simulate (.ofLines trace) cacheSize setAssociativity verbose first last = .ok run ∧
      (∃ n : ℕ, run.report.totalMisses.toInt = n ∧ Served k (2 ^ w) trace n) ∧
      ∀ h n : ℕ, h ≤ 2 ^ w → Served k h trace n →
        (2 ^ w + 1 - h) * run.report.totalMisses.toInt ≤ 2 ^ w * n := by
  obtain ⟨run, hrun, hshows⟩ := simulate_shows cacheSize setAssociativity w k hgeometry trace hlen
    hwf verbose first last
  have hmisses := hshows.totalMisses (by rwa [List.length_reverse])
  refine ⟨run, hrun, ⟨_, hmisses, _, servesSets_resident _ _ (by positivity) _⟩, ?_⟩
  rintro h n hways ⟨contents, hserves⟩
  have hle := hserves.mul_jointMisses_le hways
  have hcast : ((2 ^ w + 1 - h : ℕ) : ℤ) = 2 ^ w + 1 - h := by
    rw [Nat.cast_sub (hways.trans (Nat.le_succ _))]
    push_cast
    ring
  rw [hmisses, ← hcast]
  exact_mod_cast hle

/-- A store and four loads on one way of 64 sets. -/
theorem simulate_competitive_conflict :
    let trace := ["1 48d1e2 -1 5 45 - - S 0 400", "2 48d1e6 -1 5 45 - - L 0 800",
      "3 48d1ea -1 5 45 - - L 0 404", "4 48d1ec -1 5 45 - - L 0 c00", "5 48d1f0 -1 5 45 - - L 0 400"]
    ∃ run, simulate (.ofLines trace) 1 1 true 0 9 = .ok run ∧
      (∃ n : ℕ, run.report.totalMisses.toInt = n ∧ Served 6 (2 ^ 0) trace n) ∧
      ∀ h n : ℕ, h ≤ 2 ^ 0 → Served 6 h trace n →
        (2 ^ 0 + 1 - h) * run.report.totalMisses.toInt ≤ 2 ^ 0 * n :=
  simulate_competitive 1 1 0 6 ⟨by decide, by decide, by decide, by decide⟩ _ (by decide)
    (by decide) true 0 9

/-- Every cache misses each block of the trace, and with ways for all blocks of each set the
simulated one misses nothing else. -/
theorem simulate_compulsory (cacheSize setAssociativity : Int32) (w k : ℕ)
    (hgeometry : CacheGeometry cacheSize setAssociativity w k) (trace : List String)
    (hlen : (accesses trace).length < 2 ^ 31) (hwf : ∀ line ∈ trace, WellFormedLine (2 ^ k) line)
    (verbose : Bool) (first last : Int32) :
    ∃ run, simulate (.ofLines trace) cacheSize setAssociativity verbose first last = .ok run ∧
      (∀ h n : ℕ, Served k h trace n → (blocks (accesses trace)).toFinset.card ≤ n) ∧
      ((∀ index, (blocks ((accesses trace).filter fun a => a.block % 2 ^ k = index)).toFinset.card ≤
          2 ^ w) →
        run.report.totalMisses.toInt = (blocks (accesses trace)).toFinset.card) := by
  obtain ⟨run, hrun, hshows⟩ := simulate_shows cacheSize setAssociativity w k hgeometry trace hlen
    hwf verbose first last
  have hmisses := hshows.totalMisses (by rwa [List.length_reverse])
  have hreverse : ∀ refs : List (Access ℕ),
      (blocks refs.reverse).toFinset = (blocks refs).toFinset := by
    intro refs
    rw [blocks, List.map_reverse, List.toFinset_reverse, blocks]
  have hleast : ∀ h n : ℕ, Served k h trace n → (blocks (accesses trace)).toFinset.card ≤ n := by
    rintro h n ⟨contents, hserves⟩
    rw [← hreverse]
    exact hserves.card_blocks_le
  refine ⟨run, hrun, hleast, fun hroom => ?_⟩
  have hle : jointMisses (fun block => block % 2 ^ k) (2 ^ w) (accesses trace).reverse ≤
      (blocks (accesses trace).reverse).toFinset.card := by
    refine jointMisses_le_card _ fun index => ?_
    rw [restrict, List.filter_reverse, hreverse]
    exact hroom index
  have hge := hleast (2 ^ w) _ ⟨_, servesSets_resident _ _ (by positivity) _⟩
  rw [hreverse] at hle
  rw [hmisses]
  exact_mod_cast Nat.le_antisymm hle hge

/-- Two blocks of one set, each accessed twice, on two ways of 32 sets. -/
theorem simulate_compulsory_pair :
    let trace := ["1 48d1e2 -1 5 45 - - S 0 400", "2 48d1e6 -1 5 45 - - L 0 800",
      "3 48d1ea -1 5 45 - - L 0 404", "4 48d1ec -1 5 45 - - L 0 804"]
    ∃ run, simulate (.ofLines trace) 1 2 true 0 9 = .ok run ∧
      (∀ h n : ℕ, Served 5 h trace n → (blocks (accesses trace)).toFinset.card ≤ n) ∧
      run.report.totalMisses.toInt = (blocks (accesses trace)).toFinset.card := by
  intro trace
  obtain ⟨run, hrun, hleast, hequal⟩ := simulate_compulsory 1 2 1 5
    ⟨by decide, by decide, by decide, by decide⟩ trace (by decide) (by decide) true 0 9
  refine ⟨run, hrun, hleast, hequal fun index => ?_⟩
  have hblocks : (blocks (accesses trace)).toFinset.card = 2 := by decide
  refine (Finset.card_le_card ?_).trans hblocks.le
  intro block hblock
  rw [List.mem_toFinset] at hblock ⊢
  exact (List.filter_sublist.map Access.block).subset hblock

/-- A trace that is simulated in two parts, each on an empty cache, has at least the misses of the
whole and at most one more for each way of each set. -/
theorem simulate_append (cacheSize setAssociativity : Int32) (w k : ℕ)
    (hgeometry : CacheGeometry cacheSize setAssociativity w k) (trace trace' : List String)
    (hlen : (accesses (trace ++ trace')).length < 2 ^ 31)
    (hwf : ∀ line ∈ trace ++ trace', WellFormedLine (2 ^ k) line)
    (verbose : Bool) (first last : Int32) :
    ∃ run run' whole,
      simulate (.ofLines trace) cacheSize setAssociativity verbose first last = .ok run ∧
      simulate (.ofLines trace') cacheSize setAssociativity verbose first last = .ok run' ∧
      simulate (.ofLines (trace ++ trace')) cacheSize setAssociativity verbose first last =
        .ok whole ∧
      whole.report.totalMisses.toInt ≤
        run.report.totalMisses.toInt + run'.report.totalMisses.toInt ∧
      run.report.totalMisses.toInt + run'.report.totalMisses.toInt ≤
        whole.report.totalMisses.toInt + 2 ^ w * 2 ^ k := by
  have haccesses : accesses (trace ++ trace') = accesses trace ++ accesses trace' :=
    List.filterMap_append
  have hlengths : (accesses trace).length + (accesses trace').length < 2 ^ 31 := by
    rwa [haccesses, List.length_append] at hlen
  obtain ⟨run, hrun, hshows⟩ := simulate_shows cacheSize setAssociativity w k hgeometry trace
    (by omega) (fun line hline => hwf line (List.mem_append_left _ hline)) verbose first last
  obtain ⟨run', hrun', hshows'⟩ := simulate_shows cacheSize setAssociativity w k hgeometry trace'
    (by omega) (fun line hline => hwf line (List.mem_append_right _ hline)) verbose first last
  obtain ⟨whole, hwhole, hshowsWhole⟩ := simulate_shows cacheSize setAssociativity w k hgeometry
    (trace ++ trace') hlen hwf verbose first last
  refine ⟨run, run', whole, hrun, hrun', hwhole, ?_⟩
  have hsets : ∀ a ∈ (accesses trace').reverse ++ (accesses trace).reverse,
      a.block % 2 ^ k ∈ Finset.range (2 ^ k) := fun a _ =>
    Finset.mem_range.mpr (Nat.mod_lt _ (by positivity))
  obtain ⟨hfewer, hmore⟩ := jointMisses_append (fun block => block % 2 ^ k) (2 ^ w)
    (accesses trace').reverse (accesses trace).reverse (Finset.range (2 ^ k)) hsets
  rw [hshows.totalMisses (by rw [List.length_reverse]; omega),
    hshows'.totalMisses (by rw [List.length_reverse]; omega),
    hshowsWhole.totalMisses (by rwa [List.length_reverse]), haccesses, List.reverse_append]
  rw [Finset.card_range] at hmore
  constructor
  · rw [Int.add_comm]
    exact_mod_cast hfewer
  · rw [Int.add_comm]
    exact_mod_cast hmore

/-- A trace cut between two accesses to a block. -/
theorem simulate_append_reload :
    let trace := ["1 48d1e2 -1 5 45 - - S 0 400", "2 48d1e6 -1 5 45 - - L 0 800"]
    let trace' := ["3 48d1ea -1 5 45 - - L 0 404"]
    ∃ run run' whole, simulate (.ofLines trace) 1 2 true 0 9 = .ok run ∧
      simulate (.ofLines trace') 1 2 true 0 9 = .ok run' ∧
      simulate (.ofLines (trace ++ trace')) 1 2 true 0 9 = .ok whole ∧
      whole.report.totalMisses.toInt ≤
        run.report.totalMisses.toInt + run'.report.totalMisses.toInt ∧
      run.report.totalMisses.toInt + run'.report.totalMisses.toInt ≤
        whole.report.totalMisses.toInt + 2 ^ 1 * 2 ^ 5 :=
  simulate_append 1 2 1 5 ⟨by decide, by decide, by decide, by decide⟩ _ _ (by decide) (by decide)
    true 0 9

end Coursework.CacheSimulation.Sys2
