import Coursework.CacheSimulation.Contents

/-!
# Doubling size and associativity

Twice the size with twice the ways keeps the number of sets. The larger cache then holds
every block the smaller one holds, after every line, and reports no more misses, dirty
misses and cycles, as long as the counters of the smaller run do not overflow.
-/

namespace Coursework.CacheSimulation.Sys2

open Coursework.Java
open Coursework.Recency

/-- The cycles that an access of a case takes. -/
def caseCycles : CaseNum → ℕ
  | .unset => 0
  | .case1 => 1
  | .case2a => 81
  | .case2b => 161

/-- The cycles of all recorded cases, as a number without bound. -/
def cyclesOf (log : List VerboseLine) : ℕ :=
  ((log.map VerboseLine.caseNum).map caseCycles).sum

/-- The cycles of a history: one for each access, 80 for each miss and for each write-back. -/
def cycles (w k : ℕ) (past : List (Access ℕ)) : ℕ :=
  past.length + 80 * jointMisses (fun block => block % 2 ^ k) (2 ^ w) past +
    80 * jointWritebacks (fun block => block % 2 ^ k) (2 ^ w) past

/-- The cycles of the kinds of some accesses. -/
theorem sum_caseCycles (kinds : List (Bool × Kind)) :
    ((kinds.map fun outcome => caseNumOf outcome.2).map caseCycles).sum =
      kinds.length + 80 * (kinds.countP fun outcome => outcome.2 ≠ .hit) +
        80 * kinds.countP fun outcome => outcome.2 = .dirty := by
  induction kinds with
  | nil => rfl
  | cons outcome rest ih =>
    obtain ⟨store, kind⟩ := outcome
    cases kind <;> simp [caseNumOf, caseCycles] at ih ⊢ <;> omega

/-- The recorded cases take the cycles of the history. -/
theorem Shows.cyclesOf_log {run : Run} {w k : ℕ} {past : List (Access ℕ)}
    (h : Shows run w k past) : cyclesOf run.final.log = cycles w k past := by
  rw [cyclesOf, h.cases, List.map_reverse, List.map_reverse, List.sum_reverse, sum_caseCycles,
    jointOutcomes_length]
  rfl

/-- The larger cache takes no more cycles. -/
theorem cycles_le (w k : ℕ) (past : List (Access ℕ)) : cycles (w + 1) k past ≤ cycles w k past := by
  have hways : 2 ^ w ≤ 2 ^ (w + 1) := Nat.pow_le_pow_right (by decide) (by omega)
  have hmisses := jointMisses_le (fun block => block % 2 ^ k) _ _ hways past
  have hwritebacks := jointWritebacks_le (fun block => block % 2 ^ k) _ _ (by positivity) hways past
  simp only [cycles]
  omega

/-- Counts below `2 ^ 31` are compared as `int`s. -/
theorem ofNat_le_ofNat (m n : ℕ) (h : m ≤ n) (hn : n < 2 ^ 31) : Int32.ofNat m ≤ Int32.ofNat n := by
  rw [Int32.le_iff_toInt_le, Int32.toInt_ofNat_of_lt (by omega), Int32.toInt_ofNat_of_lt (by omega)]
  exact_mod_cast h

/-- Doubling the size and the number of ways keeps the resident blocks and adds neither misses,
nor dirty misses, nor cycles. -/
theorem simulate_double (cacheSize setAssociativity : Int32) (w k : ℕ)
    (hsmall : CacheGeometry cacheSize setAssociativity w k)
    (hlarge : CacheGeometry (2 * cacheSize) (2 * setAssociativity) (w + 1) k)
    (trace : List String) (hlen : (accesses trace).length < 2 ^ 31)
    (hwf : ∀ line ∈ trace, WellFormedLine (2 ^ k) line) (verbose : Bool) (first last : Int32) :
    ∃ small large,
      simulate (.ofLines trace) cacheSize setAssociativity verbose first last = .ok small ∧
      simulate (.ofLines trace) (2 * cacheSize) (2 * setAssociativity) verbose first last =
        .ok large ∧
      (∀ m block, ResidentAfter cacheSize setAssociativity trace m block →
        ResidentAfter (2 * cacheSize) (2 * setAssociativity) trace m block) ∧
      large.report.totalMisses ≤ small.report.totalMisses ∧
      large.final.stats.totalDirtyMisses ≤ small.final.stats.totalDirtyMisses ∧
      (cyclesOf small.final.log < 2 ^ 31 →
        large.report.totalCycle ≤ small.report.totalCycle) := by
  obtain ⟨small, hrunSmall, hshowsSmall⟩ := simulate_shows cacheSize setAssociativity w k hsmall
    trace hlen hwf verbose first last
  obtain ⟨large, hrunLarge, hshowsLarge⟩ := simulate_shows (2 * cacheSize) (2 * setAssociativity)
    (w + 1) k hlarge trace hlen hwf verbose first last
  have hways : 2 ^ w ≤ 2 ^ (w + 1) := Nat.pow_le_pow_right (by decide) (by omega)
  have hpast : (accesses trace).reverse.length < 2 ^ 31 := by rwa [List.length_reverse]
  refine ⟨small, large, hrunSmall, hrunLarge, ?_, ?_, ?_, ?_⟩
  · intro m block hblock
    rw [residentAfter_iff cacheSize setAssociativity w k hsmall trace hlen hwf] at hblock
    rw [residentAfter_iff _ _ (w + 1) k hlarge trace hlen hwf]
    exact resident_subset _ _ hways _ hblock
  · change large.final.stats.totalMisses ≤ small.final.stats.totalMisses
    rw [hshowsLarge.stats, hshowsSmall.stats, totalMisses_statisticsOf, totalMisses_statisticsOf]
    exact ofNat_le_ofNat _ _ (jointMisses_le (fun block => block % 2 ^ k) _ _ hways _)
      ((jointMisses_le_length _ _ _).trans_lt hpast)
  · rw [hshowsLarge.stats, hshowsSmall.stats, totalDirtyMisses_statisticsOf,
      totalDirtyMisses_statisticsOf]
    exact ofNat_le_ofNat _ _
      (jointWritebacks_le (fun block => block % 2 ^ k) _ _ (by positivity) hways _)
      ((jointWritebacks_le_length _ _ _).trans_lt hpast)
  · intro hcycles
    change large.final.stats.totalCycle ≤ small.final.stats.totalCycle
    rw [hshowsSmall.cyclesOf_log] at hcycles
    rw [hshowsLarge.stats, hshowsSmall.stats, totalCycle_statisticsOf, totalCycle_statisticsOf,
      jointOutcomes_length, jointOutcomes_length]
    exact ofNat_le_ofNat _ _ (cycles_le w k _) hcycles

/-- A store and four loads to three blocks of one set, on one and on two ways of 64 sets. -/
theorem simulate_double_conflict :
    let trace := ["1 48d1e2 -1 5 45 - - S 0 400", "2 48d1e6 -1 5 45 - - L 0 800",
      "3 48d1ea -1 5 45 - - L 0 404", "4 48d1ec -1 5 45 - - L 0 c00", "5 48d1f0 -1 5 45 - - L 0 400"]
    ∃ small large,
      simulate (.ofLines trace) 1 1 true 0 9 = .ok small ∧
      simulate (.ofLines trace) 2 2 true 0 9 = .ok large ∧
      (∀ m block, ResidentAfter 1 1 trace m block → ResidentAfter 2 2 trace m block) ∧
      large.report.totalMisses ≤ small.report.totalMisses ∧
      large.final.stats.totalDirtyMisses ≤ small.final.stats.totalDirtyMisses ∧
      large.report.totalCycle ≤ small.report.totalCycle := by
  intro trace
  obtain ⟨small, large, hsmall, hlarge, hresident, hmisses, hdirty, hcycle⟩ :=
    simulate_double 1 1 0 6 ⟨by decide, by decide, by decide, by decide⟩
      ⟨by decide, by decide, by decide, by decide⟩ trace (by decide) (by decide) true 0 9
  have hcycles : ((simulate (.ofLines trace) 1 1 true 0 9).toOption.map fun run =>
      cyclesOf run.final.log) = some 485 := by decide +kernel
  rw [hsmall] at hcycles
  have hsum : cyclesOf small.final.log = 485 := Option.some.inj hcycles
  exact ⟨small, large, hsmall, hlarge, hresident, hmisses, hdirty, hcycle (by omega)⟩

end Coursework.CacheSimulation.Sys2
