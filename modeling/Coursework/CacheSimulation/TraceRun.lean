import Coursework.CacheSimulation.Refinement

/-!
# Runs on well-formed traces

A line with a readable address beyond the first round of the sets is always processed,
so a well-formed trace is simulated to its end, and the final state shows the history
of its accesses. The same holds after every prefix of the trace.
-/

namespace Coursework.CacheSimulation.Sys2

open Coursework.Java
open Coursework.Recency

/-- A well-formed line is processed, and adds to the history what it stands for. -/
theorem step_represents (W k : ℕ) (hW : 0 < W) (hk : 1 ≤ k) (hk31 : k < 31) (indexLength : Int32)
    (hindex : indexLength.toInt = k) (s : State W (2 ^ k)) (past : List (Access ℕ))
    (h : Represents W (2 ^ k) s past) (line : String)
    (hlen : ((accessOf line).toList ++ past).length ≤ 2 ^ 31)
    (hline : WellFormedLine (2 ^ k) line) :
    ∃ s', step indexLength (intLog2 blockByte) s line = .ok s' ∧
      Represents W (2 ^ k) s' ((accessOf line).toList ++ past) := by
  obtain ⟨record, hrecord, hskip | ⟨hop, haddress⟩⟩ := hline
  · refine ⟨s, ?_, ?_⟩
    · simp [step, hrecord, hskip]
    · simpa [accessOf, hrecord, hskip] using h
  · have hnotSkip : record.loadStore ≠ "-" := by
      rcases hop with hop | hop <;> rw [hop] <;> decide
    have hfits : (2 : ℕ) ^ k < 2 ^ 31 := Nat.pow_lt_pow_right (by decide) hk31
    push_cast at haddress
    have hround : (0 : ℤ) < 16 * 2 ^ k := by positivity
    have hunsigned := unsignedLong_of_nonneg record.addressForMemoryOp (by omega)
    have hcut : 2 ^ (k + 4) ≤ unsignedLong record.addressForMemoryOp := by
      zify
      rw [hunsigned, pow_add]
      omega
    have hstore : record.loadStore = loadStoreOf (record.loadStore = "S") := by
      rcases hop with hop | hop <;> rw [hop] <;> rfl
    have hdecode := decodeAddress_eq indexLength k hk hk31 hindex record.addressForMemoryOp hcut
    have haccess : accessOf line =
        some ⟨unsignedLong record.addressForMemoryOp / 16, record.loadStore = "S"⟩ := by
      simp only [accessOf, hrecord, if_neg hnotSkip, ← hunsigned, Int.toNat_natCast]
    have hpast : past.length < 2 ^ 31 := by
      rw [haccess] at hlen
      exact hlen
    obtain ⟨s', hs', hrep⟩ := access_represents W (2 ^ k) hW (by positivity) hfits s past h hpast
      record ⟨_, _, _⟩ ⟨unsignedLong record.addressForMemoryOp / 16, record.loadStore = "S"⟩
      ((Nat.le_div_iff_mul_le (by decide)).mpr (by rw [← Nat.pow_add 2 k 4]; exact hcut))
      hstore rfl rfl
    refine ⟨s', ?_, ?_⟩
    · simp only [step, hrecord, ok_bind, if_neg hnotSkip, hdecode]
      exact hs'
    · rw [haccess]
      exact hrep

/-- The loop over a well-formed trace ends, and its state shows the accesses of the trace. -/
theorem readLines_step (W k : ℕ) (hW : 0 < W) (hk : 1 ≤ k) (hk31 : k < 31) (indexLength : Int32)
    (hindex : indexLength.toInt = k) (trace : List String) (hlen : (accesses trace).length < 2 ^ 31)
    (hwf : ∀ line ∈ trace, WellFormedLine (2 ^ k) line) :
    ∃ s, readLines (step indexLength (intLog2 blockByte)) (State.initial W (2 ^ k)) 0 trace =
        .ok s ∧ Represents W (2 ^ k) s (accesses trace).reverse := by
  obtain ⟨s, hrun, hrep⟩ := readLines_represents (step indexLength (intLog2 blockByte)) accessOf
    (Represents W (2 ^ k)) (WellFormedLine (2 ^ k)) (2 ^ 31)
    (fun s past line hline hpast h =>
      step_represents W k hW hk hk31 indexLength hindex s past h line hpast hline)
    (State.initial W (2 ^ k)) [] 0 trace hwf (by simpa [accesses] using hlen.le)
    (represents_initial W (2 ^ k))
  rw [List.append_nil] at hrep
  exact ⟨s, hrun, hrep⟩

/-- A finished run of a power-of-two cache whose final state shows a history. -/
structure Shows (run : Run) (w k : ℕ) (past : List (Access ℕ)) : Prop where
  ways : run.geometry.ways = 2 ^ w
  sets : run.geometry.sets = 2 ^ k
  final : Represents run.geometry.ways run.geometry.sets run.final past

/-- A well-formed trace is simulated to its end, on every power-of-two cache. -/
theorem simulate_shows (cacheSize setAssociativity : Int32) (w k : ℕ)
    (hgeometry : CacheGeometry cacheSize setAssociativity w k) (trace : List String)
    (hlen : (accesses trace).length < 2 ^ 31) (hwf : ∀ line ∈ trace, WellFormedLine (2 ^ k) line)
    (verbose : Bool) (first last : Int32) :
    ∃ run, simulate (.ofLines trace) cacheSize setAssociativity verbose first last = .ok run ∧
      Shows run w k (accesses trace).reverse := by
  obtain ⟨indexLength, hindex, hsetUp⟩ := hgeometry.setUp_eq
  have hexponents := hgeometry.exponents
  obtain ⟨s, hrun, hrep⟩ := readLines_step (2 ^ w) k (by positivity) hgeometry.index (by omega)
    indexLength hindex trace hlen hwf
  simp only [simulate, hsetUp, readLoop, InputStream.ofLines, hrun, Bool.false_eq_true, if_false,
    Except.ok.injEq, exists_eq_left']
  exact ⟨rfl, rfl, hrep⟩

/-- The accesses of a finished run are counted by their outcomes. -/
theorem Shows.stats {run : Run} {w k : ℕ} {past : List (Access ℕ)} (h : Shows run w k past) :
    run.final.stats = statisticsOf (kindsOf (2 ^ w) (2 ^ k) past) := by
  rw [h.final.stats, h.ways, h.sets]

/-- The entries of a finished run. -/
theorem Shows.target_eq {run : Run} {w k : ℕ} {past : List (Access ℕ)} (h : Shows run w k past)
    (id index : ℕ) :
    run.target id index = if hbounds : id < 2 ^ w ∧ index < 2 ^ k then
      some (cacheOf (2 ^ w) (2 ^ k) past ⟨id, hbounds.1⟩ ⟨index, hbounds.2⟩) else none := by
  obtain ⟨⟨ways, sets, indexLength, offsetLength⟩, final, printed⟩ := run
  obtain ⟨rfl, rfl, hfinal⟩ := h
  have hcache : final.cache = cacheOf (2 ^ w) (2 ^ k) past := hfinal.cache
  simp only [Run.target, hcache]

/-- The cases of a finished run are the kinds of its accesses. -/
theorem Shows.cases {run : Run} {w k : ℕ} {past : List (Access ℕ)} (h : Shows run w k past) :
    run.final.log.map VerboseLine.caseNum =
      (kindsOf (2 ^ w) (2 ^ k) past).reverse.map (fun outcome => caseNumOf outcome.2) :=
  h.final.cases.trans (by rw [h.ways, h.sets])

/-- A finished run has recorded one line for each access. -/
theorem Shows.log_length {run : Run} {w k : ℕ} {past : List (Access ℕ)}
    (h : Shows run w k past) : run.final.log.length = past.length := by
  have hcases := congrArg List.length h.cases
  rwa [List.length_map, List.length_map, List.length_reverse, kindsOf, jointOutcomes_length]
    at hcases

/-- All misses, of loads and of stores. -/
theorem totalMisses_statisticsOf (kinds : List (Bool × Kind)) :
    (statisticsOf kinds).totalMisses =
      Int32.ofNat (kinds.countP fun outcome => outcome.2 ≠ .hit) := by
  have hcount : kinds.count (false, .clean) + kinds.count (false, .dirty) +
      (kinds.count (true, .clean) + kinds.count (true, .dirty)) =
        kinds.countP fun outcome => outcome.2 ≠ .hit := by
    induction kinds with
    | nil => rfl
    | cons outcome rest ih =>
      obtain ⟨store, kind⟩ := outcome
      cases store <;> cases kind <;> simp at ih ⊢ <;> omega
  rw [Statistics.totalMisses, statisticsOf, ← Int32.ofNat_add, hcount]

/-- All misses that write back, of loads and of stores. -/
theorem totalDirtyMisses_statisticsOf (kinds : List (Bool × Kind)) :
    (statisticsOf kinds).totalDirtyMisses =
      Int32.ofNat (kinds.countP fun outcome => outcome.2 = .dirty) := by
  have hcount : kinds.count (false, .dirty) + kinds.count (true, .dirty) =
      kinds.countP fun outcome => outcome.2 = .dirty := by
    induction kinds with
    | nil => rfl
    | cons outcome rest ih =>
      obtain ⟨store, kind⟩ := outcome
      cases store <;> cases kind <;> simp at ih ⊢ <;> omega
  rw [Statistics.totalDirtyMisses, statisticsOf, ← Int32.ofNat_add, hcount]

/-- Every access takes a cycle, every miss 80 more, and every write-back another 80. -/
theorem totalCycle_statisticsOf (kinds : List (Bool × Kind)) :
    (statisticsOf kinds).totalCycle =
      Int32.ofNat (kinds.length + 80 * (kinds.countP fun outcome => outcome.2 ≠ .hit) +
        80 * kinds.countP fun outcome => outcome.2 = .dirty) := by
  have hcount : kinds.count (false, .hit) + 81 * kinds.count (false, .clean) +
      161 * kinds.count (false, .dirty) + (kinds.count (true, .hit) +
        81 * kinds.count (true, .clean) + 161 * kinds.count (true, .dirty)) =
      kinds.length + 80 * (kinds.countP fun outcome => outcome.2 ≠ .hit) +
        80 * kinds.countP fun outcome => outcome.2 = .dirty := by
    induction kinds with
    | nil => rfl
    | cons outcome rest ih =>
      obtain ⟨store, kind⟩ := outcome
      cases store <;> cases kind <;> simp at ih ⊢ <;> omega
  rw [Statistics.totalCycle, statisticsOf, ← Int32.ofNat_add, hcount]

end Coursework.CacheSimulation.Sys2
