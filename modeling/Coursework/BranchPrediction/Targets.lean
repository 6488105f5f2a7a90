import Coursework.BranchPrediction.Predictions

/-!
# Larger target buffers

The entry that a branch finds in a larger buffer is that of the latest taken branch among fewer.
If the entry of the smaller buffer is the branch's own, so is that of the larger one, which
therefore misses at most as often. Where no two branches share an entry nothing is missed.
-/

namespace Coursework.BranchPrediction.Sys2

open Coursework.Java
open Coursework.Prediction

/-- A branch that misses in a larger buffer misses in a smaller one. -/
theorem missCount_le_missCount (pbSize : ℕ) {small large : ℕ} (hdvd : small ∣ large)
    (all : List Branch) : missCount pbSize large all ≤ missCount pbSize small all := by
  have hcoarse : ∀ a b : Branch, a.pc % large = b.pc % large → a.pc % small = b.pc % small := by
    intro a b hsame
    rw [← Nat.mod_mod_of_dvd a.pc hdvd, hsame, Nat.mod_mod_of_dvd b.pc hdvd]
  refine countAfter_le_countAfter _ _ _ fun earlier b _ hmiss => ?_
  obtain ⟨hpredicted, hmissed⟩ := of_decide_eq_true hmiss
  obtain ⟨last, hlast, hother⟩ := (Option.any_eq_true _ _).mp hmissed
  obtain ⟨hmem, htaken, hkey⟩ := latest_eq_some _ _ _ _ _ hlast
  have hsome := latest_ne_none (fun b => b.pc % small) Branch.taken earlier last hmem htaken
  simp only [hcoarse last b hkey] at hsome
  obtain ⟨found, hfound⟩ := Option.ne_none_iff_exists'.mp hsome
  refine decide_eq_true ⟨hpredicted, (Option.any_eq_true _ _).mpr ⟨found, hfound, ?_⟩⟩
  -- the branch's own entry would be the one found in the larger buffer too
  refine decide_eq_true fun hown => of_decide_eq_true hother ?_
  have hlarge := latest_of_coarser (fun b => b.pc % small) (fun b => b.pc % large) Branch.taken
    hcoarse earlier hfound (congrArg (· % large) hown)
  have hsame := Option.some.inj (hlast.symm.trans hlarge)
  rw [hsame, hown]

/-- Where no two branches share an entry nothing is missed. -/
theorem missCount_eq_zero (pbSize btbSize : ℕ) (all : List Branch)
    (hown : ∀ a ∈ all, ∀ b ∈ all, a.pc % btbSize = b.pc % btbSize → a.pc = b.pc) :
    missCount pbSize btbSize all = 0 := by
  have hnone : countAfter (fun _ _ => false) all = 0 := by
    refine List.countP_eq_zero.mpr fun i _ => ?_
    cases all[i]? <;> exact Bool.false_ne_true
  refine Nat.le_zero.mp (hnone ▸ countAfter_le_countAfter _ _ _ fun earlier b hprefix hmiss => ?_)
  obtain ⟨-, hmissed⟩ := of_decide_eq_true hmiss
  obtain ⟨last, hlast, hother⟩ := (Option.any_eq_true _ _).mp hmissed
  obtain ⟨hmem, -, hkey⟩ := latest_eq_some _ _ _ _ _ hlast
  refine absurd (hown last ?_ b ?_ hkey) (of_decide_eq_true hother)
  · exact hprefix.subset (List.mem_append_left _ hmem)
  · exact hprefix.subset (List.mem_append_right _ (List.mem_singleton_self b))

/-- A line that can be decoded for a buffer can be decoded for a larger one, up to the size of the
other buffer. -/
theorem DecodableLine.mono {n m k : ℕ} (hmk : m ≤ k) (hkn : k ≤ n) {line : String}
    (h : DecodableLine (2 ^ n) (2 ^ m) line) : DecodableLine (2 ^ n) (2 ^ k) line := by
  obtain ⟨record, hrecord, hop, hpb, -, htag⟩ := h
  push_cast at hpb htag
  have hlarge : (2 : ℤ) ^ k ≤ 2 ^ n := pow_le_pow_right₀ (by decide) hkn
  have hsmall : (2 : ℤ) ^ m ≤ 2 ^ k := pow_le_pow_right₀ (by decide) hmk
  refine ⟨record, hrecord, hop, ?_, ?_, ?_⟩
  all_goals push_cast
  · exact hpb
  · exact hlarge.trans hpb
  · rw [Int.ediv_lt_iff_lt_mul (by positivity)] at htag ⊢
    omega

/-- On every trace that the simulator decodes with some number of targets it decodes with more, up to
the number of counters: the predictions are the same, and no more targets are missed. If no two
branches share a target, none is. -/
theorem simulate_moreTargets (pbBufferSize small large : Int32) (n m k : ℕ)
    (hsmall : BufferSizes pbBufferSize small n m) (hlarge : BufferSizes pbBufferSize large n k)
    (hmk : m ≤ k) (hkn : k ≤ n) (trace : List String)
    (hdecodable : ∀ line ∈ trace, DecodableLine (2 ^ n) (2 ^ m) line)
    (hshort : (branches trace).length < 2 ^ 31) (verbose : Bool) :
    ∃ run run', simulate (.ofLines trace) pbBufferSize small verbose = .ok run ∧
      simulate (.ofLines trace) pbBufferSize large verbose = .ok run' ∧
      run'.report.mispredictions = run.report.mispredictions ∧
      run'.final.counters.access = run.final.counters.access ∧
      run'.report.miss.toInt ≤ run.report.miss.toInt ∧
      ((∀ a ∈ branches trace, ∀ b ∈ branches trace, a.pc % 2 ^ k = b.pc % 2 ^ k → a.pc = b.pc) →
        run'.report.miss = 0) := by
  obtain ⟨run, hrun, hmispredictions, haccess, hmiss⟩ := simulate_represents pbBufferSize
    small n m hsmall (hmk.trans hkn) trace hdecodable verbose
  obtain ⟨run', hrun', hmispredictions', haccess', hmiss'⟩ := simulate_represents pbBufferSize
    large n k hlarge hkn trace (fun line hline => (hdecodable line hline).mono hmk hkn) verbose
  have hcount (p : List Branch → Branch → Bool) : countAfter p (branches trace) < 2 ^ 31 :=
    (countAfter_le_length p _).trans_lt hshort
  refine ⟨run, run', hrun, hrun', hmispredictions'.trans hmispredictions.symm,
    haccess'.trans haccess.symm, ?_, fun hown => ?_⟩
  · change run'.final.counters.miss.toInt ≤ run.final.counters.miss.toInt
    have hfewer := missCount_le_missCount (2 ^ n) (Nat.pow_dvd_pow 2 hmk) (branches trace)
    rw [missCount, missCount] at hfewer
    rw [hmiss, hmiss', missCount, missCount, Int32.toInt_ofNat_of_lt (hcount _),
      Int32.toInt_ofNat_of_lt (hcount _)]
    exact Int.ofNat_le.mpr hfewer
  · change run'.final.counters.miss = 0
    rw [hmiss', missCount_eq_zero _ _ _ hown]
    rfl

/-- Two branches that are taken in turn share an entry of two, and not one of four. -/
theorem simulate_moreTargets_alternating :
    let trace := ["1 4 0 0 0 0 T 0 0 0 0 10", "2 6 0 0 0 0 T 0 0 0 0 4",
      "3 4 0 0 0 0 T 0 0 0 0 10", "4 6 0 0 0 0 T 0 0 0 0 4"]
    ∃ run run', simulate (.ofLines trace) 4 2 false = .ok run ∧
      simulate (.ofLines trace) 4 4 false = .ok run' ∧
      run'.report.mispredictions = run.report.mispredictions ∧
      run'.report.miss.toInt ≤ run.report.miss.toInt ∧ run'.report.miss = 0 := by
  intro trace
  obtain ⟨run, run', hrun, hrun', hmispredictions, -, hfewer, hnone⟩ :=
    simulate_moreTargets 4 2 4 2 1 2 ⟨by decide, by decide, by decide, by decide⟩
      ⟨by decide, by decide, by decide, by decide⟩ (by decide) (by decide) trace (by decide)
      (by decide) false
  exact ⟨run, run', hrun, hrun', hmispredictions, hfewer, hnone (by decide)⟩

end Coursework.BranchPrediction.Sys2
