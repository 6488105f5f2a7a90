import Coursework.CacheSimulation.Sys1
import Coursework.CacheSimulation.Sys2
import Coursework.Java.ReadLoop

/-!
# One way is direct mapped

With a single way the search of `Sys2.simulate` always settles on that way, whatever the
tags and the last uses are. Step by step it then does what `Sys1.simulate` does, and both
abort at the same point with the same exception, or finish with the same content and the
same report.
-/

namespace Coursework.CacheSimulation

open Coursework.Java

/-- What a target of the set-associative simulator shows, apart from its last use. -/
def Sys2.Target.toSys1 (target : Sys2.Target) : Sys1.Target :=
  ⟨target.valid, target.dirty, target.tag⟩

/-- The states of the two simulators agree. -/
structure SameState {sets : ℕ} (s : Sys1.State sets) (t : Sys2.State 1 sets) : Prop where
  cache : ∀ index, s.cache index = (t.cache 0 index).toSys1
  stats : s.stats = t.stats

/-- The finished runs of the two simulators agree. -/
structure SameRun (run : Sys1.Run) (run' : Sys2.Run) : Prop where
  targets : ∀ index, run.target index = (run'.target 0 index).map Sys2.Target.toSys1
  report : run.report = run'.report

/-- The search of a single way finds it in every case. -/
theorem selectWay_singleton (tag : String) (target : Sys2.Target) :
    Sys2.selectWay tag [target] = .ok 0 := by
  by_cases htag : tag = target.tag
  · simp [Sys2.selectWay, Sys2.wayLoop, htag]
  · by_cases hempty : target.tag = "0"
    · simp [Sys2.selectWay, Sys2.wayLoop, hempty]
    · simp [Sys2.selectWay, Sys2.wayLoop, Sys2.oldestLoop, htag, hempty]

/-- The cases of both simulators leave the same target, counters and case behind. -/
theorem detailedOperation_toSys1 (loadStore tag : String) (reference : Int32)
    (target : Sys2.Target) (stats : Statistics) :
    let result := Sys1.detailedOperation loadStore tag target.toSys1 stats
    let result' := Sys2.detailedOperation loadStore tag reference target stats
    result.target = result'.target.toSys1 ∧ result.stats = result'.stats := by
  by_cases hhit : tag = target.tag
  · by_cases hload : loadStore = "L" <;>
      simp [Sys1.detailedOperation, Sys2.detailedOperation, Sys2.Target.toSys1, hhit, hload]
  · by_cases hempty : target.tag = "0"
    · have hfresh : tag ≠ "0" := fun h => hhit (h.trans hempty.symm)
      by_cases hload : loadStore = "L" <;> by_cases hstore : loadStore = "S" <;>
        simp [Sys1.detailedOperation, Sys2.detailedOperation, Sys2.Target.toSys1, hfresh, hempty,
          hload, hstore]
    · by_cases hclean : target.dirty = 0
      · by_cases hload : loadStore = "L" <;> by_cases hstore : loadStore = "S" <;>
          simp [Sys1.detailedOperation, Sys2.detailedOperation, Sys2.Target.toSys1, hhit, hclean,
            hload, hstore]
      · by_cases hdirty : target.dirty = 1
        · by_cases hload : loadStore = "L" <;> by_cases hstore : loadStore = "S" <;>
            simp [Sys1.detailedOperation, Sys2.detailedOperation, Sys2.Target.toSys1, hhit, hempty,
              hdirty, hload, hstore]
        · simp [Sys1.detailedOperation, Sys2.detailedOperation, Sys2.Target.toSys1, hhit, hempty,
            hclean, hdirty]

/-- A decoded access keeps the states in agreement, or throws in both. -/
theorem access_agree {sets : ℕ} (s : Sys1.State sets) (t : Sys2.State 1 sets)
    (h : SameState s t) (record : Record) (address : DecodedAddress) :
    Agree SameState (Sys1.access s record address) (Sys2.access t record address) := by
  simp only [Sys1.access, Sys2.access]
  cases arrayIndex sets address.index with
  | error cause => exact rfl
  | ok index =>
    have hcolumn : Sys2.column t.cache index = [t.cache 0 index] := by simp [Sys2.column]
    have hway : Sys2.wayIndex 1 0 = .ok 0 := rfl
    simp only [ok_bind, hcolumn, selectWay_singleton, hway, pure_eq_ok, Agree]
    obtain ⟨htarget, hstats⟩ := detailedOperation_toSys1 record.loadStore address.tag t.reference
      (t.cache 0 index) t.stats
    constructor
    · intro i
      simp only [Sys1.State.afterAccess, Sys2.State.afterAccess, Sys2.setTarget, h.cache, h.stats,
        htarget, true_and]
      by_cases hi : i = index <;> simp [hi]
    · simp only [Sys1.State.afterAccess, Sys2.State.afterAccess, h.cache, h.stats, hstats]

/-- A line keeps the states in agreement, or throws in both. -/
theorem step_agree {sets : ℕ} (indexLength offsetLength : Int32) (s : Sys1.State sets)
    (t : Sys2.State 1 sets) (line : String) (h : SameState s t) :
    Agree SameState (Sys1.step indexLength offsetLength s line)
      (Sys2.step indexLength offsetLength t line) := by
  simp only [Sys1.step, Sys2.step]
  cases parseRecord line with
  | error cause => exact rfl
  | ok record =>
    simp only [ok_bind]
    by_cases hskip : record.loadStore = "-"
    · simp only [if_pos hskip]
      exact h
    · simp only [if_neg hskip]
      cases decodeAddress indexLength offsetLength record.addressForMemoryOp with
      | error cause => exact rfl
      | ok address => exact access_agree s t h record address

/-- The set-up for a single way is that of the direct-mapped simulator. -/
theorem setUp_one (cacheSize : Int32) :
    Sys2.setUp cacheSize 1 = (Sys1.setUp cacheSize).map fun geometry =>
      ⟨1, geometry.sets, geometry.indexLength, geometry.offsetLength⟩ := by
  have hway : newArrayLength 1 = .ok 1 := rfl
  have hblock : blockByte * 1 = blockByte := rfl
  simp only [Sys1.setUp, Sys2.setUp, hblock]
  cases intDiv (cacheSize * 1024) blockByte with
  | error cause => rfl
  | ok cacheBufSize =>
    simp only [ok_bind, hway]
    cases newArrayLength cacheBufSize with
    | error cause => rfl
    | ok sets => rfl

/-- Both simulators abort at the same point with the same exception, or finish with the same
content of every index and the same report. -/
theorem simulate_agree (stream : InputStream) (cacheSize : Int32) (verbose : Bool)
    (first last : Int32) (verbose' : Bool) (first' last' : Int32) :
    Agree SameRun (Sys1.simulate stream cacheSize verbose first last)
      (Sys2.simulate stream cacheSize 1 verbose' first' last') := by
  simp only [Sys1.simulate, Sys2.simulate, setUp_one]
  cases Sys1.setUp cacheSize with
  | error cause => exact rfl
  | ok geometry =>
    have hinitial : SameState (Sys1.State.initial geometry.sets)
        (Sys2.State.initial 1 geometry.sets) := ⟨fun _ => rfl, rfl⟩
    have hrun := readLoop_agree _ _ SameState
      (step_agree geometry.indexLength geometry.offsetLength) _ _ stream hinitial
    simp only [Except.map]
    cases hs : readLoop (Sys1.step geometry.indexLength geometry.offsetLength)
        (Sys1.State.initial geometry.sets) stream <;>
      cases ht : readLoop (Sys2.step geometry.indexLength geometry.offsetLength)
        (Sys2.State.initial 1 geometry.sets) stream <;> rw [hs, ht] at hrun
    · exact hrun
    · exact hrun.elim
    · exact hrun.elim
    · refine ⟨?_, ?_⟩
      · intro index
        simp only [Sys1.Run.target, Sys2.Run.target]
        by_cases hindex : index < geometry.sets
        · simp [hindex, hrun.cache]
        · simp [hindex]
      · exact congrArg Statistics.report hrun.stats

end Coursework.CacheSimulation
