import Coursework.CacheSimulation.Contents
import Coursework.CacheSimulation.StackDistance

/-!
# Misses replace the oldest block, and write back what was stored

A miss replaces nothing while the set has a free way, and the block with the oldest
latest access afterwards. It is a dirty miss exactly when the block it replaces was
stored to during the stay that ends, so `total_dirty_misses` counts the ended stays with
a store.
-/

namespace Coursework.CacheSimulation.Sys2

open Coursework.Java
open Coursework.Recency

/-- The distinct blocks of one index among some accesses. -/
def setBlocks (sets : ℕ) (earlier : List (Access ℕ)) (index : ℕ) : Finset ℕ :=
  (blocks (earlier.filter fun a => a.block % sets = index)).toFinset

/-- The line stores to a block. -/
def StoresAt (trace : List String) (m block : ℕ) : Prop := accessAt trace m = some ⟨block, true⟩

/-- Line `i` replaces a block, and drops no other. -/
structure Replaces (cacheSize setAssociativity : Int32) (trace : List String) (i victim : ℕ) :
    Prop where
  before : ResidentAfter cacheSize setAssociativity trace i victim
  after : ¬ResidentAfter cacheSize setAssociativity trace (i + 1) victim
  others : ∀ block, block ≠ victim → ResidentAfter cacheSize setAssociativity trace i block →
    ResidentAfter cacheSize setAssociativity trace (i + 1) block

/-- Among the resident blocks of its index a block was accessed longest ago. -/
def LeastRecent (cacheSize setAssociativity : Int32) (sets : ℕ) (trace : List String)
    (i victim : ℕ) : Prop :=
  ∀ block, block % sets = victim % sets → block ≠ victim →
    ResidentAfter cacheSize setAssociativity trace i block →
    lastUse (blocks (accesses (trace.take i)).reverse) victim <
      lastUse (blocks (accesses (trace.take i)).reverse) block

/-- What a miss at line `i` has to do and to record. -/
structure MissSpec (cacheSize setAssociativity : Int32) (ways sets : ℕ) (trace : List String)
    (i : ℕ) (a : Access ℕ) (caseNum : CaseNum) : Prop where
  loaded : ResidentAfter cacheSize setAssociativity trace (i + 1) a.block
  only : ∀ block, block ≠ a.block → ResidentAfter cacheSize setAssociativity trace (i + 1) block →
    ResidentAfter cacheSize setAssociativity trace i block
  free : (setBlocks sets (accesses (trace.take i)) (a.block % sets)).card < ways →
    caseNum = .case2a ∧ ∀ block, ResidentAfter cacheSize setAssociativity trace i block →
      ResidentAfter cacheSize setAssociativity trace (i + 1) block
  full : ways ≤ (setBlocks sets (accesses (trace.take i)) (a.block % sets)).card →
    ∃ victim, victim % sets = a.block % sets ∧
      Replaces cacheSize setAssociativity trace i victim ∧
      LeastRecent cacheSize setAssociativity sets trace i victim ∧
      ((∃ j, StayWith (ResidentAfter cacheSize setAssociativity trace) (StoresAt trace) victim j i) →
        caseNum = .case2b) ∧
      ((¬∃ j, StayWith (ResidentAfter cacheSize setAssociativity trace) (StoresAt trace) victim j i) →
        caseNum = .case2a)

/-- The free ways of a set are those that its distinct blocks leave. -/
theorem resident_setHistory_length (W sets : ℕ) (earlier : List (Access ℕ)) (index : ℕ) :
    (resident W (setHistory sets earlier.reverse index)).length =
      min W (setBlocks sets earlier index).card := by
  rw [resident_length, setHistory, restrict, List.filter_reverse, blocks, List.map_reverse,
    List.toFinset_reverse, setBlocks, blocks]

/-- The kind of an access at line `i`. -/
def kindAt (w k : ℕ) (trace : List String) (i : ℕ) (a : Access ℕ) : Kind :=
  kind (2 ^ w) (setHistory (2 ^ k) (accesses (trace.take i)).reverse (a.block % 2 ^ k)) a.block

/-- The block that an access at line `i` replaces, if it replaces one. -/
def victimAt (w k : ℕ) (trace : List String) (i : ℕ) (a : Access ℕ) : Option ℕ :=
  jointVictim (fun block => block % 2 ^ k) (2 ^ w) (accesses (trace.take i)).reverse a.block

/-- A miss replaces nothing exactly when a way is free. -/
theorem victimAt_eq_none_iff (w k : ℕ) (trace : List String) (i : ℕ) (a : Access ℕ)
    (hmiss : kindAt w k trace i a ≠ .hit) :
    victimAt w k trace i a = none ↔
      (setBlocks (2 ^ k) (accesses (trace.take i)) (a.block % 2 ^ k)).card < 2 ^ w := by
  have habsent : a.block ∉ resident (2 ^ w)
      (setHistory (2 ^ k) (accesses (trace.take i)).reverse (a.block % 2 ^ k)) := fun h =>
    hmiss ((kind_eq_hit_iff _ _ _).mpr h)
  have hlength := resident_setHistory_length (2 ^ w) (2 ^ k) (accesses (trace.take i))
    (a.block % 2 ^ k)
  rw [victimAt, jointVictim, victim_eq_none_iff (2 ^ w) (by positivity) _ _ habsent, hlength]
  omega

/-- A miss that is not dirty is case 2a. -/
theorem caseNumOf_of_ne (kind : Kind) (hmiss : kind ≠ .hit) (hclean : kind ≠ .dirty) :
    caseNumOf kind = .case2a := by
  cases kind with
  | hit => contradiction
  | clean => rfl
  | dirty => contradiction

section Misses

variable {cacheSize setAssociativity : Int32} {w k : ℕ} {trace : List String}
  (hgeometry : CacheGeometry cacheSize setAssociativity w k) (hlen : (accesses trace).length < 2 ^ 31)
  (hwf : ∀ line ∈ trace, WellFormedLine (2 ^ k) line)

include hgeometry hlen hwf

/-- Residence in the simulator is residence in the LRU sets. -/
theorem residentAfter_eq_holds : ResidentAfter cacheSize setAssociativity trace =
    fun m => Holds (fun block => block % 2 ^ k) (2 ^ w) (historyAt (accessAt trace) m) := by
  funext m block
  exact propext (residentAfter_iff cacheSize setAssociativity w k hgeometry trace hlen hwf m block)

/-- An access is a hit exactly when its block is resident. -/
theorem kindAt_eq_hit_iff (i : ℕ) (a : Access ℕ) :
    kindAt w k trace i a = .hit ↔ ResidentAfter cacheSize setAssociativity trace i a.block := by
  rw [kindAt, kind_eq_hit_iff, residentAfter_iff cacheSize setAssociativity w k hgeometry trace hlen
    hwf, historyAt_accessAt]
  rfl

/-- After an access its block is resident, and every other resident block was so before. -/
theorem residentAfter_succ (i : ℕ) (a : Access ℕ) (ha : accessAt trace i = some a) :
    ResidentAfter cacheSize setAssociativity trace (i + 1) a.block ∧
      ∀ block, block ≠ a.block → ResidentAfter cacheSize setAssociativity trace (i + 1) block →
        ResidentAfter cacheSize setAssociativity trace i block := by
  rw [residentAfter_eq_holds hgeometry hlen hwf]
  simp only [historyAt, ha, Option.toList_some, List.singleton_append,
    holds_cons (fun block => block % 2 ^ k) (2 ^ w) (by positivity)]
  constructor
  · exact Or.inl trivial
  · intro block hne hafter
    rcases hafter with heq | hheld
    · exact absurd heq hne
    · exact hheld.1

/-- Line `i` drops the victim of its access and nothing else. -/
theorem dropped_iff_victimAt (i : ℕ) (a : Access ℕ) (ha : accessAt trace i = some a) (block : ℕ) :
    (ResidentAfter cacheSize setAssociativity trace i block ∧
        ¬ResidentAfter cacheSize setAssociativity trace (i + 1) block) ↔
      victimAt w k trace i a = some block := by
  rw [residentAfter_eq_holds hgeometry hlen hwf,
    dropped_iff (fun block => block % 2 ^ k) (2 ^ w) (accessAt trace) (by positivity) i block,
    historyAt_accessAt]
  simp only [ha, Option.some.injEq, exists_eq_left']
  rfl

/-- An access writes back exactly when its victim had a store during the stay that ends. -/
theorem kindAt_eq_dirty_iff (i : ℕ) (a : Access ℕ) :
    kindAt w k trace i a = .dirty ↔
      ∃ victim, victimAt w k trace i a = some victim ∧ ∃ j,
        StayWith (ResidentAfter cacheSize setAssociativity trace) (StoresAt trace) victim j i := by
  rw [kindAt, setHistory, joint_kind_eq_dirty_iff (fun block => block % 2 ^ k)]
  apply exists_congr
  intro victim
  apply and_congr_right
  intro _
  rw [residentAfter_eq_holds hgeometry hlen hwf, ← historyAt_accessAt]
  exact (marking_modified (fun block => block % 2 ^ k) (2 ^ w) (accessAt trace)
    (by positivity)).marked_iff victim i

/-- The victim of an access is the least recent resident block of its index. -/
theorem leastRecent_of_victimAt (i : ℕ) (a : Access ℕ) (victim : ℕ)
    (hvictim : victimAt w k trace i a = some victim) :
    LeastRecent cacheSize setAssociativity (2 ^ k) trace i victim := by
  have hindex := (holds_of_jointVictim (fun block => block % 2 ^ k) (2 ^ w) _ _ _ hvictim).2
  intro block hblock hne hresident
  rw [residentAfter_eq_holds hgeometry hlen hwf, historyAt_accessAt, Holds, hblock,
    hindex] at hresident
  exact victim_last (2 ^ w) (by positivity) _ a.block victim block _
    (resident_restrict_pairwise (fun block => block % 2 ^ k) (2 ^ w) _ _) hvictim hresident hne

/-- A miss of the LRU sets is what the specification asks for. -/
theorem missSpec_kindAt (i : ℕ) (a : Access ℕ) (ha : accessAt trace i = some a)
    (hmiss : kindAt w k trace i a ≠ .hit) :
    MissSpec cacheSize setAssociativity (2 ^ w) (2 ^ k) trace i a
      (caseNumOf (kindAt w k trace i a)) := by
  have hnone := victimAt_eq_none_iff w k trace i a hmiss
  have hdropped := dropped_iff_victimAt hgeometry hlen hwf i a ha
  have hdirty := kindAt_eq_dirty_iff hgeometry hlen hwf i a
  have hloads := residentAfter_succ hgeometry hlen hwf i a ha
  refine ⟨hloads.1, hloads.2, ?_, ?_⟩
  · intro hfree
    have hkeeps := hnone.mpr hfree
    constructor
    · apply caseNumOf_of_ne _ hmiss
      intro hkind
      obtain ⟨victim, hvictim, _⟩ := hdirty.mp hkind
      rw [hkeeps] at hvictim
      contradiction
    · intro block hbefore
      by_contra hafter
      have hvictim := (hdropped block).mp ⟨hbefore, hafter⟩
      rw [hkeeps] at hvictim
      contradiction
  · intro hfull
    obtain ⟨victim, hvictim⟩ := Option.ne_none_iff_exists'.mp fun h =>
      absurd (hnone.mp h) (by omega)
    obtain ⟨hbefore, hafter⟩ := (hdropped victim).mpr hvictim
    refine ⟨victim, (holds_of_jointVictim (fun block => block % 2 ^ k) (2 ^ w) _ _ _ hvictim).2,
      ⟨hbefore, hafter, ?_⟩, leastRecent_of_victimAt hgeometry hlen hwf i a victim hvictim, ?_, ?_⟩
    · intro block hne hblock
      by_contra hgone
      have hother := (hdropped block).mp ⟨hblock, hgone⟩
      exact hne (Option.some.inj (hother.symm.trans hvictim))
    · intro hstay
      rw [hdirty.mpr ⟨victim, hvictim, hstay⟩, caseNumOf]
    · intro hstay
      apply caseNumOf_of_ne _ hmiss
      intro hkind
      obtain ⟨other, hother, hstored⟩ := hdirty.mp hkind
      obtain rfl := Option.some.inj (hother.symm.trans hvictim)
      exact hstay hstored

/-- A stay begins with an access to its block. -/
theorem access_of_stay (block j i : ℕ)
    (h : Stay (ResidentAfter cacheSize setAssociativity trace) block j i) :
    ∃ a, accessAt trace j = some a ∧ a.block = block := by
  have habsent := h.absent
  have hkept := h.kept (j + 1) (by omega) h.order
  rw [residentAfter_eq_holds hgeometry hlen hwf] at habsent hkept
  cases hline : accessAt trace j with
  | none =>
    simp only [historyAt, hline] at hkept
    exact absurd hkept habsent
  | some a =>
    simp only [historyAt, hline, Option.toList_some, List.singleton_append,
      holds_cons (fun block => block % 2 ^ k) (2 ^ w) (by positivity)] at hkept
    rcases hkept with heq | hheld
    · exact ⟨a, rfl, heq.symm⟩
    · exact absurd hheld.1 habsent

end Misses

/-- Every access of a well-formed trace is recorded, and is a hit exactly when its block is resident.
Every miss brings in its block, replaces the right one and writes back what was stored to, and the
dirty misses are as many as the stays with a store that ended. -/
theorem simulate_writes_back_stored_blocks (cacheSize setAssociativity : Int32) (w k : ℕ)
    (hgeometry : CacheGeometry cacheSize setAssociativity w k) (trace : List String)
    (hlen : (accesses trace).length < 2 ^ 31)
    (hwf : ∀ line ∈ trace, WellFormedLine (2 ^ k) line)
    (verbose : Bool) (first last : Int32) :
    ∃ run, simulate (.ofLines trace) cacheSize setAssociativity verbose first last = .ok run ∧
      run.final.log.length = (accesses trace).length ∧
      (∀ i a line, accessAt trace i = some a →
        run.final.log[(accesses (trace.take i)).length]? = some line →
          (line.caseNum = .case1 ↔ ResidentAfter cacheSize setAssociativity trace i a.block) ∧
          (line.caseNum ≠ .case1 →
            MissSpec cacheSize setAssociativity (2 ^ w) (2 ^ k) trace i a line.caseNum)) ∧
      (∀ block j i, Stay (ResidentAfter cacheSize setAssociativity trace) block j i →
        ∃ a, accessAt trace j = some a ∧ a.block = block) ∧
      (endedStays (ResidentAfter cacheSize setAssociativity trace) (StoresAt trace)
        trace.length).Finite ∧
      run.final.stats.totalDirtyMisses.toInt =
        (endedStays (ResidentAfter cacheSize setAssociativity trace) (StoresAt trace)
          trace.length).ncard := by
  obtain ⟨run, hrun, hshows⟩ := simulate_shows cacheSize setAssociativity w k hgeometry trace hlen
    hwf verbose first last
  have hcount := encard_endedStays_eq_jointWritebacks (fun block => block % 2 ^ k) (2 ^ w)
    (accessAt trace) (by positivity) trace.length
  rw [← residentAfter_eq_holds hgeometry hlen hwf, historyAt_accessAt, List.take_length] at hcount
  have hncard : (endedStays (ResidentAfter cacheSize setAssociativity trace) (StoresAt trace)
      trace.length).ncard = jointWritebacks (fun block => block % 2 ^ k) (2 ^ w)
        (accesses trace).reverse := by
    rw [Set.ncard]
    exact (congrArg ENat.toNat hcount).trans (ENat.toNat_natCast _)
  refine ⟨run, hrun, ?_, ?_, ?_, Set.finite_of_encard_eq_coe hcount, ?_⟩
  · rw [hshows.log_length, List.length_reverse]
  · intro i a line ha hline
    have hcase := hshows.final.caseNum_eq (accesses (trace.take i)).length
    have hprefix := accesses_getElem?_take trace i a ha
    rw [hline, hprefix.1, Option.map_some, Option.map_some, Option.some.injEq, hshows.ways,
      hshows.sets, hprefix.2] at hcase
    change line.caseNum = caseNumOf (kindAt w k trace i a) at hcase
    rw [hcase, Ne, caseNumOf_eq_case1_iff]
    exact ⟨kindAt_eq_hit_iff hgeometry hlen hwf i a, missSpec_kindAt hgeometry hlen hwf i a ha⟩
  · exact fun block j i h => access_of_stay hgeometry hlen hwf block j i h
  · have hbound := jointWritebacks_le_length (fun block => block % 2 ^ k) (2 ^ w)
      (accesses trace).reverse
    rw [List.length_reverse] at hbound
    rw [hncard, hshows.stats, totalDirtyMisses_statisticsOf]
    exact Int32.toInt_ofNat_of_lt (hbound.trans_lt hlen)

/-- A store, a load and a load to three blocks of one set with two ways. -/
theorem simulate_writes_back_stored_blocks_conflict :
    let trace := ["1 48d1e2 -1 5 45 - - S 0 200", "2 48d1e6 -1 5 45 - - L 0 600",
      "3 48d1ea -1 5 45 - T - 0 0", "4 48d1ec -1 5 45 - - L 0 a00"]
    ∃ run, simulate (.ofLines trace) 1 2 true 0 9 = .ok run ∧
      run.final.log.length = (accesses trace).length ∧
      (∀ i a line, accessAt trace i = some a →
        run.final.log[(accesses (trace.take i)).length]? = some line →
          (line.caseNum = .case1 ↔ ResidentAfter 1 2 trace i a.block) ∧
          (line.caseNum ≠ .case1 → MissSpec 1 2 2 32 trace i a line.caseNum)) ∧
      (∀ block j i, Stay (ResidentAfter 1 2 trace) block j i →
        ∃ a, accessAt trace j = some a ∧ a.block = block) ∧
      (endedStays (ResidentAfter 1 2 trace) (StoresAt trace) trace.length).Finite ∧
      run.final.stats.totalDirtyMisses.toInt =
        (endedStays (ResidentAfter 1 2 trace) (StoresAt trace) trace.length).ncard :=
  simulate_writes_back_stored_blocks 1 2 1 5 ⟨by decide, by decide, by decide, by decide⟩ _
    (by decide) (by decide) true 0 9

end Coursework.CacheSimulation.Sys2
