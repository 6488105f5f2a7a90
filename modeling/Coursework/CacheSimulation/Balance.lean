import Coursework.CacheSimulation.ShortAddresses
import Coursework.CacheSimulation.TraceRun
import Coursework.Transition.UpdateSum
import Mathlib.Algebra.BigOperators.Group.Finset.Piecewise
import Mathlib.Data.Fintype.Prod

/-!
# The balance of the statistics

In every geometry the counters add up what the accesses are: each access has one cycle,
each miss 80 more and each write-back another 80; a miss either fills an empty way or
replaces a block; and a block that is written back, or is dirty still, was stored before.
-/

namespace Coursework.CacheSimulation.Sys2

open Coursework.Java
open Coursework.Recency
open Coursework.Transition

/-- The counters of a simulation, and the two totals of the report. -/
inductive Counter where
  | reads
  | writes
  | readMisses
  | writeMisses
  | dirtyReadMisses
  | dirtyWriteMisses
  | readCycle
  | writeCycle
  | totalMisses
  | totalDirtyMisses
  deriving DecidableEq

/-- The value of a counter. -/
def Counter.value : Counter → Statistics → Int32
  | .reads, stats => stats.reads
  | .writes, stats => stats.writes
  | .readMisses, stats => stats.readMisses
  | .writeMisses, stats => stats.writeMisses
  | .dirtyReadMisses, stats => stats.dirtyReadMisses
  | .dirtyWriteMisses, stats => stats.dirtyWriteMisses
  | .readCycle, stats => stats.readCycle
  | .writeCycle, stats => stats.writeCycle
  | .totalMisses, stats => stats.totalMisses
  | .totalDirtyMisses, stats => stats.totalDirtyMisses

/-- The cycles of an access. -/
def kindCycles : Kind → ℕ
  | .hit => 1
  | .clean => 81
  | .dirty => 161

/-- What a load or a store of a kind adds to a counter. -/
def Counter.weight : Counter → Bool × Kind → ℕ
  | .reads, (store, _) => if store then 0 else 1
  | .writes, (store, _) => if store then 1 else 0
  | .readMisses, (store, kind) => if store = false ∧ kind ≠ .hit then 1 else 0
  | .writeMisses, (store, kind) => if store = true ∧ kind ≠ .hit then 1 else 0
  | .dirtyReadMisses, (store, kind) => if store = false ∧ kind = .dirty then 1 else 0
  | .dirtyWriteMisses, (store, kind) => if store = true ∧ kind = .dirty then 1 else 0
  | .readCycle, (store, kind) => if store then 0 else kindCycles kind
  | .writeCycle, (store, kind) => if store then kindCycles kind else 0
  | .totalMisses, (_, kind) => if kind ≠ .hit then 1 else 0
  | .totalDirtyMisses, (_, kind) => if kind = .dirty then 1 else 0

/-- The number that a counter stands for. -/
def Counter.tally (counter : Counter) (kinds : List (Bool × Kind)) : ℕ :=
  (kinds.map counter.weight).sum

/-- One more access adds its weight. -/
@[simp] theorem Counter.tally_cons (counter : Counter) (access : Bool × Kind)
    (kinds : List (Bool × Kind)) :
    counter.tally (access :: kinds) = counter.weight access + counter.tally kinds := rfl

/-- Recording an access adds its weight to every counter. -/
theorem Counter.value_recordAccess (counter : Counter) (stats : Statistics) (store : Bool)
    (kind : Kind) :
    counter.value (recordAccess stats store kind) =
      counter.value stats + Int32.ofNat (counter.weight (store, kind)) := by
  cases counter <;> cases store <;> cases kind <;>
    simp [Counter.value, Counter.weight, recordAccess, kindCycles, Statistics.totalMisses,
      Statistics.totalDirtyMisses] <;> ac_rfl

/-- A counter holds its number modulo `2 ^ 32`. -/
theorem Counter.value_statisticsOf (counter : Counter) (kinds : List (Bool × Kind)) :
    counter.value (statisticsOf kinds) = Int32.ofNat (counter.tally kinds) := by
  induction kinds with
  | nil => cases counter <;> rfl
  | cons access rest ih =>
    obtain ⟨store, kind⟩ := access
    rw [statisticsOf_cons, counter.value_recordAccess, ih, counter.tally_cons, Nat.add_comm]
    exact (Int32.ofNat_add _ _).symm

/-- No access adds more than the cycles of a write-back. -/
theorem Counter.weight_le (counter : Counter) (access : Bool × Kind) :
    counter.weight access ≤ 161 := by
  obtain ⟨store, kind⟩ := access
  cases counter <;> cases store <;> cases kind <;> decide

/-- The read cycles by the loads, their misses and their write-backs. -/
theorem tally_readCycle (kinds : List (Bool × Kind)) :
    Counter.readCycle.tally kinds = Counter.reads.tally kinds +
      80 * Counter.readMisses.tally kinds + 80 * Counter.dirtyReadMisses.tally kinds := by
  induction kinds with
  | nil => rfl
  | cons access rest ih =>
    obtain ⟨store, kind⟩ := access
    simp only [Counter.tally_cons, ih]
    cases store <;> cases kind <;> simp [Counter.weight, kindCycles] <;> omega

/-- The write cycles by the stores, their misses and their write-backs. -/
theorem tally_writeCycle (kinds : List (Bool × Kind)) :
    Counter.writeCycle.tally kinds = Counter.writes.tally kinds +
      80 * Counter.writeMisses.tally kinds + 80 * Counter.dirtyWriteMisses.tally kinds := by
  induction kinds with
  | nil => rfl
  | cons access rest ih =>
    obtain ⟨store, kind⟩ := access
    simp only [Counter.tally_cons, ih]
    cases store <;> cases kind <;> simp [Counter.weight, kindCycles] <;> omega

variable {ways sets : ℕ}

/-- The number of entries with a property. -/
def countEntries (P : Target → Prop) [DecidablePred P] (cache : Cache ways sets) : ℕ :=
  (Finset.univ.filter fun entry : Fin ways × Fin sets => P (cache entry.1 entry.2)).card

/-- The number of ways that hold a block. -/
def held (cache : Cache ways sets) : ℕ := countEntries (fun target => target.tag ≠ "0") cache

/-- The number of ways that are dirty. -/
def dirtyWays (cache : Cache ways sets) : ℕ := countEntries (fun target => target.dirty = 1) cache

/-- The number of misses that replaced a block. -/
def replaced (log : List VerboseLine) : ℕ :=
  log.countP fun line => line.hitMiss = 0 ∧ line.cachedTag ≠ "0"

/-- Replacing an entry counts the new entry for the old one. -/
theorem countEntries_setTarget (P : Target → Prop) [DecidablePred P] (cache : Cache ways sets)
    (id : Fin ways) (index : Fin sets) (target : Target) :
    countEntries P (setTarget cache id index target) + (if P (cache id index) then 1 else 0) =
      countEntries P cache + if P target then 1 else 0 := by
  have hset : ∀ entry : Fin ways × Fin sets, setTarget cache id index target entry.1 entry.2 =
      Function.update (fun entry => cache entry.1 entry.2) (id, index) target entry := by
    rintro ⟨i, j⟩
    simp [setTarget, Function.update_apply, Prod.ext_iff]
  simp only [countEntries, Finset.card_filter, hset]
  simpa only [Finset.mem_univ, if_true] using
    sum_update_add Finset.univ (fun _ target => if P target then 1 else 0)
      (fun entry : Fin ways × Fin sets => cache entry.1 entry.2) (id, index) target

/-- The kind of an access with a tag, by the entry that it works on. -/
def kindAtTarget (tag : String) (target : Target) : Kind :=
  if tag = target.tag then .hit
  else if target.dirty = 1 then .dirty
  else .clean

/-- The counters and the entries of a state account for the accesses made so far. -/
structure Accounts (s : State ways sets) (kinds : List (Bool × Kind)) : Prop where
  stats : s.stats = statisticsOf kinds
  bits : ∀ id index, (s.cache id index).dirty = 0 ∨ (s.cache id index).dirty = 1
  empty : ∀ id index, (s.cache id index).tag = "0" → (s.cache id index).dirty = 0
  misses : Counter.totalMisses.tally kinds = held s.cache + replaced s.log
  dirty : Counter.totalDirtyMisses.tally kinds + dirtyWays s.cache ≤ Counter.writes.tally kinds

/-- Before the first line there is nothing to account for. -/
theorem accounts_initial : Accounts (State.initial ways sets) [] where
  stats := rfl
  bits _ _ := Or.inl rfl
  empty _ _ _ := rfl
  misses := by simp [Counter.tally, held, countEntries, replaced, State.initial, Target.empty]
  dirty := by simp [Counter.tally, dirtyWays, countEntries, State.initial, Target.empty]

/-- Only an access that finds its tag is printed as a hit. -/
theorem detailedOperation_hitMiss (loadStore tag : String) (reference : Int32) (target : Target)
    (stats : Statistics) :
    (detailedOperation loadStore tag reference target stats).hitMiss =
      if tag = target.tag then 1 else 0 := by
  unfold detailedOperation
  split_ifs <;> rfl

/-- The kind of an access decides the case that handles it. -/
theorem kindAtTarget_spec (tag : String) (target : Target)
    (hbits : target.dirty = 0 ∨ target.dirty = 1) (hempty : target.tag = "0" → target.dirty = 0) :
    (kindAtTarget tag target = .hit ↔ tag = target.tag) ∧
      (kindAtTarget tag target = .dirty → target.tag ≠ "0" ∧ target.dirty = 1) ∧
      (kindAtTarget tag target = .clean → target.tag = "0" ∨ target.dirty = 0) := by
  unfold kindAtTarget
  by_cases htag : tag = target.tag
  · simp [htag]
  · rcases hbits with hclean | hdirty
    · simp [htag, hclean]
    · have hfilled : target.tag ≠ "0" := by
        intro hzero
        rw [hempty hzero] at hdirty
        exact absurd hdirty (by decide)
      simp [htag, hdirty, hfilled]

/-- The dirty bit after an access. -/
def dirtyAfter (store : Bool) (kind : Kind) (dirty : Int32) : Int32 :=
  if store then 1 else if kind = .hit then dirty else 0

/-- An access leaves its tag in the entry, whose dirty bit is set by a store and cleared by a load
that misses; it is counted by its kind, and printed as a replacement if it misses in a filled entry. -/
theorem afterAccess_eq (s : State ways sets) (record : Record) (store : Bool)
    (hop : record.loadStore = loadStoreOf store) (address : DecodedAddress) (id : Fin ways)
    (index : Fin sets) (hbits : (s.cache id index).dirty = 0 ∨ (s.cache id index).dirty = 1)
    (hempty : (s.cache id index).tag = "0" → (s.cache id index).dirty = 0) :
    let kind := kindAtTarget address.tag (s.cache id index)
    let s' := s.afterAccess record address id index
    s'.cache = setTarget s.cache id index
        ⟨1, dirtyAfter store kind (s.cache id index).dirty, s.reference, address.tag⟩ ∧
      s'.stats = recordAccess s.stats store kind ∧
      replaced s'.log = replaced s.log +
        if kind ≠ .hit ∧ (s.cache id index).tag ≠ "0" then 1 else 0 := by
  obtain ⟨hhit, hdirty, hclean⟩ := kindAtTarget_spec address.tag _ hbits hempty
  obtain ⟨htarget, hstats, -⟩ := detailedOperation_eq store address.tag s.reference
    (s.cache id index) s.stats _ hhit hdirty hclean
  simp only [State.afterAccess, hop, htarget, hstats, dirtyAfter, replaced, List.countP_append,
    List.countP_singleton, detailedOperation_hitMiss, true_and]
  by_cases htag : address.tag = (s.cache id index).tag
  · rw [if_pos htag, hhit.mpr htag]
    simp
  · have hmiss : kindAtTarget address.tag (s.cache id index) ≠ .hit := fun h => htag (hhit.mp h)
    simp [htag, hmiss]

/-- What every entry and the new one have, every entry has after the write of the new one. -/
theorem setTarget_forall {P : Target → Prop} {cache : Cache ways sets} (id : Fin ways)
    (index : Fin sets) {target : Target} (hcache : ∀ i j, P (cache i j)) (htarget : P target)
    (i : Fin ways) (j : Fin sets) : P (setTarget cache id index target i j) := by
  rw [setTarget]
  split
  · exact htarget
  · exact hcache i j

/-- The dirty bit that an access leaves is a bit. -/
theorem dirtyAfter_bit (store : Bool) (kind : Kind) {dirty : Int32} (h : dirty = 0 ∨ dirty = 1) :
    dirtyAfter store kind dirty = 0 ∨ dirtyAfter store kind dirty = 1 := by
  cases store with
  | true => exact Or.inr rfl
  | false =>
    simp only [dirtyAfter, Bool.false_eq_true, if_false]
    split
    · exact h
    · exact Or.inl rfl

/-- A miss fills an empty entry or replaces the block of a filled one. -/
theorem held_setTarget (cache : Cache ways sets) (id : Fin ways) (index : Fin sets) (target : Target)
    (htag : target.tag ≠ "0") (kind : Kind) (hhit : kind = .hit ↔ target.tag = (cache id index).tag) :
    held (setTarget cache id index target) +
        (if kind ≠ .hit ∧ (cache id index).tag ≠ "0" then 1 else 0) =
      held cache + if kind ≠ .hit then 1 else 0 := by
  have hheld := countEntries_setTarget (fun target => target.tag ≠ "0") cache id index target
  rw [if_pos htag] at hheld
  rw [held, held]
  by_cases hmiss : kind = .hit
  · rw [← hhit.mp hmiss, if_pos htag] at hheld
    rw [if_neg (by simp [hmiss]), if_neg (by simp [hmiss])]
    omega
  · by_cases hfilled : (cache id index).tag = "0"
    · rw [if_neg (by simp [hfilled])] at hheld
      rw [if_neg (by simp [hfilled]), if_pos hmiss]
      omega
    · rw [if_pos hfilled] at hheld
      rw [if_pos ⟨hmiss, hfilled⟩, if_pos hmiss]
      omega

/-- A load or a store whose tag marks no empty entry is accounted for by its kind. -/
theorem Accounts.afterAccess {s : State ways sets} {kinds : List (Bool × Kind)}
    (h : Accounts s kinds) (record : Record) (store : Bool)
    (hop : record.loadStore = loadStoreOf store) (address : DecodedAddress)
    (htag : address.tag ≠ "0") (id : Fin ways) (index : Fin sets) :
    Accounts (s.afterAccess record address id index)
      ((store, kindAtTarget address.tag (s.cache id index)) :: kinds) := by
  have hbits := h.bits id index
  have hempty := h.empty id index
  obtain ⟨hhit, hkind, -⟩ := kindAtTarget_spec address.tag _ hbits hempty
  obtain ⟨hcache, hstats, hreplaced⟩ := afterAccess_eq s record store hop address id index hbits
    hempty
  constructor
  · rw [hstats, h.stats, statisticsOf_cons]
  · rw [hcache]
    exact setTarget_forall (P := fun target => target.dirty = 0 ∨ target.dirty = 1) id index h.bits
      (dirtyAfter_bit store _ hbits)
  · rw [hcache]
    exact setTarget_forall (P := fun target => target.tag = "0" → target.dirty = 0) id index h.empty
      fun hzero => absurd hzero htag
  · have hheld := held_setTarget s.cache id index
      ⟨1, dirtyAfter store (kindAtTarget address.tag (s.cache id index)) (s.cache id index).dirty,
        s.reference, address.tag⟩ htag _ hhit
    have hmisses := h.misses
    rw [hcache, hreplaced, Counter.tally_cons, hmisses]
    simp only [Counter.weight]
    omega
  · have hways := countEntries_setTarget (fun target => target.dirty = 1) s.cache id index
      ⟨1, dirtyAfter store (kindAtTarget address.tag (s.cache id index)) (s.cache id index).dirty,
        s.reference, address.tag⟩
    have hdirty := h.dirty
    rw [hcache, Counter.tally_cons, Counter.tally_cons]
    unfold dirtyWays at hdirty ⊢
    simp only [Counter.weight]
    cases hk : kindAtTarget address.tag (s.cache id index) with
    | hit =>
      rw [hk] at hways
      cases store <;> simp [dirtyAfter] at hways ⊢ <;> omega
    | clean =>
      rw [hk] at hways
      cases store <;> simp [dirtyAfter] at hways ⊢ <;> omega
    | dirty =>
      rw [hk, if_pos (hkind hk).2] at hways
      cases store <;> simp [dirtyAfter] at hways ⊢ <;> omega

/-- An access that succeeds works on one of the ways of one of the indices. -/
theorem access_eq_ok {s s' : State ways sets} {record : Record} {address : DecodedAddress}
    (h : access s record address = .ok s') :
    ∃ id index, s' = s.afterAccess record address id index := by
  rw [access] at h
  obtain ⟨index, -, h⟩ := bind_eq_ok h
  obtain ⟨cacheID, -, h⟩ := bind_eq_ok h
  obtain ⟨id, -, h⟩ := bind_eq_ok h
  exact ⟨id, index, (Except.ok.inj h).symm⟩

/-- A line whose operation is `L`, `S` or `-`, as far as it can be read. -/
def Operates (line : String) : Prop :=
  ∀ record, parseRecord line = .ok record →
    record.loadStore = "L" ∨ record.loadStore = "S" ∨ record.loadStore = "-"

instance (line : String) : Decidable (Operates line) :=
  match hrecord : parseRecord line with
  | .ok record => decidable_of_iff
      (record.loadStore = "L" ∨ record.loadStore = "S" ∨ record.loadStore = "-")
      (by simp [Operates, hrecord])
  | .error _ => isTrue (by simp [Operates, hrecord])

/-- A line that succeeds is skipped or accounted for. -/
theorem step_accounts {cacheSize setAssociativity : Int32} {geometry : Geometry}
    (hsetUp : setUp cacheSize setAssociativity = .ok geometry)
    {s s' : State geometry.ways geometry.sets} {kinds : List (Bool × Kind)}
    (h : Accounts s kinds) {line : String} (hline : Operates line)
    (hstep : step geometry.indexLength geometry.offsetLength s line = .ok s') :
    ∃ access : Option (Bool × Kind), Accounts s' (access.toList ++ kinds) := by
  rw [step] at hstep
  cases hrecord : parseRecord line with
  | error cause =>
    rw [hrecord] at hstep
    cases hstep
  | ok record =>
    rw [hrecord, ok_bind] at hstep
    by_cases hskip : record.loadStore = "-"
    · rw [if_pos hskip] at hstep
      obtain rfl := Except.ok.inj hstep
      exact ⟨none, h⟩
    · rw [if_neg hskip] at hstep
      cases hdecoded : decodeAddress geometry.indexLength geometry.offsetLength
          record.addressForMemoryOp with
      | error cause =>
        rw [hdecoded] at hstep
        cases hstep
      | ok decoded =>
        rw [hdecoded, ok_bind] at hstep
        obtain ⟨id, index, rfl⟩ := access_eq_ok hstep
        have htag := decodedTag_ne_empty hsetUp index.pos _ _ hdecoded
        have hop : ∃ store, record.loadStore = loadStoreOf store := by
          rcases hline record hrecord with hload | hstore | hnone
          · exact ⟨false, hload⟩
          · exact ⟨true, hstore⟩
          · exact absurd hnone hskip
        obtain ⟨store, hop⟩ := hop
        exact ⟨some (store, _), h.afterAccess record store hop decoded htag id index⟩

/-- The variables after the beginning of a trace. -/
def After (geometry : Geometry) (lines : List String)
    (s : State geometry.ways geometry.sets) : Prop :=
  readLines (step geometry.indexLength geometry.offsetLength)
    (State.initial geometry.ways geometry.sets) 0 lines = .ok s

/-- No counter wraps around while a trace is read: from line to line none of them goes down. -/
def NoWrap (geometry : Geometry) (lines : List String) : Prop :=
  ∀ front line back s s', lines = front ++ line :: back → After geometry front s →
    step geometry.indexLength geometry.offsetLength s line = .ok s' →
    ∀ counter : Counter, counter.value s.stats ≤ counter.value s'.stats

/-- The balance of the statistics: cycles against accesses and misses, misses against the ways that
hold a block and the replaced blocks, write-backs and dirty ways against stores. -/
structure Balanced (s : State ways sets) : Prop where
  readCycle : s.stats.readCycle.toInt =
    s.stats.reads.toInt + 80 * s.stats.readMisses.toInt + 80 * s.stats.dirtyReadMisses.toInt
  writeCycle : s.stats.writeCycle.toInt =
    s.stats.writes.toInt + 80 * s.stats.writeMisses.toInt + 80 * s.stats.dirtyWriteMisses.toInt
  misses : s.stats.totalMisses.toInt = held s.cache + replaced s.log
  dirty : s.stats.totalDirtyMisses.toInt + dirtyWays s.cache ≤ s.stats.writes.toInt

/-- Accounts whose numbers fit the counters balance. -/
theorem Accounts.balanced {s : State ways sets} {kinds : List (Bool × Kind)}
    (h : Accounts s kinds)
    (hexact : ∀ counter : Counter, (counter.value s.stats).toInt = counter.tally kinds) :
    Balanced s where
  readCycle := by
    have htally := tally_readCycle kinds
    have hcycle := hexact .readCycle
    have hreads := hexact .reads
    have hmisses := hexact .readMisses
    have hdirty := hexact .dirtyReadMisses
    simp only [Counter.value] at hcycle hreads hmisses hdirty
    omega
  writeCycle := by
    have htally := tally_writeCycle kinds
    have hcycle := hexact .writeCycle
    have hwrites := hexact .writes
    have hmisses := hexact .writeMisses
    have hdirty := hexact .dirtyWriteMisses
    simp only [Counter.value] at hcycle hwrites hmisses hdirty
    omega
  misses := by
    have hmisses := hexact .totalMisses
    rw [h.misses] at hmisses
    exact_mod_cast hmisses
  dirty := by
    have htotal := hexact .totalDirtyMisses
    have hwrites := hexact .writes
    have hdirty := h.dirty
    simp only [Counter.value] at htotal hwrites
    omega

/-- A number that grows by at most one access and does not go down as an `int` still fits. -/
theorem toInt_ofNat_of_mono {n n' : ℕ} (hn : (Int32.ofNat n).toInt = n) (hle : n ≤ n')
    (hadd : n' ≤ n + 161) (hmono : Int32.ofNat n ≤ Int32.ofNat n') :
    (Int32.ofNat n').toInt = n' := by
  have hlt := (Int32.ofNat n).toInt_lt
  rw [Int32.le_iff_toInt_le] at hmono
  rcases Nat.lt_or_ge n' (2 ^ 31) with hfits | hwraps
  · exact Int32.toInt_ofNat_of_lt hfits
  · have hvalue : (Int32.ofNat n').toInt = (n' : ℤ).bmod (2 ^ 32) := Int32.toInt_ofNat'
    rw [Int.bmod_def] at hvalue
    omega

/-- The next number of a counter is at most one access larger. -/
theorem Counter.tally_option (counter : Counter) (access : Option (Bool × Kind))
    (kinds : List (Bool × Kind)) :
    counter.tally kinds ≤ counter.tally (access.toList ++ kinds) ∧
      counter.tally (access.toList ++ kinds) ≤ counter.tally kinds + 161 := by
  cases access with
  | none => exact ⟨le_rfl, Nat.le_add_right _ _⟩
  | some access =>
    have hweight := counter.weight_le access
    rw [Option.toList_some, List.singleton_append, counter.tally_cons]
    omega

section Run

variable {cacheSize setAssociativity : Int32} {geometry : Geometry}

/-- Every beginning of a trace that is read is accounted for. -/
theorem after_accounts (hsetUp : setUp cacheSize setAssociativity = .ok geometry)
    (lines : List String) (hops : ∀ line ∈ lines, Operates line)
    (s : State geometry.ways geometry.sets) (hs : After geometry lines s) :
    ∃ kinds, Accounts s kinds ∧ ∀ counter : Counter, counter.tally kinds ≤ 161 * lines.length := by
  induction lines using List.reverseRecOn generalizing s with
  | nil =>
    obtain rfl := Except.ok.inj hs
    exact ⟨[], accounts_initial, fun counter => le_rfl⟩
  | append_singleton front line ih =>
    obtain ⟨middle, hmiddle, hstep⟩ := readLines_of_append_singleton hs
    obtain ⟨kinds, hkinds, hbound⟩ := ih (fun other h => hops other (by simp [h])) middle hmiddle
    obtain ⟨access, haccess⟩ := step_accounts hsetUp hkinds (hops line (by simp)) hstep
    refine ⟨_, haccess, fun counter => ?_⟩
    have hadd := (counter.tally_option access kinds).2
    have hkindsBound := hbound counter
    rw [List.length_append, List.length_singleton]
    omega

/-- Without a wrap-around every counter holds its number after each line. -/
theorem after_exact (hsetUp : setUp cacheSize setAssociativity = .ok geometry)
    (lines : List String) (hops : ∀ line ∈ lines, Operates line) (hwrap : NoWrap geometry lines)
    (front back : List String) (hsplit : lines = front ++ back)
    (s : State geometry.ways geometry.sets) (hs : After geometry front s) :
    ∃ kinds, Accounts s kinds ∧
      ∀ counter : Counter, (counter.value s.stats).toInt = counter.tally kinds := by
  induction front using List.reverseRecOn generalizing back s with
  | nil =>
    obtain rfl := Except.ok.inj hs
    refine ⟨[], accounts_initial, fun counter => ?_⟩
    cases counter <;> rfl
  | append_singleton front line ih =>
    obtain ⟨middle, hmiddle, hstep⟩ := readLines_of_append_singleton hs
    rw [List.append_assoc, List.singleton_append] at hsplit
    obtain ⟨kinds, hkinds, hexact⟩ := ih (line :: back) hsplit middle hmiddle
    obtain ⟨access, haccess⟩ := step_accounts hsetUp hkinds (hops line (by simp [hsplit])) hstep
    refine ⟨_, haccess, fun counter => ?_⟩
    have hmono := hwrap front line back middle s hsplit hmiddle hstep counter
    have hbefore := hexact counter
    obtain ⟨hle, hadd⟩ := counter.tally_option access kinds
    rw [hkinds.stats, haccess.stats, counter.value_statisticsOf, counter.value_statisticsOf]
      at hmono
    rw [hkinds.stats, counter.value_statisticsOf] at hbefore
    rw [haccess.stats, counter.value_statisticsOf]
    exact toInt_ofNat_of_mono hbefore hle hadd hmono

/-- Counters that count at most 161 for each line do not wrap around in a short trace. -/
theorem noWrap_of_length (hsetUp : setUp cacheSize setAssociativity = .ok geometry)
    (lines : List String) (hops : ∀ line ∈ lines, Operates line)
    (hlength : 161 * lines.length < 2 ^ 31) : NoWrap geometry lines := by
  intro front line back s s' hsplit hs hstep counter
  obtain ⟨kinds, hkinds, hbound⟩ := after_accounts hsetUp front
    (fun other h => hops other (by simp [hsplit, h])) s hs
  obtain ⟨access, haccess⟩ := step_accounts hsetUp hkinds (hops line (by simp [hsplit])) hstep
  obtain ⟨hle, hadd⟩ := counter.tally_option access kinds
  have hkindsBound := hbound counter
  have hlines : lines.length = front.length + (back.length + 1) := by simp [hsplit]
  rw [hkinds.stats, haccess.stats, counter.value_statisticsOf, counter.value_statisticsOf,
    Int32.le_iff_toInt_le, Int32.toInt_ofNat_of_lt (by omega), Int32.toInt_ofNat_of_lt (by omega)]
  exact_mod_cast hle

end Run

/-- A simulation that ends has read its trace to the end. -/
theorem simulate_eq_ok {stream : InputStream} {cacheSize setAssociativity : Int32} {verbose : Bool}
    {first last : Int32} {run : Run}
    (h : simulate stream cacheSize setAssociativity verbose first last = .ok run) :
    setUp cacheSize setAssociativity = .ok run.geometry ∧
      After run.geometry stream.lines run.final := by
  rw [simulate] at h
  split at h
  · cases h
  · rename_i geometry hsetUp
    split at h
    · cases h
    · rename_i final hloop
      obtain rfl := Except.ok.inj h
      exact ⟨hsetUp, (readLoop_eq_ok hloop).1⟩

/-- In every trace that is simulated to its end the statistics balance after each line, and so at
the end, as long as no counter wraps around. -/
theorem simulate_balanced (stream : InputStream) (cacheSize setAssociativity : Int32)
    (verbose : Bool) (first last : Int32) (run : Run)
    (hrun : simulate stream cacheSize setAssociativity verbose first last = .ok run)
    (hops : ∀ line ∈ stream.lines, Operates line) (hwrap : NoWrap run.geometry stream.lines) :
    Balanced run.final ∧
      ∀ front back, stream.lines = front ++ back →
        ∃ s, After run.geometry front s ∧ Balanced s := by
  obtain ⟨hsetUp, hfinal⟩ := simulate_eq_ok hrun
  have hbalanced (front back : List String) (hsplit : stream.lines = front ++ back)
      (s : State run.geometry.ways run.geometry.sets) (hs : After run.geometry front s) :
      Balanced s := by
    obtain ⟨kinds, hkinds, hexact⟩ := after_exact hsetUp _ hops hwrap front back hsplit s hs
    exact hkinds.balanced hexact
  refine ⟨hbalanced stream.lines [] (List.append_nil _).symm run.final hfinal, ?_⟩
  intro front back hsplit
  have hwhole := hfinal
  rw [hsplit] at hwhole
  obtain ⟨s, hs, -⟩ := readLines_of_append hwhole
  exact ⟨s, hs, hbalanced front back hsplit s hs⟩

/-- A load, a store and a skipped line; the store replaces the loaded block, in a direct-mapped
cache of 1 KB. -/
theorem simulate_balanced_conflict :
    let trace := ["1 0 0 0 0 0 0 L 0 400", "2 0 0 0 0 0 0 - 0 0", "3 0 0 0 0 0 0 S 0 800"]
    ∃ run, simulate (.ofLines trace) 1 1 false 0 0 = .ok run ∧ Balanced run.final ∧
      ∀ front back, trace = front ++ back → ∃ s, After run.geometry front s ∧ Balanced s := by
  intro trace
  have hops : ∀ line ∈ trace, Operates line := by decide
  have hok : (simulate (.ofLines trace) 1 1 false 0 0).toOption.isSome = true := by
    decide +kernel
  cases hrun : simulate (.ofLines trace) 1 1 false 0 0 with
  | error abort =>
    rw [hrun] at hok
    cases hok
  | ok run =>
    exact ⟨run, rfl, simulate_balanced _ 1 1 false 0 0 run hrun hops
      (noWrap_of_length (simulate_eq_ok hrun).1 trace hops (by decide))⟩

end Coursework.CacheSimulation.Sys2
