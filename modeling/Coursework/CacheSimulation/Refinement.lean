import Coursework.CacheSimulation.Geometry
import Coursework.CacheSimulation.Lookup
import Coursework.Java.ReadLoop
import Coursework.Recency.Inclusion

/-!
# The set-associative simulator refines sets under LRU replacement

The state of `Sys2.simulate` is a function of the history of block accesses: every index
is an LRU set over the accesses that map to it, a way shows the block in its place, the
dirty bit says whether that block is modified, and `lu` is the position of its latest
access in the whole trace. The counters follow from the kinds of the accesses.
-/

namespace Coursework.CacheSimulation.Sys2

open Coursework.Java
open Coursework.Recency

/-- The accesses of a history that map to one index. -/
abbrev setHistory (sets : ℕ) (past : List (Access ℕ)) (index : ℕ) : List (Access ℕ) :=
  restrict (fun block => block % sets) past index

/-- The entry that a resident block shows. -/
def entryOf (W sets : ℕ) (past : List (Access ℕ)) (index block : ℕ) : Target where
  valid := 1
  dirty := if block ∈ dirty W (setHistory sets past index) then 1 else 0
  lu := Int32.ofNat (lastUse (blocks past) block)
  tag := hexText (block / sets)

/-- The cache content of a history. -/
def cacheOf (W sets : ℕ) (past : List (Access ℕ)) : Cache W sets := fun id index =>
  match (ways W (setHistory sets past index))[id.val]? with
  | some block => entryOf W sets past index block
  | none => Target.empty

/-- The kinds of all accesses of a history. -/
abbrev kindsOf (W sets : ℕ) (past : List (Access ℕ)) : List (Bool × Kind) :=
  jointOutcomes (fun block => block % sets) W past

/-- The counters that the kinds of the accesses add up to. -/
def statisticsOf (kinds : List (Bool × Kind)) : Statistics where
  reads := Int32.ofNat (kinds.count (false, .hit) + kinds.count (false, .clean) +
    kinds.count (false, .dirty))
  writes := Int32.ofNat (kinds.count (true, .hit) + kinds.count (true, .clean) +
    kinds.count (true, .dirty))
  readMisses := Int32.ofNat (kinds.count (false, .clean) + kinds.count (false, .dirty))
  writeMisses := Int32.ofNat (kinds.count (true, .clean) + kinds.count (true, .dirty))
  dirtyReadMisses := Int32.ofNat (kinds.count (false, .dirty))
  dirtyWriteMisses := Int32.ofNat (kinds.count (true, .dirty))
  readCycle := Int32.ofNat (kinds.count (false, .hit) + 81 * kinds.count (false, .clean) +
    161 * kinds.count (false, .dirty))
  writeCycle := Int32.ofNat (kinds.count (true, .hit) + 81 * kinds.count (true, .clean) +
    161 * kinds.count (true, .dirty))

/-- The case number that is printed for a kind. -/
def caseNumOf : Kind → CaseNum
  | .hit => .case1
  | .clean => .case2a
  | .dirty => .case2b

/-- A state shows a history of accesses beyond the first round of the sets. -/
structure Represents (W sets : ℕ) (s : State W sets) (past : List (Access ℕ)) : Prop where
  cache : s.cache = cacheOf W sets past
  reference : s.reference = Int32.ofNat past.length
  stats : s.stats = statisticsOf (kindsOf W sets past)
  cases : s.log.map VerboseLine.caseNum =
    (kindsOf W sets past).reverse.map (fun outcome => caseNumOf outcome.2)
  blocks : ∀ a ∈ past, sets ≤ a.block

/-- Before the first line the history is empty. -/
theorem represents_initial (W sets : ℕ) : Represents W sets (State.initial W sets) [] where
  cache := by
    funext id index
    simp [State.initial, cacheOf, restrict, ways]
  reference := rfl
  stats := rfl
  cases := rfl
  blocks := by simp

/-- The operation text of an access. -/
def loadStoreOf (store : Bool) : String := if store then "S" else "L"

/-- One more access of a kind, on the counters. -/
def recordAccess (stats : Statistics) (store : Bool) (kind : Kind) : Statistics :=
  let cycles : Int32 := match kind with
    | .hit => 1
    | .clean => 81
    | .dirty => 161
  let miss : Int32 := if kind = .hit then 0 else 1
  let dirtyMiss : Int32 := if kind = .dirty then 1 else 0
  if store then
    { stats with
      writes := stats.writes + 1
      writeMisses := stats.writeMisses + miss
      dirtyWriteMisses := stats.dirtyWriteMisses + dirtyMiss
      writeCycle := stats.writeCycle + cycles }
  else
    { stats with
      reads := stats.reads + 1
      readMisses := stats.readMisses + miss
      dirtyReadMisses := stats.dirtyReadMisses + dirtyMiss
      readCycle := stats.readCycle + cycles }

/-- The counters of a history are kept by counting each access as it comes. -/
theorem statisticsOf_cons (store : Bool) (kind : Kind) (kinds : List (Bool × Kind)) :
    statisticsOf ((store, kind) :: kinds) = recordAccess (statisticsOf kinds) store kind := by
  cases store <;> cases kind <;>
    simp [statisticsOf, recordAccess, Int32.mul_add] <;> and_intros <;> ac_rfl

/-- What the three cases do to an entry and to the counters, by the kind of the access. -/
theorem detailedOperation_eq (store : Bool) (tag : String) (reference : Int32) (target : Target)
    (stats : Statistics) (kind : Kind) (hhit : kind = .hit ↔ tag = target.tag)
    (hdirty : kind = .dirty → target.tag ≠ "0" ∧ target.dirty = 1)
    (hclean : kind = .clean → target.tag = "0" ∨ target.dirty = 0) :
    let result := detailedOperation (loadStoreOf store) tag reference target stats
    result.target =
        ⟨1, if store then 1 else if kind = .hit then target.dirty else 0, reference, tag⟩ ∧
      result.stats.countAccess (loadStoreOf store) = recordAccess stats store kind ∧
      result.caseNum = caseNumOf kind := by
  cases kind with
  | hit =>
    have htag := hhit.mp rfl
    cases store <;>
      simp [detailedOperation, loadStoreOf, caseNumOf, Statistics.countAccess, recordAccess, htag]
  | clean =>
    have htag : tag ≠ target.tag := fun h => by simpa using hhit.mpr h
    have hchoice := hclean rfl
    cases store <;>
      simp [detailedOperation, loadStoreOf, caseNumOf, Statistics.countAccess, recordAccess, htag,
        hchoice]
  | dirty =>
    have htag : tag ≠ target.tag := fun h => by simpa using hhit.mpr h
    have hchoice := hdirty rfl
    cases store <;>
      simp [detailedOperation, loadStoreOf, caseNumOf, Statistics.countAccess, recordAccess, htag,
        hchoice]

/-- The blocks of one index are those of the history that map to it. -/
theorem mem_blocks_setHistory (sets : ℕ) (past : List (Access ℕ)) (index block : ℕ) :
    block ∈ blocks (setHistory sets past index) ↔ block ∈ blocks past ∧ block % sets = index := by
  simp only [blocks, restrict, List.mem_map, List.mem_filter, decide_eq_true_eq]
  constructor
  · intro h
    obtain ⟨a, ⟨ha, hindex⟩, rfl⟩ := h
    exact ⟨⟨a, ha, rfl⟩, hindex⟩
  · intro h
    obtain ⟨⟨a, ha, rfl⟩, hindex⟩ := h
    exact ⟨a, ⟨ha, hindex⟩, rfl⟩

/-- The entry of another block is unchanged when its dirty bit is. -/
theorem entryOf_cons_of_ne (W sets : ℕ) (past : List (Access ℕ)) (a : Access ℕ) (index block : ℕ)
    (hne : block ≠ a.block)
    (hdirty : block ∈ dirty W (setHistory sets (a :: past) index) ↔
      block ∈ dirty W (setHistory sets past index)) :
    entryOf W sets (a :: past) index block = entryOf W sets past index block := by
  have hlast : lastUse (blocks (a :: past)) block = lastUse (blocks past) block := if_neg hne
  simp only [entryOf, hdirty, hlast]

/-- One more access rewrites the entry it uses and no other. -/
theorem cacheOf_cons (W sets : ℕ) (hW : 0 < W) (past : List (Access ℕ)) (a : Access ℕ)
    (id : Fin W) (index : Fin sets) :
    cacheOf W sets (a :: past) id index =
      if id.val = place W (setHistory sets past (a.block % sets)) a.block ∧
          index.val = a.block % sets then
        entryOf W sets (a :: past) (a.block % sets) a.block
      else cacheOf W sets past id index := by
  unfold cacheOf
  by_cases hindex : index.val = a.block % sets
  · rw [hindex, setHistory, restrict_cons_self, ways_cons_getElem W hW]
    by_cases hid : id.val = place W (setHistory sets past (a.block % sets)) a.block
    · simp [hid, setHistory]
    · have hplace := ways_getElem_place W hW (setHistory sets past (a.block % sets)) a.block
      have hnodup := ways_nodup W hW (setHistory sets past (a.block % sets))
      simp only [setHistory] at hid hplace hnodup
      simp only [hid, false_and, if_false]
      cases hway : (ways W (restrict (fun block => block % sets) past (a.block % sets)))[id.val]? with
      | none => rfl
      | some c =>
        -- a block at another place is neither the accessed one nor its victim
        have hother : ∀ d, (ways W (restrict (fun block => block % sets) past
            (a.block % sets)))[place W (restrict (fun block => block % sets) past
            (a.block % sets)) a.block]? = some d → c ≠ d := by
          rintro d hd rfl
          obtain ⟨hlt, hget⟩ := List.getElem?_eq_some_iff.mp hway
          obtain ⟨hlt', hget'⟩ := List.getElem?_eq_some_iff.mp hd
          exact hid ((hnodup.getElem_inj_iff).mp (hget.trans hget'.symm))
        have hmem := (ways_perm W hW _).mem_iff.mp (List.mem_of_getElem? hway)
        have hne : c ≠ a.block := by
          rintro rfl
          rw [if_pos hmem] at hplace
          exact hother _ hplace rfl
        have hvictim : victim W (restrict (fun block => block % sets) past
            (a.block % sets)) a.block ≠ some c := by
          intro hv
          have hmiss := ((victim_eq_some_iff W hW _ _ _).mp hv).1
          rw [if_neg hmiss, hv] at hplace
          exact hother _ hplace rfl
        simp only
        apply entryOf_cons_of_ne W sets past a _ c hne
        rw [setHistory, restrict_cons_self, mem_dirty_cons]
        simp [hne, hvictim]
  · rw [setHistory, restrict_cons_of_ne _ _ _ _ (Ne.symm hindex)]
    simp only [hindex, and_false, if_false]
    cases hway : (ways W (restrict (fun block => block % sets) past index.val))[id.val]? with
    | none => rfl
    | some c =>
      have hmem := mem_blocks_of_mem_ways W hW _ c (List.mem_of_getElem? hway)
      have hmod := ((mem_blocks_setHistory sets past index.val c).mp hmem).2
      simp only
      apply entryOf_cons_of_ne W sets past a _ c
      · rintro rfl
        exact hindex hmod.symm
      · rw [setHistory, restrict_cons_of_ne _ _ _ _ (Ne.symm hindex)]

/-- The ways of an index are the entries of the blocks in their places, then empty ones. -/
theorem column_cacheOf (W sets : ℕ) (hW : 0 < W) (past : List (Access ℕ)) (index : Fin sets) :
    column (cacheOf W sets past) index =
      columnOf (entryOf W sets past index) (ways W (setHistory sets past index))
        (W - (ways W (setHistory sets past index)).length) := by
  have hle := ways_length_le W hW (setHistory sets past index)
  apply List.ext_getElem
  · simp only [column, columnOf, List.length_ofFn, List.length_append, List.length_map,
      List.length_replicate]
    omega
  · intro id hleft hright
    simp only [column, List.getElem_ofFn, cacheOf, columnOf]
    by_cases hid : id < (ways W (setHistory sets past index)).length
    · rw [List.getElem_append_left (by simpa using hid), List.getElem_map,
        List.getElem?_eq_getElem hid]
    · rw [List.getElem_append_right (by simpa using hid), List.getElem_replicate,
        List.getElem?_eq_none_iff.mpr (by omega)]

/-- Blocks of one index with the same tag are the same. -/
theorem hexText_eq_iff (sets b c : ℕ) (h : b % sets = c % sets) :
    hexText (b / sets) = hexText (c / sets) ↔ c = b := by
  constructor
  · intro htag
    have hdiv := hexText_injective htag
    rw [← Nat.div_add_mod b sets, ← Nat.div_add_mod c sets, h, hdiv]
  · rintro rfl
    rfl

/-- An access works on the place of its block. -/
theorem selectWay_cacheOf (W sets : ℕ) (hW : 0 < W) (hsets : 0 < sets) (past : List (Access ℕ))
    (hlen : past.length < 2 ^ 31) (hblocks : ∀ a ∈ past, sets ≤ a.block) (b : ℕ) (hb : sets ≤ b)
    (index : Fin sets) (hindex : index.val = b % sets) :
    selectWay (hexText (b / sets)) (column (cacheOf W sets past) index) =
      .ok (place W (setHistory sets past (b % sets)) b) := by
  rw [column_cacheOf W sets hW, hindex]
  have hperm := ways_perm W hW (setHistory sets past (b % sets))
  have hmem : ∀ c ∈ ways W (setHistory sets past (b % sets)),
      c ∈ blocks past ∧ c % sets = b % sets := fun c hc =>
    (mem_blocks_setHistory sets past (b % sets) c).mp (mem_blocks_of_mem_ways W hW _ c hc)
  have htag : ∀ c ∈ ways W (setHistory sets past (b % sets)),
      hexText (b / sets) = (entryOf W sets past (b % sets) c).tag ↔ c = b := fun c hc =>
    hexText_eq_iff sets b c (hmem c hc).2.symm
  have hne : ∀ c ∈ ways W (setHistory sets past (b % sets)),
      (entryOf W sets past (b % sets) c).tag ≠ "0" := by
    intro c hc
    obtain ⟨a, ha, rfl⟩ := List.mem_map.mp (hmem c hc).1
    exact hexText_ne_empty _ (Nat.div_pos (hblocks a ha) hsets)
  by_cases hway : b ∈ ways W (setHistory sets past (b % sets))
  · rw [selectWay_of_mem _ _ _ _ b hway htag hne, place, if_pos hway]
  · have hother : ∀ c ∈ ways W (setHistory sets past (b % sets)),
        hexText (b / sets) ≠ (entryOf W sets past (b % sets) c).tag := by
      intro c hc heq
      exact hway (((htag c hc).mp heq) ▸ hc)
    have hmiss : b ∉ resident W (setHistory sets past (b % sets)) := fun h =>
      hway (hperm.mem_iff.mpr h)
    rw [place, if_neg hway]
    cases hv : victim W (setHistory sets past (b % sets)) b with
    | none =>
      have hlt := (victim_eq_none_iff W hW _ _ hmiss).mp hv
      rw [← hperm.length_eq] at hlt
      exact selectWay_of_free _ _ _ _ hother hne (hexText_ne_empty _ (Nat.div_pos hb hsets))
        (by omega)
    | some v =>
      obtain ⟨_, newer, hsplit, hfull⟩ := (victim_eq_some_iff W hW _ _ _).mp hv
      have hlength : (ways W (setHistory sets past (b % sets))).length = W := by
        rw [hperm.length_eq, hsplit, List.length_append, List.length_singleton, hfull]
      rw [hlength, Nat.sub_self]
      apply selectWay_of_full _ _ _ hother hne v
        (hperm.mem_iff.mpr (mem_resident_of_victim W _ _ _ hv)) _ (ways_nodup W hW _)
      intro c hc hcv
      have hlast := victim_last W hW _ b v c _ (resident_restrict_pairwise _ W past _) hv
        (hperm.mem_iff.mp hc) hcv
      have hclt := lastUse_lt_length (blocks past) c (hmem c hc).1
      have hpast : (blocks past).length = past.length := List.length_map _
      change Int32.ofNat _ < Int32.ofNat _
      rw [Int32.lt_iff_toInt_lt, Int32.toInt_ofNat_of_lt (by omega),
        Int32.toInt_ofNat_of_lt (by omega)]
      exact_mod_cast hlast

/-- The entry an access finds agrees with the kind of the access. -/
theorem cacheOf_place (W sets : ℕ) (hW : 0 < W) (hsets : 0 < sets) (past : List (Access ℕ))
    (hblocks : ∀ a ∈ past, sets ≤ a.block) (b : ℕ) (hb : sets ≤ b) (id : Fin W) (index : Fin sets)
    (hid : id.val = place W (setHistory sets past (b % sets)) b) (hindex : index.val = b % sets) :
    let target := cacheOf W sets past id index
    let kind := kind W (setHistory sets past (b % sets)) b
    (kind = .hit ↔ hexText (b / sets) = target.tag) ∧
      (kind = .dirty → target.tag ≠ "0" ∧ target.dirty = 1) ∧
      (kind = .clean → target.tag = "0" ∨ target.dirty = 0) ∧
      (kind = .hit → target.dirty = if b ∈ dirty W (setHistory sets past (b % sets)) then 1 else 0) := by
  have hplace := ways_getElem_place W hW (setHistory sets past (b % sets)) b
  have htag0 := hexText_ne_empty _ (Nat.div_pos hb hsets)
  simp only [cacheOf, hid, hindex, hplace]
  by_cases hres : b ∈ resident W (setHistory sets past (b % sets))
  · have hkind := (kind_eq_hit_iff W _ b).mpr hres
    simp [hres, hkind, entryOf]
  · simp only [if_neg hres, kind]
    cases hv : victim W (setHistory sets past (b % sets)) b with
    | none => simp [Target.empty, htag0]
    | some v =>
      have hmem := (mem_blocks_setHistory sets past (b % sets) v).mp
        (mem_blocks_of_mem_resident W _ v (mem_resident_of_victim W _ b v hv))
      have htag : hexText (b / sets) ≠ hexText (v / sets) := fun h =>
        victim_ne W _ b v hv ((hexText_eq_iff sets b v hmem.2.symm).mp h)
      obtain ⟨a, ha, rfl⟩ := List.mem_map.mp hmem.1
      have hvtag := hexText_ne_empty _ (Nat.div_pos (hblocks a ha) hsets)
      by_cases hdirty : a.block ∈ dirty W (setHistory sets past (b % sets))
      · simp [hdirty, entryOf, htag, hvtag]
      · simp [hdirty, entryOf, htag]

/-- A decoded access adds to the history that the state shows. -/
theorem access_represents (W sets : ℕ) (hW : 0 < W) (hsets : 0 < sets) (hfits : sets < 2 ^ 31)
    (s : State W sets) (past : List (Access ℕ)) (h : Represents W sets s past)
    (hlen : past.length < 2 ^ 31) (record : Record) (address : DecodedAddress) (a : Access ℕ)
    (ha : sets ≤ a.block) (hop : record.loadStore = loadStoreOf a.store)
    (hindex : address.index = Int32.ofNat (a.block % sets))
    (htag : address.tag = hexText (a.block / sets)) :
    ∃ s', access s record address = .ok s' ∧ Represents W sets s' (a :: past) := by
  have hmod : a.block % sets < sets := Nat.mod_lt _ hsets
  have hplace := place_lt W hW (setHistory sets past (a.block % sets)) a.block
  have hindexOk := arrayIndex_ofNat_mod sets a.block hsets hfits
  rw [← hindex] at hindexOk
  have hwayOk : wayIndex W (place W (setHistory sets past (a.block % sets)) a.block) =
      .ok ⟨_, hplace⟩ := dif_pos hplace
  obtain ⟨hhit, hdirty, hclean, hkept⟩ := cacheOf_place W sets hW hsets past h.blocks a.block ha
    ⟨_, hplace⟩ ⟨_, hmod⟩ rfl rfl
  obtain ⟨htarget, hstats, hcase⟩ := detailedOperation_eq a.store (hexText (a.block / sets))
    s.reference (cacheOf W sets past ⟨_, hplace⟩ ⟨_, hmod⟩) s.stats _ hhit hdirty hclean
  have hentry : (⟨1, if a.store then 1 else
      if kind W (setHistory sets past (a.block % sets)) a.block = .hit then
        (cacheOf W sets past ⟨_, hplace⟩ ⟨_, hmod⟩).dirty else 0,
      s.reference, hexText (a.block / sets)⟩ : Target) =
      entryOf W sets (a :: past) (a.block % sets) a.block := by
    have hlast : lastUse (blocks (a :: past)) a.block = past.length := by
      simp [blocks, lastUse]
    simp only [entryOf, hlast, h.reference, setHistory, restrict_cons_self, mem_dirty_cons,
      Target.mk.injEq, and_true, true_and]
    cases hstore : a.store with
    | true => simp
    | false =>
      by_cases hres : a.block ∈ resident W (setHistory sets past (a.block % sets))
      · have hkind := (kind_eq_hit_iff W _ _).mpr hres
        rw [hkept hkind, victim_of_mem W _ _ hres]
        simp [hkind]
      · have hkind : kind W (setHistory sets past (a.block % sets)) a.block ≠ .hit := fun hk =>
          hres ((kind_eq_hit_iff W _ _).mp hk)
        have hnot : a.block ∉ dirty W (setHistory sets past (a.block % sets)) := fun hd =>
          hres (mem_resident_of_mem_dirty W hW _ _ hd)
        simp [hkind, hnot]
  refine ⟨s.afterAccess record address ⟨_, hplace⟩ ⟨_, hmod⟩, ?_, ?_⟩
  · simp only [access, hindexOk, ok_bind, h.cache, htag,
      selectWay_cacheOf W sets hW hsets past hlen h.blocks a.block ha ⟨_, hmod⟩ rfl, hwayOk,
      pure_eq_ok]
  · rw [h.stats] at htarget hstats hcase
    constructor
    · funext id index
      simp only [State.afterAccess, setTarget, cacheOf_cons W sets hW, Fin.ext_iff, hop, htag,
        h.cache, h.stats, htarget, hentry]
    · simp only [State.afterAccess, h.reference, List.length_cons]
      exact (Int32.ofNat_add _ 1).symm
    · simp only [State.afterAccess, hop, htag, h.cache, h.stats, hstats, jointOutcomes, kindsOf,
        statisticsOf_cons]
    · simp only [State.afterAccess, hop, htag, h.cache, h.stats, hcase, List.map_append, h.cases,
        jointOutcomes, kindsOf, List.reverse_cons, List.map_cons, List.map_nil]
    · intro b hb
      rcases List.mem_cons.mp hb with rfl | hb
      · exact ha
      · exact h.blocks b hb

end Coursework.CacheSimulation.Sys2
