import Coursework.Recency.LruSet
import Mathlib.Algebra.BigOperators.Group.Finset.Basic
import Mathlib.Algebra.Order.BigOperators.Group.Finset

/-!
# Inclusion between capacities, and sets side by side

On one history the blocks of a smaller LRU set are among those of a larger one, so the
larger set misses no more often. It also writes back no more often: every block that is
modified in the larger set only has already been written back once by the smaller set,
and that write-back pays for the one the larger set may still owe.

Several sets side by side partition a common history. The kinds of all references are
then those of the separate sets, counted together.
-/

namespace Coursework.Recency

variable {α : Type*} [DecidableEq α]

/-- The number of misses of a history. -/
def misses (W : ℕ) (past : List (Access α)) : ℕ :=
  (outcomes W past).countP (fun outcome => outcome.2 ≠ .hit)

/-- The number of write-backs of a history. -/
def writebacks (W : ℕ) (past : List (Access α)) : ℕ :=
  (outcomes W past).countP (fun outcome => outcome.2 = .dirty)

/-- A larger set holds the blocks of a smaller one. -/
theorem resident_subset (W W' : ℕ) (h : W ≤ W') (past : List (Access α)) :
    resident W past ⊆ resident W' past :=
  (List.take_sublist_take_left h).subset

/-- A larger set misses no more often. -/
theorem misses_le (W W' : ℕ) (h : W ≤ W') (past : List (Access α)) :
    misses W' past ≤ misses W past := by
  induction past with
  | nil => rfl
  | cons a past ih =>
    have hhit : kind W past a.block = .hit → kind W' past a.block = .hit := by
      rw [kind_eq_hit_iff, kind_eq_hit_iff]
      exact fun hmem => resident_subset W W' h past hmem
    simp only [misses, outcomes, List.countP_cons, ne_eq] at ih ⊢
    by_cases hk : kind W past a.block = .hit
    · simpa [hk, hhit hk] using ih
    · simp only [hk, not_false_eq_true, decide_true, if_true]
      split <;> omega

/-- A set of modified blocks after an optional victim left. -/
def dropVictim (v : Option α) (modified : Finset α) : Finset α :=
  match v with
  | some v => modified.erase v
  | none => modified

/-- The write-backs that an optional victim causes. -/
def victimWriteback (v : Option α) (modified : Finset α) : ℕ :=
  match v with
  | some v => if v ∈ modified then 1 else 0
  | none => 0

/-- A block that leaves the larger set pays with its absence from the difference, and a modified
block that leaves the smaller set enters the difference at the price of a write-back. -/
theorem card_sdiff_dropVictim_le (large small : Option α) (inLarge inSmall : Finset α)
    (h : ∀ v, large = some v → v ∈ inSmall → small = some v) :
    (dropVictim large inLarge \ dropVictim small inSmall).card + victimWriteback large inLarge ≤
      (inLarge \ inSmall).card + victimWriteback small inSmall := by
  have hsmall : (dropVictim large inLarge \ dropVictim small inSmall).card ≤
      (dropVictim large inLarge \ inSmall).card + victimWriteback small inSmall := by
    cases small with
    | none => simp [dropVictim, victimWriteback]
    | some w =>
      simp only [dropVictim, victimWriteback]
      by_cases hw : w ∈ inSmall
      · rw [if_pos hw]
        refine (Finset.card_le_card ?_).trans (Finset.card_insert_le w _)
        intro c hc
        rw [Finset.mem_sdiff, Finset.mem_erase] at hc
        rw [Finset.mem_insert, Finset.mem_sdiff]
        by_cases hcw : c = w
        · exact Or.inl hcw
        · exact Or.inr ⟨hc.1, fun hcs => hc.2 ⟨hcw, hcs⟩⟩
      · rw [if_neg hw, Finset.erase_eq_of_notMem hw, Nat.add_zero]
  cases large with
  | none => simpa [dropVictim, victimWriteback] using hsmall
  | some v =>
    by_cases hv : v ∈ inLarge
    · by_cases hvs : v ∈ inSmall
      · -- the block was modified in both sets and leaves both at this reference
        rw [h v rfl hvs]
        simp only [dropVictim, victimWriteback, hv, hvs, if_true]
        have hsub : inLarge.erase v \ inSmall.erase v ⊆ inLarge \ inSmall := by
          intro c hc
          rw [Finset.mem_sdiff, Finset.mem_erase, Finset.mem_erase] at hc
          rw [Finset.mem_sdiff]
          exact ⟨hc.1.2, fun hcs => hc.2 ⟨hc.1.1, hcs⟩⟩
        exact Nat.add_le_add_right (Finset.card_le_card hsub) 1
      · have herase : inLarge.erase v \ inSmall = (inLarge \ inSmall).erase v := by
          rw [Finset.erase_sdiff_comm]
        have hmem : v ∈ inLarge \ inSmall := Finset.mem_sdiff.mpr ⟨hv, hvs⟩
        have hcard := Finset.card_erase_add_one hmem
        simp only [dropVictim, victimWriteback, hv, if_true] at hsmall ⊢
        rw [herase] at hsmall
        omega
    · simp only [dropVictim, victimWriteback, hv, if_false, Finset.erase_eq_of_notMem hv,
        Nat.add_zero] at hsmall ⊢
      exact hsmall

/-- The modified blocks of one more reference, by the victim it has. -/
theorem dirty_cons (W : ℕ) (past : List (Access α)) (a : Access α) :
    dirty W (a :: past) =
      if a.store then insert a.block (dropVictim (victim W past a.block) (dirty W past))
      else dropVictim (victim W past a.block) (dirty W past) := rfl

/-- One more reference writes back its modified victim. -/
theorem writebacks_cons (W : ℕ) (past : List (Access α)) (a : Access α) :
    writebacks W (a :: past) =
      writebacks W past + victimWriteback (victim W past a.block) (dirty W past) := by
  simp only [writebacks, outcomes, List.countP_cons, kind_eq_dirty_iff, decide_eq_true_eq]
  congr 1
  cases victim W past a.block with
  | none => simp [victimWriteback]
  | some v => simp [victimWriteback]

/-- The write-backs of a larger set, with those it still owes for the blocks modified in it alone,
are paid for by the write-backs of a smaller set. -/
theorem writebacks_add_card_le (W W' : ℕ) (hW : 0 < W) (h : W ≤ W') (past : List (Access α)) :
    writebacks W' past + (dirty W' past \ dirty W past).card ≤ writebacks W past := by
  induction past with
  | nil => simp [writebacks, outcomes, dirty]
  | cons a past ih =>
    have hvictim : ∀ v, victim W' past a.block = some v → v ∈ dirty W past →
        victim W past a.block = some v := by
      intro v hv hdirty
      have hleft : v ∉ resident W' (a :: past) := by
        rw [mem_resident_cons W' (by omega)]
        simp [victim_ne W' past _ v hv, hv]
      have hsmall : v ∉ resident W (a :: past) := fun hmem =>
        hleft (resident_subset W W' h _ hmem)
      rw [mem_resident_cons W hW] at hsmall
      by_contra hne
      exact hsmall (Or.inr ⟨mem_resident_of_mem_dirty W hW past v hdirty, hne⟩)
    have hstep := card_sdiff_dropVictim_le (victim W' past a.block) (victim W past a.block)
      (dirty W' past) (dirty W past) hvictim
    have hsub : dirty W' (a :: past) \ dirty W (a :: past) ⊆
        dropVictim (victim W' past a.block) (dirty W' past) \
          dropVictim (victim W past a.block) (dirty W past) := by
      rw [dirty_cons, dirty_cons]
      split
      · intro c hc
        rw [Finset.mem_sdiff, Finset.mem_insert, Finset.mem_insert] at hc
        rw [Finset.mem_sdiff]
        exact ⟨hc.1.resolve_left fun hb => hc.2 (Or.inl hb), fun hmem => hc.2 (Or.inr hmem)⟩
      · exact Finset.Subset.refl _
    have hcard := Finset.card_le_card hsub
    rw [writebacks_cons, writebacks_cons]
    omega

/-- A larger set writes back no more often. -/
theorem writebacks_le (W W' : ℕ) (hW : 0 < W) (h : W ≤ W') (past : List (Access α)) :
    writebacks W' past ≤ writebacks W past :=
  (Nat.le_add_right _ _).trans (writebacks_add_card_le W W' hW h past)

section SideBySide

variable {ι : Type*} [DecidableEq ι] (idx : α → ι)

/-- The references of a common history that go to one set. -/
def restrict (past : List (Access α)) (i : ι) : List (Access α) :=
  past.filter (fun a => idx a.block = i)

/-- The direction and kind of every reference of a common history. -/
def jointOutcomes (W : ℕ) : List (Access α) → List (Bool × Kind)
  | [] => []
  | a :: past =>
    (a.store, kind W (restrict idx past (idx a.block)) a.block) :: jointOutcomes W past

omit [DecidableEq α] in
/-- A reference extends the history of its own set. -/
theorem restrict_cons_self (past : List (Access α)) (a : Access α) :
    restrict idx (a :: past) (idx a.block) = a :: restrict idx past (idx a.block) := by
  simp [restrict]

omit [DecidableEq α] in
/-- A reference leaves the histories of the other sets alone. -/
theorem restrict_cons_of_ne (past : List (Access α)) (a : Access α) (i : ι)
    (h : idx a.block ≠ i) : restrict idx (a :: past) i = restrict idx past i := by
  simp [restrict, h]

omit [DecidableEq α] in
/-- A block referenced in one set was referenced in the common history. -/
theorem mem_blocks_of_mem_restrict (past : List (Access α)) (i : ι) (b : α)
    (h : b ∈ blocks (restrict idx past i)) : b ∈ blocks past := by
  obtain ⟨a, ha, rfl⟩ := List.mem_map.mp h
  exact List.mem_map_of_mem (List.mem_of_mem_filter ha)

/-- Stack distance in one of several sets: a block is resident exactly when it was referenced and
fewer than `W` distinct blocks of its set were referenced since. -/
theorem mem_resident_restrict_iff (W : ℕ) (past : List (Access α)) (b : α) :
    b ∈ resident W (restrict idx past (idx b)) ↔
      ∃ newer last older, past = newer ++ last :: older ∧ last.block = b ∧ b ∉ blocks newer ∧
        (blocks (restrict idx newer (idx b))).toFinset.card < W := by
  have hcut (newer : List (Access α)) (last : Access α) (older : List (Access α))
      (hb : last.block ∉ blocks newer) :
      last.block ∈ resident W (restrict idx (newer ++ last :: older) (idx last.block)) ↔
        (blocks (restrict idx newer (idx last.block))).toFinset.card < W := by
    have hnewer : last.block ∉ blocks (restrict idx newer (idx last.block)) := fun hmem =>
      hb (mem_blocks_of_mem_restrict idx newer _ _ hmem)
    rw [resident, restrict, List.filter_append, List.filter_cons_of_pos (by simp), blocks,
      List.map_append, List.map_cons]
    exact mem_take_recency_append_cons _ _ _ _ hnewer
  constructor
  · intro h
    have hpast := mem_blocks_of_mem_restrict idx past _ b (mem_blocks_of_mem_resident W _ b h)
    obtain ⟨front, back, hsplit, hb⟩ := List.eq_append_cons_of_mem hpast
    obtain ⟨newer, rest, rfl, rfl, hrest⟩ := List.map_eq_append_iff.mp hsplit
    obtain ⟨last, older, rfl, rfl, rfl⟩ := List.map_eq_cons_iff.mp hrest
    exact ⟨newer, last, older, rfl, rfl, hb, (hcut newer last older hb).mp h⟩
  · intro h
    obtain ⟨newer, last, older, rfl, rfl, hb, hcard⟩ := h
    exact (hcut newer last older hb).mpr hcard

/-- The resident blocks of a set are listed by decreasing latest reference in the common history. -/
theorem resident_restrict_pairwise (W : ℕ) (past : List (Access α)) (i : ι) :
    (resident W (restrict idx past i)).Pairwise
      (fun b c => lastUse (blocks past) c < lastUse (blocks past) b) := by
  have hblocks : blocks (restrict idx past i) = (blocks past).filter (fun b => idx b = i) := by
    rw [blocks, blocks, restrict, List.filter_map]
    rfl
  rw [resident, hblocks, recency_filter]
  exact (recency_pairwise _).sublist ((List.take_sublist _ _).trans List.filter_sublist)

/-- Counting over a common history is counting over its sets. -/
theorem countP_jointOutcomes (W : ℕ) (p : Bool × Kind → Bool) (sets : Finset ι)
    (past : List (Access α)) (h : ∀ a ∈ past, idx a.block ∈ sets) :
    (jointOutcomes idx W past).countP p =
      ∑ i ∈ sets, (outcomes W (restrict idx past i)).countP p := by
  induction past with
  | nil => simp [jointOutcomes, restrict, outcomes]
  | cons a past ih =>
    have ha : idx a.block ∈ sets := h a (by simp)
    have hrest := ih fun b hb => h b (List.mem_cons_of_mem a hb)
    rw [jointOutcomes, List.countP_cons, hrest, ← Finset.sum_erase_add _ _ ha,
      ← Finset.sum_erase_add _ _ ha, restrict_cons_self, outcomes, List.countP_cons, Nat.add_assoc]
    congr 1
    apply Finset.sum_congr rfl
    intro i hi
    rw [restrict_cons_of_ne idx past a i (Finset.ne_of_mem_erase hi).symm]

/-- Every reference of a common history has an outcome. -/
theorem jointOutcomes_length (W : ℕ) (past : List (Access α)) :
    (jointOutcomes idx W past).length = past.length := by
  induction past with
  | nil => rfl
  | cons a past ih => rw [jointOutcomes, List.length_cons, List.length_cons, ih]

/-- The outcome of each reference, in the order of the references. -/
theorem jointOutcomes_reverse_getElem? (W : ℕ) (refs : List (Access α)) (i : ℕ) :
    (jointOutcomes idx W refs.reverse).reverse[i]? = refs[i]?.map fun a =>
      (a.store, kind W (restrict idx (refs.take i).reverse (idx a.block)) a.block) := by
  induction refs using List.reverseRecOn with
  | nil => rfl
  | append_singleton refs a ih =>
    rw [List.reverse_append, List.reverse_singleton, List.singleton_append, jointOutcomes,
      List.reverse_cons]
    have hlength : (jointOutcomes idx W refs.reverse).reverse.length = refs.length := by
      rw [List.length_reverse, jointOutcomes_length, List.length_reverse]
    by_cases hi : i < refs.length
    · rw [List.getElem?_append_left (by omega), ih, List.getElem?_append_left hi,
        List.take_append_of_le_length hi.le]
    · rw [List.getElem?_append_right (by omega), List.getElem?_append_right (by omega), hlength]
      by_cases heq : i = refs.length
      · simp [heq]
      · have hpos : i - refs.length ≠ 0 := by omega
        simp [hpos]

/-- The number of misses of a common history. -/
def jointMisses (W : ℕ) (past : List (Access α)) : ℕ :=
  (jointOutcomes idx W past).countP (fun outcome => outcome.2 ≠ .hit)

/-- The number of write-backs of a common history. -/
def jointWritebacks (W : ℕ) (past : List (Access α)) : ℕ :=
  (jointOutcomes idx W past).countP (fun outcome => outcome.2 = .dirty)

/-- There are at most as many misses as references. -/
theorem jointMisses_le_length (W : ℕ) (past : List (Access α)) :
    jointMisses idx W past ≤ past.length := by
  rw [jointMisses, ← jointOutcomes_length idx W past]
  exact List.countP_le_length

/-- There are at most as many write-backs as references. -/
theorem jointWritebacks_le_length (W : ℕ) (past : List (Access α)) :
    jointWritebacks idx W past ≤ past.length := by
  rw [jointWritebacks, ← jointOutcomes_length idx W past]
  exact List.countP_le_length

/-- Larger sets miss no more often, together. -/
theorem jointMisses_le (W W' : ℕ) (h : W ≤ W') (past : List (Access α)) :
    jointMisses idx W' past ≤ jointMisses idx W past := by
  have hsets : ∀ a ∈ past, idx a.block ∈ (past.map fun a => idx a.block).toFinset := by
    intro a ha
    exact List.mem_toFinset.mpr (List.mem_map_of_mem ha)
  rw [jointMisses, jointMisses, countP_jointOutcomes idx W' _ _ past hsets,
    countP_jointOutcomes idx W _ _ past hsets]
  exact Finset.sum_le_sum fun i _ => misses_le W W' h _

/-- Larger sets write back no more often, together. -/
theorem jointWritebacks_le (W W' : ℕ) (hW : 0 < W) (h : W ≤ W') (past : List (Access α)) :
    jointWritebacks idx W' past ≤ jointWritebacks idx W past := by
  have hsets : ∀ a ∈ past, idx a.block ∈ (past.map fun a => idx a.block).toFinset := by
    intro a ha
    exact List.mem_toFinset.mpr (List.mem_map_of_mem ha)
  rw [jointWritebacks, jointWritebacks, countP_jointOutcomes idx W' _ _ past hsets,
    countP_jointOutcomes idx W _ _ past hsets]
  exact Finset.sum_le_sum fun i _ => writebacks_le W W' hW h _

/-- Histories that agree on every set have the same outcomes, in some order. -/
theorem jointOutcomes_perm (W : ℕ) (past past' : List (Access α))
    (h : ∀ i, restrict idx past i = restrict idx past' i) :
    (jointOutcomes idx W past).Perm (jointOutcomes idx W past') := by
  rw [List.perm_iff_count]
  intro outcome
  have hsets : ∀ a ∈ past ++ past', idx a.block ∈
      ((past ++ past').map fun a => idx a.block).toFinset := by
    intro a ha
    exact List.mem_toFinset.mpr (List.mem_map_of_mem ha)
  rw [List.count_eq_countP, List.count_eq_countP,
    countP_jointOutcomes idx W _ _ past fun a ha => hsets a (List.mem_append_left _ ha),
    countP_jointOutcomes idx W _ _ past' fun a ha => hsets a (List.mem_append_right _ ha)]
  exact Finset.sum_congr rfl fun i _ => by rw [h i]

end SideBySide

end Coursework.Recency
