import Coursework.Recency.Inclusion
import Mathlib.Algebra.BigOperators.Group.Finset.Piecewise
import Mathlib.Algebra.BigOperators.Ring.Finset
import Mathlib.Tactic.Ring
import Mathlib.Tactic.Linarith

/-!
# Least recently used against any replacement

A history can be served by a set with some places in many ways: on a miss the block is brought
in, and any blocks may be given up for it, with or without knowledge of what follows. Between
two references from which on an LRU set misses as often as it has places, so many blocks are
referenced that a set with fewer places must miss as well. The misses of the LRU set are thus at
most in proportion to those of any other way to serve the history, and on the whole as few as
possible as long as there is room for all blocks.
-/

namespace Coursework.Recency

variable {α : Type*} [DecidableEq α]

/-- A set with `h` places that was empty can serve a history so that it holds these contents after
it and has missed so many times: a block that is referenced is held then, and no other is brought
in. -/
inductive Serves (h : ℕ) : List (Access α) → Finset α → ℕ → Prop where
  | nil : Serves h [] ∅ 0
  | cons {past : List (Access α)} {contents contents' : Finset α} {n : ℕ} (a : Access α)
      (hpast : Serves h past contents n) (hblock : a.block ∈ contents')
      (hkept : contents' ⊆ insert a.block contents) (hroom : contents'.card ≤ h) :
      Serves h (a :: past) contents' (n + if a.block ∈ contents then 0 else 1)

/-- A reference that is not a hit is a miss. -/
theorem misses_cons (W : ℕ) (past : List (Access α)) (a : Access α) :
    misses W (a :: past) = misses W past + if a.block ∈ resident W past then 0 else 1 := by
  simp only [misses, outcomes, List.countP_cons, ne_eq, decide_not, kind_eq_hit_iff,
    Bool.not_eq_true', decide_eq_false_iff_not]
  split_ifs <;> rfl

/-- An LRU set brings in the block that is referenced, and no other, and has place for what it
holds. -/
theorem resident_cons_served (W : ℕ) (hW : 0 < W) (past : List (Access α)) (a : Access α) :
    a.block ∈ (resident W (a :: past)).toFinset ∧
      (resident W (a :: past)).toFinset ⊆ insert a.block (resident W past).toFinset ∧
      (resident W (a :: past)).toFinset.card ≤ W := by
  refine ⟨?_, ?_, (List.toFinset_card_le _).trans (List.length_take_le _ _)⟩
  · rw [List.mem_toFinset, mem_resident_cons W hW]
    exact Or.inl rfl
  · intro b hb
    rw [List.mem_toFinset, mem_resident_cons W hW] at hb
    rw [Finset.mem_insert, List.mem_toFinset]
    exact hb.imp_right And.left

/-- One more block of a history. -/
theorem toFinset_blocks_cons (a : Access α) (past : List (Access α)) :
    (blocks (a :: past)).toFinset = insert a.block (blocks past).toFinset := by
  rw [blocks, List.map_cons, List.toFinset_cons, blocks]

/-- What is held after the later part of a history was held before it or is referenced in it, and the
blocks of that part that were not held before it have been missed. -/
theorem Serves.of_append {h n : ℕ} {newer older : List (Access α)} {contents : Finset α}
    (hserves : Serves h (newer ++ older) contents n) :
    ∃ before m, Serves h older before m ∧ contents ⊆ before ∪ (blocks newer).toFinset ∧
      m + ((blocks newer).toFinset \ before).card ≤ n := by
  induction newer generalizing contents n with
  | nil => exact ⟨contents, n, hserves, Finset.subset_union_left, by simp [blocks]⟩
  | cons a newer ih =>
    cases hserves with
    | cons _ hpast hblock hkept hroom =>
      obtain ⟨before, m, holder, hheld, hmissed⟩ := ih hpast
      rename_i contents' n'
      refine ⟨before, m, holder, ?_, ?_⟩
      · intro b hb
        rw [toFinset_blocks_cons, Finset.union_insert, Finset.mem_insert]
        exact (Finset.mem_insert.mp (hkept hb)).imp_right fun hcontents => hheld hcontents
      · rw [toFinset_blocks_cons]
        split
        · rename_i hhit
          have hsame : insert a.block (blocks newer).toFinset \ before =
              (blocks newer).toFinset \ before := by
            ext b
            have hheld := hheld hhit
            rw [Finset.mem_union] at hheld
            rw [Finset.mem_sdiff, Finset.mem_sdiff, Finset.mem_insert]
            constructor
            · rintro ⟨rfl | hb, hnot⟩
              · exact ⟨hheld.resolve_left hnot, hnot⟩
              · exact ⟨hb, hnot⟩
            · rintro ⟨hb, hnot⟩
              exact ⟨Or.inr hb, hnot⟩
          rw [hsame]
          exact hmissed
        · have hcard : (insert a.block (blocks newer).toFinset \ before).card ≤
              ((blocks newer).toFinset \ before).card + 1 := by
            refine (Finset.card_le_card ?_).trans (Finset.card_insert_le a.block _)
            intro b hb
            rw [Finset.mem_sdiff, Finset.mem_insert] at hb
            rw [Finset.mem_insert, Finset.mem_sdiff]
            exact hb.1.imp_right fun hmem => ⟨hmem, hb.2⟩
          omega

/-- A history has at least one miss for each of its blocks, however it is served. -/
theorem Serves.card_blocks_le {h n : ℕ} {past : List (Access α)} {contents : Finset α}
    (hserves : Serves h past contents n) : (blocks past).toFinset.card ≤ n := by
  rw [← List.append_nil past] at hserves
  obtain ⟨before, m, holder, -, hmissed⟩ := hserves.of_append
  cases holder
  rw [Finset.sdiff_empty] at hmissed
  omega

/-- The blocks of the later part of a history, when there are at most as many as places. -/
theorem mem_resident_append {W : ℕ} {newer older : List (Access α)}
    (hcard : (blocks newer).toFinset.card ≤ W) {b : α} (hb : b ∈ blocks newer) :
    b ∈ resident W (newer ++ older) := by
  have hsplit : blocks (newer ++ older) = blocks newer ++ blocks older := List.map_append
  rw [resident, hsplit, recency_append]
  have hlength : (recency (blocks newer)).length ≤ W := (recency_length _).le.trans hcard
  rw [List.take_append, List.take_of_length_le hlength]
  exact List.mem_append_left _ ((mem_recency _ b).mpr hb)

/-- As long as there is room for all its blocks, the later part of a history misses those that its
earliest references do not bring along, once each. -/
theorem misses_append_le {W : ℕ} (newer first older : List (Access α))
    (hcard : (blocks (newer ++ first)).toFinset.card ≤ W) :
    misses W (newer ++ (first ++ older)) ≤
      misses W (first ++ older) + ((blocks newer).toFinset \ (blocks first).toFinset).card := by
  induction newer with
  | nil => exact Nat.le_add_right _ _
  | cons a newer ih =>
    rw [List.cons_append, toFinset_blocks_cons] at hcard
    have hfewer : (blocks (newer ++ first)).toFinset.card ≤ W :=
      (Finset.card_le_card (Finset.subset_insert _ _)).trans hcard
    have hmisses := ih hfewer
    rw [List.cons_append, misses_cons, toFinset_blocks_cons]
    by_cases ha : a.block ∈ blocks (newer ++ first)
    · have hresident : a.block ∈ resident W (newer ++ (first ++ older)) := by
        rw [← List.append_assoc]
        exact mem_resident_append hfewer ha
      have hmono : ((blocks newer).toFinset \ (blocks first).toFinset).card ≤
          (insert a.block (blocks newer).toFinset \ (blocks first).toFinset).card :=
        Finset.card_le_card (Finset.sdiff_subset_sdiff (Finset.subset_insert _ _) le_rfl)
      rw [if_pos hresident]
      omega
    · have hsplit : blocks (newer ++ first) = blocks newer ++ blocks first := List.map_append
      rw [hsplit, List.mem_append, not_or] at ha
      have hcons : insert a.block (blocks newer).toFinset \ (blocks first).toFinset =
          insert a.block ((blocks newer).toFinset \ (blocks first).toFinset) :=
        Finset.insert_sdiff_of_notMem _ fun hmem => ha.2 (List.mem_toFinset.mp hmem)
      have hnew : a.block ∉ (blocks newer).toFinset \ (blocks first).toFinset := fun hmem =>
        ha.1 (List.mem_toFinset.mp (Finset.mem_sdiff.mp hmem).1)
      rw [hcons, Finset.card_insert_of_notMem hnew]
      split_ifs <;> omega

/-- With room for all blocks, an LRU set misses each of them once. -/
theorem misses_le_card {W : ℕ} {past : List (Access α)} (hcard : (blocks past).toFinset.card ≤ W) :
    misses W past ≤ (blocks past).toFinset.card := by
  have hle : misses W (past ++ ([] ++ [])) ≤
      misses W ([] ++ []) + ((blocks past).toFinset \ (blocks []).toFinset).card :=
    misses_append_le past [] [] (by rw [List.append_nil]; exact hcard)
  have hnone : (blocks ([] : List (Access α))).toFinset = ∅ := rfl
  rw [List.append_nil, List.append_nil, hnone, Finset.sdiff_empty] at hle
  exact hle.trans_eq (Nat.zero_add _)

/-- A history is cut where a number of misses is left, if there are more. -/
theorem exists_cut {W : ℕ} (past : List (Access α)) (left : ℕ) (hleft : left ≤ misses W past) :
    ∃ newer older, past = newer ++ older ∧ misses W older = left := by
  induction past with
  | nil => exact ⟨[], [], rfl, (Nat.le_zero.mp hleft).symm⟩
  | cons a past ih =>
    rcases hleft.eq_or_lt with rfl | hlt
    · exact ⟨[], a :: past, rfl, rfl⟩
    · have hbefore : left ≤ misses W past := by
        rw [misses_cons] at hlt
        split_ifs at hlt <;> omega
      obtain ⟨newer, older, rfl, holder⟩ := ih hbefore
      exact ⟨a :: newer, older, rfl, holder⟩

/-- Between a reference and `W` misses of an LRU set later, any other way to serve the history
misses more often than there are places the LRU set has more. -/
theorem Serves.add_le {W h n : ℕ} (hW : h ≤ W) {newer older : List (Access α)} {x : Access α}
    {contents : Finset α} (hserves : Serves h (newer ++ x :: older) contents n)
    (hmisses : misses W (x :: older) + W ≤ misses W (newer ++ x :: older)) :
    ∃ before m, Serves h (x :: older) before m ∧ m + (W + 1 - h) ≤ n := by
  obtain ⟨before, m, holder, -, hmissed⟩ := hserves.of_append
  refine ⟨before, m, holder, ?_⟩
  have hdistinct : W ≤ ((blocks newer).toFinset.erase x.block).card := by
    by_contra hfew
    have hcard : (blocks (newer ++ [x])).toFinset.card ≤ W := by
      have hsplit : (blocks (newer ++ [x])).toFinset =
          insert x.block ((blocks newer).toFinset.erase x.block) := by
        ext b
        by_cases hb : b = x.block <;> simp [blocks, hb]
      rw [hsplit]
      exact (Finset.card_insert_le _ _).trans (by omega)
    have hle := misses_append_le newer [x] older hcard
    have hsingle : (blocks newer).toFinset \ (blocks [x]).toFinset =
        (blocks newer).toFinset.erase x.block := by
      ext b
      simp [blocks, and_comm]
    rw [hsingle] at hle
    change misses W (newer ++ x :: older) ≤ misses W (x :: older) + _ at hle
    omega
  cases holder with
  | cons _ hpast hblock hkept hroom =>
    have hsubset : (blocks newer).toFinset.erase x.block ⊆
        ((blocks newer).toFinset \ before) ∪ before.erase x.block := by
      intro b hb
      obtain ⟨hne, hmem⟩ := Finset.mem_erase.mp hb
      by_cases hbefore : b ∈ before
      · exact Finset.mem_union_right _ (Finset.mem_erase.mpr ⟨hne, hbefore⟩)
      · exact Finset.mem_union_left _ (Finset.mem_sdiff.mpr ⟨hmem, hbefore⟩)
    have hunion := (Finset.card_le_card hsubset).trans (Finset.card_union_le _ _)
    rw [Finset.card_erase_of_mem hblock] at hunion
    have hpos : 0 < before.card := Finset.card_pos.mpr ⟨_, hblock⟩
    omega

/-- There is a place if there is a reference. -/
theorem Serves.pos {h n : ℕ} {past : List (Access α)} {contents : Finset α}
    (hserves : Serves h past contents n) (hne : past ≠ []) : 0 < h := by
  cases hserves with
  | nil => exact absurd rfl hne
  | cons a hpast hblock hkept hroom => exact (Finset.card_pos.mpr ⟨_, hblock⟩).trans_le hroom

/-- As long as an LRU set has missed no more often than it has places, nothing misses less often. -/
theorem Serves.misses_le {W h n : ℕ} {past : List (Access α)} {contents : Finset α}
    (hserves : Serves h past contents n) (hmisses : misses W past ≤ W) : misses W past ≤ n := by
  have hdistinct := hserves.card_blocks_le
  rcases Nat.lt_or_ge W (blocks past).toFinset.card with hmany | hroom
  · omega
  · exact (misses_le_card hroom).trans hdistinct

/-- An LRU set with `W` places misses at most `W / (W + 1 - h)` times as often as any way to serve
the history with `h` places. -/
theorem Serves.mul_misses_le {W h n : ℕ} (hW : h ≤ W) {past : List (Access α)} {contents : Finset α}
    (hserves : Serves h past contents n) : (W + 1 - h) * misses W past ≤ W * n := by
  induction hlength : past.length using Nat.strong_induction_on generalizing past contents n with
  | _ length ih =>
    subst hlength
    rcases eq_or_ne past [] with rfl | hne
    · exact Nat.zero_le _
    have hpos := hserves.pos hne
    rcases Nat.lt_or_ge W (misses W past) with hmany | hle
    · obtain ⟨newer, older, rfl, hcut⟩ := exists_cut past (misses W past - W) (Nat.sub_le _ _)
      obtain ⟨x, older, rfl⟩ : ∃ x rest, older = x :: rest := by
        cases older with
        | nil =>
          have hzero : misses W ([] : List (Access α)) = 0 := rfl
          omega
        | cons x rest => exact ⟨x, rest, rfl⟩
      obtain ⟨before, m, holder, hadd⟩ := hserves.add_le hW (by omega)
      have hshorter : (x :: older).length < (newer ++ x :: older).length := by
        rw [List.length_append]
        have hnewer : newer ≠ [] := by
          rintro rfl
          rw [List.nil_append] at hcut hmany
          omega
        have := List.length_pos_iff.mpr hnewer
        omega
      have hbefore := ih _ hshorter holder rfl
      have hsplit : misses W (newer ++ x :: older) = misses W (x :: older) + W := by omega
      calc (W + 1 - h) * misses W (newer ++ x :: older)
          = (W + 1 - h) * misses W (x :: older) + W * (W + 1 - h) := by rw [hsplit]; ring
        _ ≤ W * m + W * (W + 1 - h) := Nat.add_le_add_right hbefore _
        _ = W * (m + (W + 1 - h)) := (Nat.mul_add _ _ _).symm
        _ ≤ W * n := Nat.mul_le_mul_left W hadd
    · exact Nat.mul_le_mul (by omega) (hserves.misses_le hle)

/-- Where the later part of a history has as many blocks as there are places, the earlier part is
gone. -/
theorem resident_append_of_le {W : ℕ} (newer older : List (Access α))
    (hcard : W ≤ (blocks newer).toFinset.card) : resident W (newer ++ older) = resident W newer := by
  have hsplit : blocks (newer ++ older) = blocks newer ++ blocks older := List.map_append
  rw [resident, resident, hsplit, recency_append]
  exact List.take_append_of_le_length (hcard.trans_eq (recency_length _).symm)

/-- What the later part of a history leaves in an empty set, it leaves in any. -/
theorem resident_subset_append (W : ℕ) (newer older : List (Access α)) :
    resident W newer ⊆ resident W (newer ++ older) := by
  rcases Nat.le_total W (blocks newer).toFinset.card with hmany | hfew
  · rw [resident_append_of_le newer older hmany]
    exact List.Subset.refl _
  · exact fun b hb => mem_resident_append hfew (mem_blocks_of_mem_resident W newer b hb)

/-- A history served in two parts, the set being emptied in between, has no fewer misses. -/
theorem misses_append_le_add (W : ℕ) (newer older : List (Access α)) :
    misses W (newer ++ older) ≤ misses W newer + misses W older := by
  induction newer with
  | nil => exact Nat.le_add_left _ _
  | cons a newer ih =>
    have hsubset := @resident_subset_append _ _ W newer older a.block
    rw [List.cons_append, misses_cons, misses_cons]
    split_ifs with hwarm hcold hcold
    · omega
    · omega
    · exact absurd (hsubset hcold) hwarm
    · omega

/-- And it has at most so many more as there are places. -/
theorem misses_add_le_append (W : ℕ) (newer older : List (Access α)) :
    misses W newer + misses W older ≤
      misses W (newer ++ older) + min W (blocks newer).toFinset.card := by
  induction newer with
  | nil => exact (Nat.zero_add _).trans_le (Nat.le_add_right _ _)
  | cons a newer ih =>
    have hmono : (blocks newer).toFinset.card ≤ (blocks (a :: newer)).toFinset.card := by
      rw [toFinset_blocks_cons]
      exact Finset.card_le_card (Finset.subset_insert _ _)
    rw [List.cons_append, misses_cons, misses_cons]
    by_cases hcold : a.block ∈ resident W newer
    · have hwarm := resident_subset_append W newer older hcold
      rw [if_pos hcold, if_pos hwarm]
      omega
    · rw [if_neg hcold]
      split_ifs with hwarm
      · have hfew : (blocks newer).toFinset.card < W := by
          by_contra hmany
          rw [resident_append_of_le newer older (Nat.le_of_not_lt hmany)] at hwarm
          exact hcold hwarm
        have hnew : a.block ∉ (blocks newer).toFinset := by
          rw [List.mem_toFinset]
          intro hmem
          have hall : a.block ∈ resident W (newer ++ []) := mem_resident_append hfew.le hmem
          rw [List.append_nil] at hall
          exact hcold hall
        rw [toFinset_blocks_cons, Finset.card_insert_of_notMem hnew]
        omega
      · omega

section SideBySide

variable {ι : Type*} [DecidableEq ι] (idx : α → ι)

/-- Sets with `h` places each that were empty can serve a common history so that they hold these
contents after it and have missed so many times together. -/
inductive ServesSets (h : ℕ) : List (Access α) → (ι → Finset α) → ℕ → Prop where
  | nil : ServesSets h [] (fun _ => ∅) 0
  | cons {past : List (Access α)} {contents : ι → Finset α} {contents' : Finset α} {n : ℕ}
      (a : Access α) (hpast : ServesSets h past contents n) (hblock : a.block ∈ contents')
      (hkept : contents' ⊆ insert a.block (contents (idx a.block))) (hroom : contents'.card ≤ h) :
      ServesSets h (a :: past) (Function.update contents (idx a.block) contents')
        (n + if a.block ∈ contents (idx a.block) then 0 else 1)

/-- One more reference of a common history is a miss if its set does not hold the block. -/
theorem jointMisses_cons (W : ℕ) (past : List (Access α)) (a : Access α) :
    jointMisses idx W (a :: past) =
      jointMisses idx W past +
        if a.block ∈ resident W (restrict idx past (idx a.block)) then 0 else 1 := by
  simp only [jointMisses, jointOutcomes, List.countP_cons, ne_eq, decide_not, kind_eq_hit_iff,
    Bool.not_eq_true', decide_eq_false_iff_not]
  split_ifs <;> rfl

/-- LRU sets serve every common history. -/
theorem servesSets_resident (W : ℕ) (hW : 0 < W) (past : List (Access α)) :
    ServesSets idx W past (fun i => (resident W (restrict idx past i)).toFinset)
      (jointMisses idx W past) := by
  induction past with
  | nil =>
    have hnone : (fun i => (resident W (restrict idx ([] : List (Access α)) i)).toFinset) =
        fun _ => ∅ := by
      funext i
      rw [restrict, List.filter_nil, resident_nil, List.toFinset_nil]
    rw [hnone]
    exact .nil
  | cons a past ih =>
    obtain ⟨hown, hkept, hroom⟩ := resident_cons_served W hW (restrict idx past (idx a.block)) a
    rw [← restrict_cons_self] at hown hkept hroom
    have hserves := ServesSets.cons a ih hown hkept hroom
    have hcontents : Function.update (fun i => (resident W (restrict idx past i)).toFinset)
        (idx a.block) (resident W (restrict idx (a :: past) (idx a.block))).toFinset =
          fun i => (resident W (restrict idx (a :: past) i)).toFinset := by
      funext i
      by_cases hi : i = idx a.block
      · rw [hi, Function.update_self]
      · rw [Function.update_of_ne hi, restrict_cons_of_ne idx past a i (Ne.symm hi)]
    simp only [List.mem_toFinset] at hserves
    rw [hcontents] at hserves
    rw [jointMisses_cons]
    exact hserves

variable {idx}

/-- Each of the sets serves its own part of the common history. -/
theorem ServesSets.exists_counts {h n : ℕ} {past : List (Access α)} {contents : ι → Finset α}
    (hserves : ServesSets idx h past contents n) :
    ∃ counts : ι → ℕ, (∀ i, Serves h (restrict idx past i) (contents i) (counts i)) ∧
      ∀ sets : Finset ι, (∀ a ∈ past, idx a.block ∈ sets) → ∑ i ∈ sets, counts i = n := by
  induction hserves with
  | nil => exact ⟨fun _ => 0, fun _ => .nil, fun sets _ => Finset.sum_const_zero⟩
  | cons a hpast hblock hkept hroom ih =>
    rename_i past contents contents' n
    obtain ⟨counts, hcounts, hsum⟩ := ih
    refine ⟨Function.update counts (idx a.block)
      (counts (idx a.block) + if a.block ∈ contents (idx a.block) then 0 else 1), ?_, ?_⟩
    · intro i
      by_cases hi : i = idx a.block
      · subst hi
        rw [restrict_cons_self, Function.update_self, Function.update_self]
        exact .cons a (hcounts (idx a.block)) hblock hkept hroom
      · rw [restrict_cons_of_ne idx past a i (Ne.symm hi), Function.update_of_ne hi,
          Function.update_of_ne hi]
        exact hcounts i
    · intro sets hsets
      have hmem : idx a.block ∈ sets := hsets a List.mem_cons_self
      rw [Finset.sum_update_of_mem hmem, ← hsum sets fun b hb => hsets b (List.mem_cons_of_mem a hb),
        ← Finset.add_sum_erase sets counts hmem, Finset.sdiff_singleton_eq_erase]
      omega

omit [DecidableEq α] in
/-- The sets that a history goes to. -/
theorem idx_mem_image (past : List (Access α)) :
    ∀ a ∈ past, idx a.block ∈ (past.map fun a => idx a.block).toFinset :=
  fun _ ha => List.mem_toFinset.mpr (List.mem_map_of_mem ha)

/-- LRU sets with `W` places each miss at most `W / (W + 1 - h)` times as often as sets with `h`
places, in whatever way these serve the history. -/
theorem ServesSets.mul_jointMisses_le {W h n : ℕ} (hW : h ≤ W) {past : List (Access α)}
    {contents : ι → Finset α} (hserves : ServesSets idx h past contents n) :
    (W + 1 - h) * jointMisses idx W past ≤ W * n := by
  obtain ⟨counts, hcounts, hsum⟩ := hserves.exists_counts
  rw [jointMisses, countP_jointOutcomes idx W _ _ past (idx_mem_image past),
    ← hsum _ (idx_mem_image past), Finset.mul_sum, Finset.mul_sum]
  exact Finset.sum_le_sum fun i _ => (hcounts i).mul_misses_le hW

/-- However sets serve a common history, they miss each of its blocks. -/
theorem ServesSets.card_blocks_le {h n : ℕ} {past : List (Access α)} {contents : ι → Finset α}
    (hserves : ServesSets idx h past contents n) : (blocks past).toFinset.card ≤ n := by
  have hboth : (∀ i, contents i ⊆ (blocks past).toFinset) ∧ (blocks past).toFinset.card ≤ n := by
    induction hserves with
    | nil => exact ⟨fun i => Finset.empty_subset _, le_rfl⟩
    | cons a hpast hblock hkept hroom ih =>
      rename_i past contents contents' n
      obtain ⟨hheld, hcard⟩ := ih
      rw [toFinset_blocks_cons]
      constructor
      · intro i
        by_cases hi : i = idx a.block
        · subst hi
          rw [Function.update_self]
          exact hkept.trans (Finset.insert_subset_insert _ (hheld _))
        · rw [Function.update_of_ne hi]
          exact (hheld i).trans (Finset.subset_insert _ _)
      · split
        · rename_i hhit
          rw [Finset.insert_eq_self.mpr (hheld _ hhit)]
          exact hcard
        · exact (Finset.card_insert_le _ _).trans (Nat.add_le_add_right hcard 1)
  exact hboth.2

variable (idx)

/-- LRU sets with room for all their blocks miss each block once. -/
theorem jointMisses_le_card {W : ℕ} {past : List (Access α)}
    (hcard : ∀ i, (blocks (restrict idx past i)).toFinset.card ≤ W) :
    jointMisses idx W past ≤ (blocks past).toFinset.card := by
  induction past with
  | nil => exact Nat.le_refl 0
  | cons a past ih =>
    have hfewer : ∀ i, (blocks (restrict idx past i)).toFinset.card ≤ W := by
      intro i
      refine (Finset.card_le_card ?_).trans (hcard i)
      intro b hb
      rw [List.mem_toFinset] at hb ⊢
      obtain ⟨c, hc, rfl⟩ := List.mem_map.mp hb
      exact List.mem_map_of_mem (((List.sublist_cons_self a past).filter _).subset hc)
    have hmisses := ih hfewer
    rw [jointMisses_cons, toFinset_blocks_cons]
    by_cases ha : a.block ∈ blocks past
    · have hown : a.block ∈ blocks (restrict idx past (idx a.block)) := by
        obtain ⟨c, hc, hblock⟩ := List.mem_map.mp ha
        rw [← hblock]
        refine List.mem_map_of_mem (List.mem_filter.mpr ⟨hc, ?_⟩)
        exact decide_eq_true rfl
      have hheld : a.block ∈ resident W (restrict idx past (idx a.block) ++ []) :=
        mem_resident_append (hfewer (idx a.block)) hown
      rw [List.append_nil] at hheld
      rw [if_pos hheld, Finset.insert_eq_self.mpr (List.mem_toFinset.mpr ha)]
      exact hmisses
    · rw [Finset.card_insert_of_notMem fun hmem => ha (List.mem_toFinset.mp hmem)]
      split_ifs <;> omega

/-- A common history served in two parts, the sets being emptied in between, has no fewer misses,
and at most so many more as there are places in all sets. -/
theorem jointMisses_append (W : ℕ) (newer older : List (Access α)) (sets : Finset ι)
    (hsets : ∀ a ∈ newer ++ older, idx a.block ∈ sets) :
    jointMisses idx W (newer ++ older) ≤ jointMisses idx W newer + jointMisses idx W older ∧
      jointMisses idx W newer + jointMisses idx W older ≤
        jointMisses idx W (newer ++ older) + W * sets.card := by
  have hrestrict : ∀ i, restrict idx (newer ++ older) i = restrict idx newer i ++ restrict idx older i :=
    fun i => List.filter_append _ _
  have hnewer : ∀ a ∈ newer, idx a.block ∈ sets := fun a ha => hsets a (List.mem_append_left _ ha)
  have holder : ∀ a ∈ older, idx a.block ∈ sets := fun a ha => hsets a (List.mem_append_right _ ha)
  rw [jointMisses, jointMisses, jointMisses, countP_jointOutcomes idx W _ sets _ hsets,
    countP_jointOutcomes idx W _ sets _ hnewer, countP_jointOutcomes idx W _ sets _ holder,
    ← Finset.sum_add_distrib]
  simp only [hrestrict]
  constructor
  · exact Finset.sum_le_sum fun i _ => misses_append_le_add W _ _
  · have hconst : W * sets.card = ∑ _i ∈ sets, W := by
      rw [Finset.sum_const_nat fun _ _ => rfl, Nat.mul_comm]
    rw [hconst, ← Finset.sum_add_distrib]
    exact Finset.sum_le_sum fun i _ => (misses_add_le_append W _ _).trans
      (Nat.add_le_add_left (Nat.min_le_left _ _) _)

end SideBySide

end Coursework.Recency
