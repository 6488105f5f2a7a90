import Coursework.Recency.History
import Mathlib.Data.List.Perm.Basic

/-!
# A write-back set under least-recently-used replacement

The content of an LRU set with `W` places is a function of the references made to it:
it holds the `W` most recent distinct blocks. This file defines the victim of a
reference, the modified blocks, the places of the blocks and the kind of a reference as
functions of the history alone, and proves how one more reference changes them.

The history lists the references to this set, the most recent first.
-/

namespace Coursework.Recency

variable {α : Type*} [DecidableEq α]

/-- A reference to a block: a load, or a store that modifies the block. -/
structure Access (α : Type*) where
  block : α
  store : Bool
  deriving DecidableEq

/-- The referenced blocks of a history. -/
def blocks (past : List (Access α)) : List α := past.map Access.block

/-- The blocks an LRU set with `W` places holds. -/
def resident (W : ℕ) (past : List (Access α)) : List α := (recency (blocks past)).take W

/-- The block that a reference to `b` replaces, if it replaces one. -/
def victim (W : ℕ) (past : List (Access α)) (b : α) : Option α :=
  if b ∈ resident W past then none else (resident W past)[W - 1]?

/-- The resident blocks that were stored to since they were brought in. -/
def dirty (W : ℕ) : List (Access α) → Finset α
  | [] => ∅
  | a :: past =>
    let kept := match victim W past a.block with
      | some v => (dirty W past).erase v
      | none => dirty W past
    if a.store then insert a.block kept else kept

/-- The blocks in the order of their places: a block keeps its place until it is replaced. -/
def ways (W : ℕ) : List (Access α) → List α
  | [] => []
  | a :: past =>
    if a.block ∈ ways W past then ways W past
    else match victim W past a.block with
      | some v => (ways W past).set ((ways W past).idxOf v) a.block
      | none => ways W past ++ [a.block]

/-- A hit, a miss that writes nothing back, or a miss that replaces a modified block. -/
inductive Kind where
  | hit
  | clean
  | dirty
  deriving DecidableEq, Repr

/-- The kind of a reference to `b`. -/
def kind (W : ℕ) (past : List (Access α)) (b : α) : Kind :=
  if b ∈ resident W past then .hit
  else match victim W past b with
    | some v => if v ∈ dirty W past then .dirty else .clean
    | none => .clean

/-- The direction and kind of every reference, the most recent first. -/
def outcomes (W : ℕ) : List (Access α) → List (Bool × Kind)
  | [] => []
  | a :: past => (a.store, kind W past a.block) :: outcomes W past

/-- An empty history leaves the set empty. -/
@[simp] theorem resident_nil (W : ℕ) : resident W ([] : List (Access α)) = [] := by
  simp [resident, blocks, recency]

/-- No block is held twice. -/
theorem resident_nodup (W : ℕ) (past : List (Access α)) : (resident W past).Nodup :=
  (recency_nodup _).sublist (List.take_sublist _ _)

/-- The set holds as many blocks as were referenced, up to the number of places. -/
theorem resident_length (W : ℕ) (past : List (Access α)) :
    (resident W past).length = min W (blocks past).toFinset.card := by
  rw [resident, List.length_take, recency_length]

/-- A resident block was referenced. -/
theorem mem_blocks_of_mem_resident (W : ℕ) (past : List (Access α)) (b : α)
    (h : b ∈ resident W past) : b ∈ blocks past :=
  (mem_recency _ b).mp (List.mem_of_mem_take h)

/-- A resident block is not a victim of its own reference. -/
theorem victim_of_mem (W : ℕ) (past : List (Access α)) (b : α) (h : b ∈ resident W past) :
    victim W past b = none := by
  rw [victim, if_pos h]

/-- A missing block replaces the last resident block when all places are taken. -/
theorem victim_eq_some_iff (W : ℕ) (hW : 0 < W) (past : List (Access α)) (b v : α) :
    victim W past b = some v ↔
      b ∉ resident W past ∧ ∃ newer, resident W past = newer ++ [v] ∧ newer.length + 1 = W := by
  have hle : (resident W past).length ≤ W := List.length_take_le _ _
  unfold victim
  split
  · next hmem => simp [hmem]
  · next hmem =>
    constructor
    · intro h
      obtain ⟨hlt, hget⟩ := List.getElem?_eq_some_iff.mp h
      refine ⟨hmem, (resident W past).take (W - 1), ?_, ?_⟩
      · have hdrop : (resident W past).drop (W - 1) = [v] := by
          rw [List.drop_eq_getElem_cons hlt, hget, List.drop_of_length_le (by omega)]
        rw [← hdrop, List.take_append_drop]
      · rw [List.length_take]
        omega
    · intro h
      obtain ⟨_, newer, hsplit, hlen⟩ := h
      rw [hsplit, List.getElem?_append_right (by omega)]
      simp [show W - 1 - newer.length = 0 by omega]

/-- A missing block replaces nothing exactly when a place is free. -/
theorem victim_eq_none_iff (W : ℕ) (hW : 0 < W) (past : List (Access α)) (b : α)
    (h : b ∉ resident W past) : victim W past b = none ↔ (resident W past).length < W := by
  rw [victim, if_neg h, List.getElem?_eq_none_iff]
  omega

/-- A victim is resident. -/
theorem mem_resident_of_victim (W : ℕ) (past : List (Access α)) (b v : α)
    (h : victim W past b = some v) : v ∈ resident W past := by
  unfold victim at h
  split at h
  · contradiction
  · exact List.mem_of_getElem? h

/-- A victim differs from the referenced block. -/
theorem victim_ne (W : ℕ) (past : List (Access α)) (b v : α) (h : victim W past b = some v) :
    v ≠ b := by
  rintro rfl
  rw [victim_of_mem W past v (mem_resident_of_victim W past v v h)] at h
  contradiction

/-- The victim stands last in every order that the resident blocks are listed in. -/
theorem victim_last (W : ℕ) (hW : 0 < W) (past : List (Access α)) (b v c : α) (R : α → α → Prop)
    (hsorted : (resident W past).Pairwise R) (h : victim W past b = some v)
    (hc : c ∈ resident W past) (hne : c ≠ v) : R c v := by
  obtain ⟨_, newer, hsplit, _⟩ := (victim_eq_some_iff W hW past b v).mp h
  rw [hsplit] at hsorted hc
  have hnewer : c ∈ newer := by simpa [hne] using hc
  exact (List.pairwise_append.mp hsorted).2.2 c hnewer v (by simp)

/-- After a hit the block leads the others. -/
theorem resident_cons_of_mem (W : ℕ) (past : List (Access α)) (a : Access α)
    (h : a.block ∈ resident W past) :
    resident W (a :: past) = a.block :: (resident W past).erase a.block := by
  cases W with
  | zero => simp [resident] at h
  | succ n =>
    change (a.block :: (recency (blocks past)).erase a.block).take (n + 1) = _
    rw [List.take_succ_cons, take_erase]
    exact congrArg (List.cons a.block) (if_pos h)

/-- After a miss the block leads as many of the others as fit. -/
theorem resident_cons_of_not_mem (n : ℕ) (past : List (Access α)) (a : Access α)
    (h : a.block ∉ resident (n + 1) past) :
    resident (n + 1) (a :: past) = a.block :: (resident (n + 1) past).take n := by
  change (a.block :: (recency (blocks past)).erase a.block).take (n + 1) = _
  rw [List.take_succ_cons, take_erase,
    if_neg (show a.block ∉ (recency (blocks past)).take (n + 1) from h), resident, List.take_take]
  simp

/-- One more reference brings in its block and drops the victim. -/
theorem mem_resident_cons (W : ℕ) (hW : 0 < W) (past : List (Access α)) (a : Access α) (c : α) :
    c ∈ resident W (a :: past) ↔
      c = a.block ∨ (c ∈ resident W past ∧ victim W past a.block ≠ some c) := by
  obtain ⟨n, rfl⟩ := Nat.exists_eq_add_one.mpr hW
  by_cases h : a.block ∈ resident (n + 1) past
  · rw [resident_cons_of_mem _ _ _ h, victim_of_mem _ _ _ h, List.mem_cons]
    by_cases hc : c = a.block
    · simp [hc]
    · simp [hc, List.mem_erase_of_ne hc]
  · rw [resident_cons_of_not_mem _ _ _ h, List.mem_cons]
    cases hv : victim (n + 1) past a.block with
    | none =>
      have hlt := (victim_eq_none_iff _ hW _ _ h).mp hv
      rw [List.take_of_length_le (by omega)]
      simp
    | some v =>
      obtain ⟨_, newer, hsplit, hlen⟩ := (victim_eq_some_iff _ hW _ _ _).mp hv
      have hnodup := resident_nodup (n + 1) past
      rw [hsplit] at hnodup ⊢
      have hvnewer : v ∉ newer := fun hmem =>
        (List.nodup_append.mp hnodup).2.2 v hmem v (by simp) rfl
      rw [List.take_append_of_le_length (by omega), List.take_of_length_le (by omega)]
      by_cases hc : c = v
      · subst c
        simp [hvnewer]
      · simp [hc, Ne.symm hc]

/-- The places hold the resident blocks. -/
theorem ways_perm (W : ℕ) (hW : 0 < W) (past : List (Access α)) :
    (ways W past).Perm (resident W past) := by
  induction past with
  | nil => simp [ways]
  | cons a past ih =>
    unfold ways
    split
    · next hmem =>
      have hres : a.block ∈ resident W past := ih.mem_iff.mp hmem
      rw [resident_cons_of_mem W past a hres]
      exact ih.trans (List.perm_cons_erase hres)
    · next hmem =>
      have hres : a.block ∉ resident W past := fun h => hmem (ih.mem_iff.mpr h)
      obtain ⟨n, rfl⟩ := Nat.exists_eq_add_one.mpr hW
      rw [resident_cons_of_not_mem n past a hres]
      cases hv : victim (n + 1) past a.block with
      | none =>
        have hlt := (victim_eq_none_iff _ hW _ _ hres).mp hv
        rw [List.take_of_length_le (by omega)]
        exact (List.perm_append_singleton a.block _).trans (ih.cons a.block)
      | some v =>
        obtain ⟨_, newer, hsplit, hlen⟩ := (victim_eq_some_iff _ hW _ _ _).mp hv
        have hvmem : v ∈ ways (n + 1) past :=
          ih.mem_iff.mpr (mem_resident_of_victim _ _ _ _ hv)
        have hnewer : (resident (n + 1) past).erase v = newer := by
          have hnodup := resident_nodup (n + 1) past
          rw [hsplit] at hnodup ⊢
          have hvnewer : v ∉ newer := fun h =>
            (List.nodup_append.mp hnodup).2.2 v h v (by simp) rfl
          rw [List.erase_append_right _ hvnewer]
          simp
        have hset := List.set_perm_cons_eraseIdx (List.idxOf_lt_length_of_mem hvmem) a.block
        rw [List.eraseIdx_idxOf_eq_erase] at hset
        refine hset.trans (List.Perm.cons a.block ((ih.erase v).trans ?_))
        rw [hnewer, hsplit, List.take_append_of_le_length (by omega),
          List.take_of_length_le (by omega)]

/-- No block has two places. -/
theorem ways_nodup (W : ℕ) (hW : 0 < W) (past : List (Access α)) : (ways W past).Nodup :=
  (ways_perm W hW past).nodup_iff.mpr (resident_nodup W past)

/-- There are at most `W` taken places. -/
theorem ways_length_le (W : ℕ) (hW : 0 < W) (past : List (Access α)) :
    (ways W past).length ≤ W := by
  rw [(ways_perm W hW past).length_eq]
  exact List.length_take_le _ _

/-- The place that a reference to `b` uses. -/
def place (W : ℕ) (past : List (Access α)) (b : α) : ℕ :=
  if b ∈ ways W past then (ways W past).idxOf b
  else match victim W past b with
    | some v => (ways W past).idxOf v
    | none => (ways W past).length

/-- The used place held the block itself, its victim, or nothing. -/
theorem ways_getElem_place (W : ℕ) (hW : 0 < W) (past : List (Access α)) (b : α) :
    (ways W past)[place W past b]? = if b ∈ resident W past then some b else victim W past b := by
  unfold place
  split
  · next hmem =>
    rw [if_pos ((ways_perm W hW past).mem_iff.mp hmem), List.getElem?_idxOf hmem]
  · next hmem =>
    rw [if_neg fun h => hmem ((ways_perm W hW past).mem_iff.mpr h)]
    cases hv : victim W past b with
    | none => simp
    | some v =>
      have hvmem : v ∈ ways W past :=
        (ways_perm W hW past).mem_iff.mpr (mem_resident_of_victim W past b v hv)
      simp only [List.getElem?_idxOf hvmem]

/-- The used place is one of the `W` places. -/
theorem place_lt (W : ℕ) (hW : 0 < W) (past : List (Access α)) (b : α) : place W past b < W := by
  have hperm := ways_perm W hW past
  have hle := ways_length_le W hW past
  unfold place
  split
  · next hmem => exact (List.idxOf_lt_length_of_mem hmem).trans_le hle
  · next hmem =>
    have hres : b ∉ resident W past := fun h => hmem (hperm.mem_iff.mpr h)
    cases hv : victim W past b with
    | none =>
      have hlt := (victim_eq_none_iff W hW past b hres).mp hv
      rw [← hperm.length_eq] at hlt
      exact hlt
    | some v =>
      have hvmem : v ∈ ways W past := hperm.mem_iff.mpr (mem_resident_of_victim W past b v hv)
      exact (List.idxOf_lt_length_of_mem hvmem).trans_le hle

/-- The places after one more reference. -/
theorem ways_cons (W : ℕ) (past : List (Access α)) (a : Access α) :
    ways W (a :: past) =
      if a.block ∈ ways W past then ways W past
      else match victim W past a.block with
        | some v => (ways W past).set ((ways W past).idxOf v) a.block
        | none => ways W past ++ [a.block] := rfl

/-- One more reference puts its block at the used place and leaves the other places alone. -/
theorem ways_cons_getElem (W : ℕ) (hW : 0 < W) (past : List (Access α)) (a : Access α) (i : ℕ) :
    (ways W (a :: past))[i]? =
      if i = place W past a.block then some a.block else (ways W past)[i]? := by
  rw [ways_cons, place]
  split
  · next hmem =>
    split
    · next hi => rw [hi, List.getElem?_idxOf hmem]
    · rfl
  · cases hv : victim W past a.block with
    | none =>
      simp only
      split
      · next hi => rw [hi, List.getElem?_concat_length]
      · next hi =>
        by_cases hlt : i < (ways W past).length
        · rw [List.getElem?_append_left hlt]
        · rw [List.getElem?_eq_none_iff.mpr (by simp; omega),
            List.getElem?_eq_none_iff.mpr (by omega)]
    | some v =>
      have hvmem : v ∈ ways W past :=
        (ways_perm W hW past).mem_iff.mpr (mem_resident_of_victim W past a.block v hv)
      simp only
      split
      · next hi => rw [hi, List.getElem?_set_self (List.idxOf_lt_length_of_mem hvmem)]
      · next hi => rw [List.getElem?_set_ne (Ne.symm hi)]

/-- A block with a place was referenced. -/
theorem mem_blocks_of_mem_ways (W : ℕ) (hW : 0 < W) (past : List (Access α)) (b : α)
    (h : b ∈ ways W past) : b ∈ blocks past :=
  mem_blocks_of_mem_resident W past b ((ways_perm W hW past).mem_iff.mp h)

/-- The modified blocks after one more reference. -/
theorem mem_dirty_cons (W : ℕ) (past : List (Access α)) (a : Access α) (c : α) :
    c ∈ dirty W (a :: past) ↔
      (a.store = true ∧ c = a.block) ∨ (c ∈ dirty W past ∧ victim W past a.block ≠ some c) := by
  have hkept : c ∈ (match victim W past a.block with
      | some v => (dirty W past).erase v
      | none => dirty W past) ↔ c ∈ dirty W past ∧ victim W past a.block ≠ some c := by
    cases victim W past a.block with
    | none => simp
    | some v =>
      rw [Finset.mem_erase, and_comm]
      simp [eq_comm]
  simp only [dirty]
  split
  · next hstore => rw [Finset.mem_insert, hkept]; simp [hstore]
  · next hstore => rw [hkept]; simp [hstore]

/-- Only resident blocks are modified. -/
theorem mem_resident_of_mem_dirty (W : ℕ) (hW : 0 < W) (past : List (Access α)) (b : α)
    (h : b ∈ dirty W past) : b ∈ resident W past := by
  induction past with
  | nil => simp [dirty] at h
  | cons a past ih =>
    rw [mem_resident_cons W hW]
    rcases (mem_dirty_cons W past a b).mp h with ⟨_, hb⟩ | ⟨hb, hvictim⟩
    · exact Or.inl hb
    · exact Or.inr ⟨ih hb, hvictim⟩

/-- A reference writes back exactly when it replaces a modified block. -/
theorem kind_eq_dirty_iff (W : ℕ) (past : List (Access α)) (b : α) :
    kind W past b = .dirty ↔ ∃ v, victim W past b = some v ∧ v ∈ dirty W past := by
  unfold kind
  split
  · next hmem => simp [victim_of_mem W past b hmem]
  · cases victim W past b with
    | none => simp
    | some v => by_cases hv : v ∈ dirty W past <;> simp [hv]

/-- A reference hits exactly when its block is resident. -/
theorem kind_eq_hit_iff (W : ℕ) (past : List (Access α)) (b : α) :
    kind W past b = .hit ↔ b ∈ resident W past := by
  unfold kind
  split
  · next hmem => simp [hmem]
  · next hmem =>
    cases victim W past b with
    | none => simp [hmem]
    | some v => by_cases hv : v ∈ dirty W past <;> simp [hv, hmem]

end Coursework.Recency
