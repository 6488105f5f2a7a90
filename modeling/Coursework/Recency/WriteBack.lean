import Coursework.Recency.Inclusion
import Coursework.Recency.Residency

/-!
# Write-backs are ended residencies with a store

Over a sequence of steps, some of which refer to a block of one of several LRU sets, the
modified bit of a block marks the stay of that block in its set. A reference drops at
most one block, so the write-backs are as many as the ended stays with a store.
-/

namespace Coursework.Recency

variable {α ι : Type*} [DecidableEq α] [DecidableEq ι] (idx : α → ι) (W : ℕ)

/-- A block is held by the set it goes to. -/
def Holds (past : List (Access α)) (b : α) : Prop :=
  b ∈ resident W (restrict idx past (idx b))

/-- A block is held and modified. -/
def Modified (past : List (Access α)) (b : α) : Prop :=
  b ∈ dirty W (restrict idx past (idx b))

/-- The block that a reference replaces in its set, if it replaces one. -/
def jointVictim (past : List (Access α)) (b : α) : Option α :=
  victim W (restrict idx past (idx b)) b

/-- A block that is replaced is held, and in the set of the reference. -/
theorem holds_of_jointVictim (past : List (Access α)) (b v : α)
    (h : jointVictim idx W past b = some v) : Holds idx W past v ∧ idx v = idx b := by
  have hmem := mem_resident_of_victim W _ b v h
  have hblock := mem_blocks_of_mem_resident W _ v hmem
  obtain ⟨a, ha, rfl⟩ := List.mem_map.mp hblock
  have hidx : idx a.block = idx b := by simpa using (List.mem_filter.mp ha).2
  refine ⟨?_, hidx⟩
  rw [Holds, hidx]
  exact hmem

/-- A reference brings in its block and drops its victim, and leaves the other sets alone. -/
theorem holds_cons (hW : 0 < W) (past : List (Access α)) (a : Access α) (b : α) :
    Holds idx W (a :: past) b ↔
      b = a.block ∨ (Holds idx W past b ∧ jointVictim idx W past a.block ≠ some b) := by
  by_cases hidx : idx b = idx a.block
  · rw [Holds, Holds, jointVictim, hidx, restrict_cons_self, mem_resident_cons W hW]
  · have hne : b ≠ a.block := fun h => hidx (congrArg idx h)
    have hvictim : jointVictim idx W past a.block ≠ some b := fun h =>
      hidx (holds_of_jointVictim idx W past _ _ h).2
    rw [Holds, restrict_cons_of_ne idx past a _ (Ne.symm hidx), Holds]
    simp [hne, hvictim]

/-- A store modifies its block, and the others stay modified until they are dropped. -/
theorem modified_cons (past : List (Access α)) (a : Access α) (b : α) :
    Modified idx W (a :: past) b ↔
      (a.store = true ∧ b = a.block) ∨
        (Modified idx W past b ∧ jointVictim idx W past a.block ≠ some b) := by
  by_cases hidx : idx b = idx a.block
  · rw [Modified, Modified, jointVictim, hidx, restrict_cons_self, mem_dirty_cons]
  · have hne : b ≠ a.block := fun h => hidx (congrArg idx h)
    have hvictim : jointVictim idx W past a.block ≠ some b := fun h =>
      hidx (holds_of_jointVictim idx W past _ _ h).2
    rw [Modified, restrict_cons_of_ne idx past a _ (Ne.symm hidx), Modified]
    simp [hne, hvictim]

/-- A modified block is held. -/
theorem holds_of_modified (hW : 0 < W) (past : List (Access α)) (b : α)
    (h : Modified idx W past b) : Holds idx W past b :=
  mem_resident_of_mem_dirty W hW _ b h

section Steps

variable (next : ℕ → Option (Access α))

/-- The history before a step, when step `m` makes the reference `next m`, or none. -/
def historyAt : ℕ → List (Access α)
  | 0 => []
  | m + 1 => (next m).toList ++ historyAt m

/-- A step drops a block exactly when its reference replaces the block. -/
theorem dropped_iff (hW : 0 < W) (m : ℕ) (b : α) :
    (Holds idx W (historyAt next m) b ∧ ¬Holds idx W (historyAt next (m + 1)) b) ↔
      ∃ a, next m = some a ∧ jointVictim idx W (historyAt next m) a.block = some b := by
  cases hnext : next m with
  | none => simp [historyAt, hnext]
  | some a =>
    simp only [historyAt, hnext, Option.toList_some, List.singleton_append,
      holds_cons idx W hW, Option.some.injEq, exists_eq_left']
    constructor
    · intro h
      obtain ⟨hheld, hdrop⟩ := h
      by_contra hvictim
      exact hdrop (Or.inr ⟨hheld, hvictim⟩)
    · intro hvictim
      have hheld := (holds_of_jointVictim idx W _ _ _ hvictim).1
      have hne : b ≠ a.block := victim_ne W _ _ _ hvictim
      exact ⟨hheld, by simp [hne, hvictim]⟩

/-- Being modified marks the stay of a block by the stores to it. -/
theorem marking_modified (hW : 0 < W) :
    Marking (fun m => Holds idx W (historyAt next m)) (fun m => Modified idx W (historyAt next m))
      (fun m b => next m = some ⟨b, true⟩) where
  start b := by simp [Holds, historyAt, restrict]
  present_of_marked m b := holds_of_modified idx W hW _ b
  step m b := by
    cases hnext : next m with
    | none =>
      have hheld := holds_of_modified idx W hW (historyAt next m) b
      simpa [historyAt, hnext] using hheld
    | some a =>
      simp only [historyAt, hnext, Option.toList_some, List.singleton_append, modified_cons,
        holds_cons idx W hW, Option.some.injEq]
      have hstore : a = ⟨b, true⟩ ↔ a.store = true ∧ b = a.block := by
        obtain ⟨block, store⟩ := a
        simp [and_comm, eq_comm]
      rw [hstore]
      apply or_congr_right
      constructor
      · intro h
        exact ⟨h.1, Or.inr ⟨holds_of_modified idx W hW _ b h.1, h.2⟩⟩
      · intro h
        obtain ⟨hmod, rfl | hheld⟩ := h
        · have hhit := holds_of_modified idx W hW _ _ hmod
          refine ⟨hmod, ?_⟩
          rw [jointVictim, victim_of_mem W _ _ hhit]
          simp
        · exact ⟨hmod, hheld.2⟩

/-- A reference writes back exactly when its victim is modified. -/
theorem joint_kind_eq_dirty_iff (past : List (Access α)) (b : α) :
    kind W (restrict idx past (idx b)) b = .dirty ↔
      ∃ v, jointVictim idx W past b = some v ∧ Modified idx W past v := by
  rw [kind_eq_dirty_iff]
  apply exists_congr
  intro v
  apply and_congr_right
  intro hv
  rw [Modified, (holds_of_jointVictim idx W past b v hv).2]

/-- The write-backs are as many as the ended stays with a store. -/
theorem encard_endedStays_eq_jointWritebacks (hW : 0 < W) (n : ℕ) :
    (endedStays (fun m => Holds idx W (historyAt next m)) (fun m b => next m = some ⟨b, true⟩)
      n).encard = jointWritebacks idx W (historyAt next n) := by
  have hdirty (m : ℕ) : (∃ b, Modified idx W (historyAt next m) b ∧
      ¬Holds idx W (historyAt next (m + 1)) b) ↔
        ∃ a, next m = some a ∧
          kind W (restrict idx (historyAt next m) (idx a.block)) a.block = .dirty := by
    simp only [joint_kind_eq_dirty_iff]
    constructor
    · intro h
      obtain ⟨b, hmod, hgone⟩ := h
      obtain ⟨a, ha, hv⟩ := (dropped_iff idx W next hW m b).mp
        ⟨holds_of_modified idx W hW _ b hmod, hgone⟩
      exact ⟨a, ha, b, hv, hmod⟩
    · intro h
      obtain ⟨a, ha, v, hv, hmod⟩ := h
      exact ⟨v, hmod, ((dropped_iff idx W next hW m v).mpr ⟨a, ha, hv⟩).2⟩
  apply (marking_modified idx W next hW).encard_endedStays _
    (fun m => jointWritebacks idx W (historyAt next m)) rfl
  · intro m _ hdrop
    obtain ⟨a, ha, hkind⟩ := (hdirty m).mp hdrop
    simp [historyAt, ha, jointWritebacks, jointOutcomes, hkind]
  · intro m _ hkeep
    rw [hdirty] at hkeep
    cases hnext : next m with
    | none => simp [historyAt, hnext]
    | some a =>
      have hkind : kind W (restrict idx (historyAt next m) (idx a.block)) a.block ≠ .dirty :=
        fun hkind => hkeep ⟨a, hnext, hkind⟩
      simp [historyAt, hnext, jointWritebacks, jointOutcomes, hkind]
  · intro m b c hb hbgone hc hcgone
    obtain ⟨a, ha, hv⟩ := (dropped_iff idx W next hW m b).mp
      ⟨holds_of_modified idx W hW _ b hb, hbgone⟩
    obtain ⟨a', ha', hv'⟩ := (dropped_iff idx W next hW m c).mp
      ⟨holds_of_modified idx W hW _ c hc, hcgone⟩
    obtain rfl : a = a' := by simpa [ha] using ha'
    exact Option.some.inj (hv.symm.trans hv')

end Steps

end Coursework.Recency
