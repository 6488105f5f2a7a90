import Mathlib.Data.List.Dedup
import Mathlib.Data.Finset.Card

/-!
# Recency order of a reference history

A history lists the referenced items, the most recent first. Its recency list keeps the
latest reference to every item, so an item stands behind exactly the distinct items
referenced after it. Restricting a history to some items restricts its recency list.
-/

namespace Coursework.Recency

variable {α : Type*} [DecidableEq α]

/-- The distinct items of a history, the most recently referenced first. -/
def recency : List α → List α
  | [] => []
  | a :: past => a :: (recency past).erase a

/-- The number of references before the latest one to an item. -/
def lastUse : List α → α → ℕ
  | [], _ => 0
  | a :: past, b => if b = a then past.length else lastUse past b

/-- No item is listed twice. -/
theorem recency_nodup (past : List α) : (recency past).Nodup := by
  induction past with
  | nil => exact List.nodup_nil
  | cons a past ih =>
    rw [recency, List.nodup_cons]
    exact ⟨ih.not_mem_erase, ih.erase a⟩

/-- The recency list holds the items of the history. -/
@[simp] theorem mem_recency (past : List α) (b : α) : b ∈ recency past ↔ b ∈ past := by
  induction past with
  | nil => rfl
  | cons a past ih =>
    rw [recency, List.mem_cons, List.mem_cons]
    by_cases hb : b = a
    · simp [hb]
    · rw [List.mem_erase_of_ne hb, ih]

/-- The length of the recency list is the number of distinct items. -/
theorem recency_length (past : List α) : (recency past).length = past.toFinset.card := by
  rw [← List.toFinset_card_of_nodup (recency_nodup past)]
  congr 1
  ext b
  simp

/-- Restricting a history commutes with ordering it by recency. -/
theorem recency_filter (keep : α → Bool) (past : List α) :
    recency (past.filter keep) = (recency past).filter keep := by
  induction past with
  | nil => rfl
  | cons a past ih =>
    by_cases ha : keep a
    · rw [List.filter_cons_of_pos ha, recency, recency, List.filter_cons_of_pos ha, ih,
        List.erase_filter]
    · rw [List.filter_cons_of_neg ha, recency, List.filter_cons_of_neg ha, ih]
      have herase : ((recency past).filter keep).erase a = (recency past).filter keep :=
        List.erase_of_not_mem (by simp [ha])
      rw [← herase, List.erase_filter]

/-- An earlier part of a history contributes the items that the later part does not reference. -/
theorem recency_append (newer older : List α) :
    recency (newer ++ older) = recency newer ++ (recency older).filter (· ∉ newer) := by
  induction newer with
  | nil => simp [recency]
  | cons a newer ih =>
    rw [List.cons_append, recency, recency, ih, List.cons_append]
    congr 1
    by_cases ha : a ∈ newer
    · rw [List.erase_append_left _ ((mem_recency newer a).mpr ha)]
      congr 1
      apply List.filter_congr
      intro b _
      by_cases hb : b = a <;> simp [hb, ha]
    · have hnot : a ∉ recency newer := by simpa using ha
      rw [List.erase_append_right _ hnot, List.erase_of_not_mem hnot,
        ((recency_nodup older).filter _).erase_eq_filter, List.filter_filter]
      congr 1
      apply List.filter_congr
      intro b _
      by_cases hb : b = a <;> simp [hb]

omit [DecidableEq α] in
/-- In a list without repetitions an item is among the first `n` when fewer stand before it. -/
theorem mem_take_append_cons (before after : List α) (b : α) (n : ℕ)
    (hnodup : (before ++ b :: after).Nodup) :
    b ∈ (before ++ b :: after).take n ↔ before.length < n := by
  rw [List.nodup_append, List.nodup_cons] at hnodup
  have hbefore : b ∉ before := fun h => hnodup.2.2 b h b (by simp) rfl
  rw [List.take_append, List.mem_append]
  constructor
  · intro h
    rcases h with h | h
    · exact absurd (List.mem_of_mem_take h) hbefore
    · by_contra hlt
      rw [Nat.sub_eq_zero_of_le (by omega), List.take_zero] at h
      exact List.not_mem_nil h
  · intro hlt
    right
    obtain ⟨m, hm⟩ := Nat.exists_eq_succ_of_ne_zero (Nat.sub_ne_zero_of_lt hlt)
    rw [hm, Nat.succ_eq_add_one, List.take_succ_cons]
    exact List.mem_cons_self

/-- An item is among the `n` most recent ones when fewer distinct items were referenced after its
latest reference. -/
theorem mem_take_recency_append_cons (newer older : List α) (b : α) (n : ℕ) (hb : b ∉ newer) :
    b ∈ (recency (newer ++ b :: older)).take n ↔ newer.toFinset.card < n := by
  have hsplit : ∃ after, recency (newer ++ b :: older) = recency newer ++ b :: after := by
    rw [recency_append, recency, List.filter_cons_of_pos (by simpa using hb)]
    exact ⟨_, rfl⟩
  obtain ⟨after, hafter⟩ := hsplit
  rw [hafter, mem_take_append_cons _ _ _ _ (hafter ▸ recency_nodup _), recency_length]

/-- Removing an item from a list and shortening it: inside the part that is kept the item frees a
place, and otherwise its removal is not seen. -/
theorem take_erase (items : List α) (a : α) (n : ℕ) :
    (items.erase a).take n =
      if a ∈ items.take (n + 1) then (items.take (n + 1)).erase a else items.take n := by
  induction items generalizing n with
  | nil => simp
  | cons b rest ih =>
    by_cases hb : b = a
    · simp [hb]
    · have hab : a ≠ b := fun h => hb h.symm
      rw [List.erase_cons_tail (by simpa using hb)]
      cases n with
      | zero => simp [hab]
      | succ n =>
        simp only [List.take_succ_cons, List.mem_cons, hab, false_or, ih n]
        split
        · rw [List.erase_cons_tail (by simpa using hb)]
        · rfl

/-- The latest reference to an item of the history is inside the history. -/
theorem lastUse_lt_length (past : List α) (b : α) (hb : b ∈ past) :
    lastUse past b < past.length := by
  induction past with
  | nil => exact absurd hb List.not_mem_nil
  | cons a past ih =>
    by_cases h : b = a
    · simp [lastUse, h]
    · have hp := ih ((List.mem_cons.mp hb).resolve_left h)
      rw [lastUse, if_neg h, List.length_cons]
      omega

/-- The recency list is ordered by decreasing latest reference. -/
theorem recency_pairwise (past : List α) :
    (recency past).Pairwise (fun b c => lastUse past c < lastUse past b) := by
  induction past with
  | nil => exact List.Pairwise.nil
  | cons a past ih =>
    have hne : ∀ b ∈ (recency past).erase a, b ≠ a := by
      intro b hb hba
      subst b
      exact (recency_nodup past).not_mem_erase hb
    rw [recency, List.pairwise_cons]
    constructor
    · intro b hb
      have hpast : b ∈ past := (mem_recency past b).mp (List.mem_of_mem_erase hb)
      rw [lastUse, lastUse, if_neg (hne b hb), if_pos rfl]
      exact lastUse_lt_length past b hpast
    · apply (ih.sublist List.erase_sublist).imp_of_mem
      intro b c hb hc h
      rw [lastUse, lastUse, if_neg (hne b hb), if_neg (hne c hc)]
      exact h

end Coursework.Recency
