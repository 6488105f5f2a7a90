import Coursework.CacheSimulation.Sys2
import Mathlib.Data.List.Nodup

/-!
# The way an access works on

The ways of an index are a run of filled entries followed by empty ones. On such a column
the way loop and the scan for the oldest last use choose the place of the block when it
is present, else the first empty way, else the place with the least last use.
-/

namespace Coursework.CacheSimulation.Sys2

open Coursework.Java

variable {β : Type} [DecidableEq β]

/-- The way loop leaves at the filled entry with the tag. -/
theorem wayLoop_of_mem (entry : β → Target) (tag : String) (filled : List β) (rest : List Target)
    (b : β) (hb : b ∈ filled) (htag : ∀ c ∈ filled, tag = (entry c).tag ↔ c = b)
    (hne : ∀ c ∈ filled, (entry c).tag ≠ "0") (id count : ℕ) :
    wayLoop tag (filled.map entry ++ rest) id count =
      (id + filled.idxOf b, count + filled.idxOf b) := by
  induction filled generalizing id count with
  | nil => exact absurd hb List.not_mem_nil
  | cons c filled ih =>
    by_cases hc : c = b
    · have htagc := (htag c (by simp)).mpr hc
      simp [wayLoop, htagc, hc]
    · have htagc : tag ≠ (entry c).tag := fun h => hc ((htag c (by simp)).mp h)
      have hnec := hne c (by simp)
      have hrest := ih ((List.mem_cons.mp hb).resolve_left fun h => hc h.symm)
        (fun d hd => htag d (List.mem_cons_of_mem c hd))
        (fun d hd => hne d (List.mem_cons_of_mem c hd)) (id + 1) (count + 1)
      simp only [List.map_cons, List.cons_append, wayLoop, if_neg htagc, if_neg hnec, hrest,
        List.idxOf_cons_ne filled hc]
      rw [Nat.add_assoc, Nat.add_assoc, Nat.add_comm 1]

omit [DecidableEq β] in
/-- The way loop passes filled entries with other tags. -/
theorem wayLoop_of_not_mem (entry : β → Target) (tag : String) (filled : List β)
    (rest : List Target) (htag : ∀ c ∈ filled, tag ≠ (entry c).tag)
    (hne : ∀ c ∈ filled, (entry c).tag ≠ "0") (id count : ℕ) :
    wayLoop tag (filled.map entry ++ rest) id count =
      wayLoop tag rest (id + filled.length) (count + filled.length) := by
  induction filled generalizing id count with
  | nil => rfl
  | cons c filled ih =>
    have hrest := ih (fun d hd => htag d (List.mem_cons_of_mem c hd))
      (fun d hd => hne d (List.mem_cons_of_mem c hd)) (id + 1) (count + 1)
    simp only [List.map_cons, List.cons_append, wayLoop, if_neg (htag c (by simp)),
      if_neg (hne c (by simp)), hrest, List.length_cons]
    rw [Nat.add_assoc, Nat.add_assoc, Nat.add_comm 1]

/-- The scan keeps its result when no later entry is older. -/
theorem oldestLoop_of_le (targets : List Target) (i temp : ℕ) (oldestLu : Int32)
    (h : ∀ target ∈ targets, ¬ target.lu < oldestLu) :
    oldestLoop targets i temp oldestLu = temp := by
  induction targets generalizing i with
  | nil => rfl
  | cons target targets ih =>
    rw [oldestLoop, if_neg (h target (by simp))]
    exact ih (i + 1) fun t ht => h t (List.mem_cons_of_mem target ht)

/-- The scan moves to the entry that is older than all others. -/
theorem oldestLoop_of_mem (entry : β → Target) (filled : List β) (v : β) (hv : v ∈ filled)
    (holdest : ∀ c ∈ filled, c ≠ v → (entry v).lu < (entry c).lu) (hnodup : filled.Nodup)
    (i temp : ℕ) (oldestLu : Int32) (h : (entry v).lu < oldestLu) :
    oldestLoop (filled.map entry) i temp oldestLu = i + filled.idxOf v := by
  induction filled generalizing i temp oldestLu with
  | nil => exact absurd hv List.not_mem_nil
  | cons c filled ih =>
    rw [List.nodup_cons] at hnodup
    by_cases hc : c = v
    · subst c
      rw [List.map_cons, oldestLoop, if_pos h, oldestLoop_of_le, List.idxOf_cons_self, Nat.add_zero]
      intro target htarget
      obtain ⟨d, hd, rfl⟩ := List.mem_map.mp htarget
      have hdv : d ≠ v := fun heq => hnodup.1 (heq ▸ hd)
      exact Int32.not_lt.mpr (Int32.le_of_lt (holdest d (List.mem_cons_of_mem v hd) hdv))
    · have hmem := (List.mem_cons.mp hv).resolve_left fun heq => hc heq.symm
      have hrest := ih hmem (fun d hd => holdest d (List.mem_cons_of_mem c hd)) hnodup.2 (i + 1)
      rw [List.map_cons, oldestLoop, List.idxOf_cons_ne filled hc]
      split
      · rw [hrest i _ (holdest c (by simp) hc)]
        omega
      · rw [hrest temp _ h]
        omega

section Column

variable (entry : β → Target) (filled : List β) (free : ℕ)

/-- A column: filled entries, then empty ones. -/
def columnOf : List Target := filled.map entry ++ List.replicate free Target.empty

omit [DecidableEq β] in
/-- `selectWay` on a column with at least one way. -/
theorem selectWay_columnOf (tag : String) (h : 0 < filled.length + free) :
    selectWay tag (columnOf entry filled free) =
      .ok (if (wayLoop tag (columnOf entry filled free) 0 0).2 = filled.length + free then
          oldestLoop (columnOf entry filled free).tail 1 0
            ((columnOf entry filled free).head?.map Target.lu |>.getD 0)
        else (wayLoop tag (columnOf entry filled free) 0 0).1) := by
  have hlen : (columnOf entry filled free).length = filled.length + free := by
    simp [columnOf]
  cases hcol : columnOf entry filled free with
  | nil => rw [hcol] at hlen; simp at hlen; omega
  | cons first rest => rw [hcol] at hlen; simp [selectWay, ← hlen]

/-- A present block keeps its way. -/
theorem selectWay_of_mem (tag : String) (b : β) (hb : b ∈ filled)
    (htag : ∀ c ∈ filled, tag = (entry c).tag ↔ c = b)
    (hne : ∀ c ∈ filled, (entry c).tag ≠ "0") :
    selectWay tag (columnOf entry filled free) = .ok (filled.idxOf b) := by
  have hlt := List.idxOf_lt_length_of_mem hb
  rw [selectWay_columnOf entry filled free tag (by omega), columnOf,
    wayLoop_of_mem entry tag filled _ b hb htag hne, if_neg (by simp; omega), Nat.zero_add]

omit [DecidableEq β] in
/-- A missing block takes the first empty way. -/
theorem selectWay_of_free (tag : String) (htag : ∀ c ∈ filled, tag ≠ (entry c).tag)
    (hne : ∀ c ∈ filled, (entry c).tag ≠ "0") (htag0 : tag ≠ "0") (hfree : 0 < free) :
    selectWay tag (columnOf entry filled free) = .ok filled.length := by
  obtain ⟨m, rfl⟩ := Nat.exists_eq_add_one.mpr hfree
  have hloop : wayLoop tag (columnOf entry filled (m + 1)) 0 0 =
      (filled.length, filled.length) := by
    rw [columnOf, wayLoop_of_not_mem entry tag filled _ htag hne, List.replicate_succ]
    simp [wayLoop, Target.empty, htag0]
  rw [selectWay_columnOf entry filled _ tag (by omega), hloop, if_neg (by simp)]

/-- A missing block takes the way with the least last use when no way is empty. -/
theorem selectWay_of_full (tag : String) (htag : ∀ c ∈ filled, tag ≠ (entry c).tag)
    (hne : ∀ c ∈ filled, (entry c).tag ≠ "0") (v : β) (hv : v ∈ filled)
    (holdest : ∀ c ∈ filled, c ≠ v → (entry v).lu < (entry c).lu) (hnodup : filled.Nodup) :
    selectWay tag (columnOf entry filled 0) = .ok (filled.idxOf v) := by
  have hpos := List.length_pos_of_mem hv
  have hloop : wayLoop tag (columnOf entry filled 0) 0 0 = (0, filled.length) := by
    rw [columnOf, wayLoop_of_not_mem entry tag filled _ htag hne]
    simp [wayLoop]
  rw [selectWay_columnOf entry filled 0 tag (by omega), hloop, if_pos (by simp)]
  cases filled with
  | nil => exact absurd hv List.not_mem_nil
  | cons c filled =>
    rw [List.nodup_cons] at hnodup
    simp only [columnOf, List.map_cons, List.replicate_zero, List.append_nil, List.tail_cons,
      List.head?_cons, Option.map_some, Option.getD_some]
    by_cases hc : c = v
    · subst c
      rw [oldestLoop_of_le, List.idxOf_cons_self]
      intro target htarget
      obtain ⟨d, hd, rfl⟩ := List.mem_map.mp htarget
      have hdv : d ≠ v := fun heq => hnodup.1 (heq ▸ hd)
      exact Int32.not_lt.mpr (Int32.le_of_lt (holdest d (List.mem_cons_of_mem v hd) hdv))
    · rw [oldestLoop_of_mem entry filled v ((List.mem_cons.mp hv).resolve_left fun heq => hc heq.symm)
        (fun d hd => holdest d (List.mem_cons_of_mem c hd)) hnodup.2 1 0 _ (holdest c (by simp) hc),
        List.idxOf_cons_ne filled hc, Nat.add_comm]

end Column

end Coursework.CacheSimulation.Sys2
