import Mathlib.Data.List.Basic

/-!
# Removing entries from a list by index

A loop walks a list by an index that it always increases. Where it removes an entry, the
next entry takes its place and is passed over, so that the loop only comes to all entries
if none but the last one is removed.
-/

namespace Coursework.Transition

variable {α : Type*} (p : α → Bool)

/-- The entries that the loop comes to, if it removes those with a property. -/
def visited : List α → List α
  | [] => []
  | [entry] => [entry]
  | entry :: next :: rest =>
    if p entry then entry :: visited rest else entry :: visited (next :: rest)

/-- After a removal the next entry is passed over. -/
theorem visited_cons (entry : α) (rest : List α) :
    visited p (entry :: rest) = entry :: visited p (if p entry then rest.tail else rest) := by
  cases rest with
  | nil => cases p entry <;> rfl
  | cons next rest =>
    rw [visited]
    split <;> rfl

/-- The loop comes to the entries in their order. -/
theorem visited_sublist (entries : List α) : (visited p entries).Sublist entries := by
  induction entries using visited.induct p with
  | case1 => exact List.Sublist.refl _
  | case2 entry => exact List.Sublist.refl _
  | case3 entry next rest hremoved ih =>
    rw [visited, if_pos hremoved]
    exact (ih.cons next).cons_cons entry
  | case4 entry next rest hkept ih =>
    rw [visited, if_neg hkept]
    exact ih.cons_cons entry

/-- The loop comes to all entries exactly if it removes none but the last one. -/
theorem visited_eq_self_iff (entries : List α) :
    visited p entries = entries ↔ ∀ entry ∈ entries.dropLast, p entry = false := by
  induction entries using visited.induct p with
  | case1 => exact iff_of_true rfl (List.forall_mem_nil _)
  | case2 entry => exact iff_of_true rfl (List.forall_mem_nil _)
  | case3 entry next rest hremoved ih =>
    rw [visited, if_pos hremoved]
    refine iff_of_false (fun heq => ?_) (fun hall => ?_)
    · have hlength := (visited_sublist p rest).length_le
      have hsame := congrArg List.length heq
      simp only [List.length_cons] at hsame
      omega
    · have hentry := hall entry List.mem_cons_self
      rw [hremoved] at hentry
      cases hentry
  | case4 entry next rest hkept ih =>
    rw [visited, if_neg hkept, List.cons_inj_right, ih, List.dropLast_cons_cons,
      List.forall_mem_cons]
    exact (and_iff_right (eq_false_of_ne_true hkept)).symm

/-- The loop removes all entries with the property, and comes to all others, exactly if it removes none
but the last one. -/
theorem filter_visited_eq_iff (entries : List α) :
    ((visited p entries).filter p = entries.filter p ∧
        (visited p entries).filter (!p ·) = entries.filter (!p ·)) ↔
      ∀ entry ∈ entries.dropLast, p entry = false := by
  rw [← visited_eq_self_iff]
  constructor
  · rintro ⟨hremoved, hkept⟩
    apply (visited_sublist p entries).eq_of_length
    rw [List.length_eq_length_filter_add p, hremoved, hkept,
      ← List.length_eq_length_filter_add p]
  · intro heq
    rw [heq]
    exact ⟨rfl, rfl⟩

end Coursework.Transition
