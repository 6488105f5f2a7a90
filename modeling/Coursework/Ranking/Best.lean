import Mathlib.Data.List.Sort

/-!
# The best entries of a list

A ranking keeps only so many of the best entries that it has been given. Nothing is lost by
forgetting the others before the next entry comes.
-/

namespace Coursework.Ranking

variable {α : Type*} (r : α → α → Prop) [DecidableRel r]

/-- The first entries in order. -/
def best (count : ℕ) (entries : List α) : List α := (entries.insertionSort r).take count

/-- As many entries are kept as there are, or as are wanted. -/
theorem length_best (count : ℕ) (entries : List α) :
    (best r count entries).length = min count entries.length := by
  rw [best, List.length_take, List.length_insertionSort]

/-- The first entries after an insertion come from the first entries before it. -/
theorem take_orderedInsert (count : ℕ) (entry : α) (entries : List α) :
    ((entries.take count).orderedInsert r entry).take count =
      (entries.orderedInsert r entry).take count := by
  induction entries generalizing count with
  | nil => rw [List.take_nil]
  | cons first rest ih =>
    cases count with
    | zero => rfl
    | succ count =>
      rw [List.take_succ_cons, List.orderedInsert_cons, List.orderedInsert_cons]
      split
      · have hfirst : (first :: rest.take count).take count = (first :: rest).take count := by
          rw [← List.take_succ_cons, List.take_take, Nat.min_eq_left (Nat.le_succ count)]
        rw [List.take_succ_cons, List.take_succ_cons, hfirst]
      · rw [List.take_succ_cons, List.take_succ_cons, ih]

section Order

variable [Std.Total r] [IsTrans α r]

/-- The best entries are in order. -/
theorem pairwise_best (count : ℕ) (entries : List α) : (best r count entries).Pairwise r :=
  (List.pairwise_insertionSort r entries).sublist (List.take_sublist count _)

/-- The entries that a ranking keeps: in order, as many as there are or as are wanted, and in order with
all the others. -/
structure Leads (count : ℕ) (kept entries : List α) : Prop where
  length : kept.length = min count entries.length
  sorted : kept.Pairwise r
  others : ∃ dropped : List α, List.Perm entries (kept ++ dropped) ∧
    ∀ first ∈ kept, ∀ second ∈ dropped, r first second

/-- The best entries are those that a ranking keeps. -/
theorem leads_best (count : ℕ) (entries : List α) : Leads r count (best r count entries) entries := by
  have hsplit : best r count entries ++ (entries.insertionSort r).drop count =
      entries.insertionSort r := List.take_append_drop count _
  refine ⟨length_best r count entries, pairwise_best r count entries,
    (entries.insertionSort r).drop count, ?_, ?_⟩
  · rw [hsplit]
    exact (List.perm_insertionSort r entries).symm
  · have hsorted := List.pairwise_insertionSort r entries
    rw [← hsplit, List.pairwise_append] at hsorted
    exact hsorted.2.2

/-- The best entries of the best entries are the best entries. -/
theorem best_best (count : ℕ) (entries : List α) :
    best r count (best r count entries) = best r count entries := by
  rw [best, (pairwise_best r count entries).insertionSort_eq, best, List.take_take, Nat.min_self]

variable [Std.Antisymm r]

/-- An entry at the end is inserted. -/
theorem insertionSort_append_singleton (entries : List α) (entry : α) :
    (entries ++ [entry]).insertionSort r = (entries.insertionSort r).orderedInsert r entry := by
  have hperm : List.Perm ((entries ++ [entry]).insertionSort r)
      ((entries.insertionSort r).orderedInsert r entry) :=
    ((List.perm_insertionSort r _).trans (List.perm_append_singleton entry entries)).trans
      (((List.perm_insertionSort r entries).symm.cons entry).trans
        (List.perm_orderedInsert r entry _).symm)
  exact hperm.eq_of_pairwise' (List.pairwise_insertionSort r _)
    ((List.pairwise_insertionSort r entries).orderedInsert entry _)

/-- The best entries of the best entries so far and a new one are those of all entries. -/
theorem best_best_append (count : ℕ) (entries : List α) (entry : α) :
    best r count (best r count entries ++ [entry]) = best r count (entries ++ [entry]) := by
  rw [best, insertionSort_append_singleton, (pairwise_best r count entries).insertionSort_eq, best,
    take_orderedInsert, best, insertionSort_append_singleton]

end Order

end Coursework.Ranking
