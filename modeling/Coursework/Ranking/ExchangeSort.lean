import Mathlib.Data.List.Sort

/-!
# Sorting by exchanges

Each index in turn is compared with all later ones, and entries out of order are exchanged at
once. The pass of an index leaves an entry there that is in order with all that follow.
-/

namespace Coursework.Ranking

variable {α : Type*} (r : α → α → Prop) [DecidableRel r]

/-- Two entries of a list, exchanged if they are out of order. -/
def exchange (entries : List α) (index1 index2 : ℕ) : List α :=
  match entries[index1]?, entries[index2]? with
  | some first, some second =>
    if r first second then entries else (entries.set index1 second).set index2 first
  | _, _ => entries

/-- The pass of an index. -/
def exchangePass (entries : List α) (index1 : ℕ) : List α :=
  (List.range' (index1 + 1) (entries.length - (index1 + 1))).foldl
    (fun entries index2 => exchange r entries index1 index2) entries

/-- The passes of all indices but the last. -/
def exchangeSort (entries : List α) : List α :=
  (List.range' 0 (entries.length - 1)).foldl (exchangePass r) entries

/-- The entry that a pass leaves at its index, and the entries after it. -/
def extract (candidate : α) : List α → α × List α
  | [] => (candidate, [])
  | entry :: rest =>
    if r candidate entry then
      ((extract candidate rest).1, entry :: (extract candidate rest).2)
    else ((extract entry rest).1, candidate :: (extract entry rest).2)

/-- An exchange within a list. -/
theorem exchange_append (front middle rest : List α) (first second : α) :
    exchange r (front ++ first :: (middle ++ second :: rest)) front.length
        (front.length + 1 + middle.length) =
      if r first second then front ++ first :: (middle ++ second :: rest)
      else front ++ second :: (middle ++ first :: rest) := by
  have hindex : front.length + 1 + middle.length = front.length + (middle.length + 1) := by omega
  have hfirst : (front ++ first :: (middle ++ second :: rest))[front.length]? = some first := by
    rw [List.getElem?_append_right (Nat.le_refl _), Nat.sub_self, List.getElem?_cons_zero]
  have hsecond : (front ++ first :: (middle ++ second :: rest))[front.length +
      (middle.length + 1)]? = some second := by
    rw [List.getElem?_append_right (Nat.le_add_right _ _), Nat.add_sub_cancel_left,
      List.getElem?_cons_succ, List.getElem?_append_right (Nat.le_refl _), Nat.sub_self,
      List.getElem?_cons_zero]
  rw [hindex, exchange, hfirst, hsecond]
  refine if_congr Iff.rfl rfl ?_
  rw [List.set_append_right _ _ (Nat.le_refl _), Nat.sub_self, List.set_cons_zero,
    List.set_append_right _ _ (Nat.le_add_right _ _), Nat.add_sub_cancel_left, List.set_cons_succ,
    List.set_append_right _ _ (Nat.le_refl _), Nat.sub_self, List.set_cons_zero]

/-- What is left of a pass. -/
theorem foldl_exchange (front middle rest : List α) (candidate : α) :
    (List.range' (front.length + 1 + middle.length) rest.length).foldl
        (fun entries index2 => exchange r entries front.length index2)
        (front ++ candidate :: (middle ++ rest)) =
      front ++ (extract r candidate rest).1 :: (middle ++ (extract r candidate rest).2) := by
  induction rest generalizing middle candidate with
  | nil => rfl
  | cons entry rest ih =>
    have hnext : front.length + 1 + middle.length + 1 =
        front.length + 1 + (middle ++ [entry]).length := by
      rw [List.length_append, List.length_singleton, Nat.add_assoc]
    have hnext' : front.length + 1 + middle.length + 1 =
        front.length + 1 + (middle ++ [candidate]).length := by
      rw [List.length_append, List.length_singleton, Nat.add_assoc]
    rw [List.length_cons, List.range'_succ, List.foldl_cons, exchange_append, extract]
    split
    · have hpass := ih (middle ++ [entry]) candidate
      rw [← hnext] at hpass
      simp only [List.append_assoc, List.singleton_append] at hpass
      exact hpass
    · have hpass := ih (middle ++ [candidate]) entry
      rw [← hnext'] at hpass
      simp only [List.append_assoc, List.singleton_append] at hpass
      exact hpass

/-- A pass extracts an entry. -/
theorem exchangePass_append (front rest : List α) (candidate : α) :
    exchangePass r (front ++ candidate :: rest) front.length =
      front ++ (extract r candidate rest).1 :: (extract r candidate rest).2 := by
  have hlength : (front ++ candidate :: rest).length - (front.length + 1) = rest.length := by
    rw [List.length_append, List.length_cons]
    omega
  rw [exchangePass, hlength]
  exact foldl_exchange r front [] rest candidate

/-- A list after a number of passes. -/
def passes : ℕ → List α → List α
  | 0, entries => entries
  | _ + 1, [] => []
  | n + 1, candidate :: rest =>
    (extract r candidate rest).1 :: passes n (extract r candidate rest).2

/-- A pass keeps the entries. -/
theorem extract_perm (candidate : α) (rest : List α) :
    List.Perm ((extract r candidate rest).1 :: (extract r candidate rest).2)
      (candidate :: rest) := by
  induction rest generalizing candidate with
  | nil => exact .refl _
  | cons entry rest ih =>
    rw [extract]
    split
    · exact ((List.Perm.swap entry _ _).trans ((ih candidate).cons entry)).trans
        (List.Perm.swap candidate entry rest)
    · exact (List.Perm.swap candidate _ _).trans ((ih entry).cons candidate)

/-- A pass keeps the number of entries. -/
theorem length_extract (candidate : α) (rest : List α) :
    (extract r candidate rest).2.length = rest.length :=
  Nat.succ.inj (extract_perm r candidate rest).length_eq

/-- The passes of the algorithm, one after the other. -/
theorem foldl_exchangePass (front entries : List α) (n : ℕ) (hn : n ≤ entries.length) :
    (List.range' front.length n).foldl (exchangePass r) (front ++ entries) =
      front ++ passes r n entries := by
  induction n generalizing front entries with
  | zero => rfl
  | succ n ih =>
    cases entries with
    | nil => exact absurd hn (Nat.not_succ_le_zero n)
    | cons candidate rest =>
      have hrest : n ≤ (extract r candidate rest).2.length := by
        rw [length_extract]
        exact Nat.le_of_succ_le_succ hn
      have hpasses := ih (front ++ [(extract r candidate rest).1]) (extract r candidate rest).2 hrest
      rw [List.length_append, List.length_singleton, List.append_assoc, List.append_assoc,
        List.singleton_append, List.singleton_append] at hpasses
      rw [List.range'_succ, List.foldl_cons, exchangePass_append, passes]
      exact hpasses

/-- The passes keep the entries. -/
theorem passes_perm (n : ℕ) (entries : List α) : List.Perm (passes r n entries) entries := by
  induction n generalizing entries with
  | zero => exact .refl _
  | succ n ih =>
    cases entries with
    | nil => exact .refl _
    | cons candidate rest => exact ((ih _).cons _).trans (extract_perm r candidate rest)

section Order

variable [Std.Total r] [IsTrans α r]

/-- The extracted entry is in order with the candidate and all other entries. -/
theorem extract_le (candidate : α) (rest : List α) :
    r (extract r candidate rest).1 candidate ∧
      ∀ entry ∈ rest, r (extract r candidate rest).1 entry := by
  induction rest generalizing candidate with
  | nil => exact ⟨refl_of r candidate, nofun⟩
  | cons entry rest ih =>
    rw [extract]
    split
    · rename_i hkeep
      obtain ⟨hcandidate, hrest⟩ := ih candidate
      exact ⟨hcandidate, List.forall_mem_cons.mpr ⟨trans_of r hcandidate hkeep, hrest⟩⟩
    · rename_i hswap
      obtain ⟨hentry, hrest⟩ := ih entry
      have horder : r entry candidate := (total_of r candidate entry).resolve_left hswap
      exact ⟨trans_of r hentry horder, List.forall_mem_cons.mpr ⟨hentry, hrest⟩⟩

/-- Enough passes sort. -/
theorem pairwise_passes (n : ℕ) (entries : List α) (hn : entries.length ≤ n + 1) :
    (passes r n entries).Pairwise r := by
  induction n generalizing entries with
  | zero =>
    cases entries with
    | nil => exact .nil
    | cons candidate rest =>
      obtain rfl := List.eq_nil_of_length_eq_zero (Nat.le_zero.mp (Nat.le_of_succ_le_succ hn))
      exact List.pairwise_singleton r candidate
  | succ n ih =>
    cases entries with
    | nil => exact .nil
    | cons candidate rest =>
      refine List.pairwise_cons.mpr ⟨?_, ih _ ?_⟩
      · intro entry hentry
        have hrest : entry ∈ (extract r candidate rest).2 :=
          (passes_perm r n _).mem_iff.mp hentry
        have hle := extract_le r candidate rest
        rcases List.mem_cons.mp ((extract_perm r candidate rest).mem_iff.mp
          (List.mem_cons_of_mem _ hrest)) with rfl | hmem
        · exact hle.1
        · exact hle.2 entry hmem
      · rw [length_extract]
        exact Nat.le_of_succ_le_succ hn

/-- The algorithm sorts. -/
theorem exchangeSort_eq [Std.Antisymm r] (entries : List α) :
    exchangeSort r entries = entries.insertionSort r := by
  have hpasses : exchangeSort r entries = passes r (entries.length - 1) entries :=
    foldl_exchangePass r [] entries (entries.length - 1) (Nat.sub_le _ _)
  rw [hpasses]
  exact ((passes_perm r _ entries).trans (List.perm_insertionSort r entries).symm).eq_of_pairwise'
    (pairwise_passes r _ entries (by omega)) (List.pairwise_insertionSort r entries)

end Order

end Coursework.Ranking
