import Mathlib.Data.Set.Card

/-!
# Residencies

Something is brought in by a step, stays for a while, and is dropped by a later step. A
mark that is set by some of the steps in between, and forgotten when the thing leaves,
tells whether the current stay had such a step. When a step drops at most one thing,
counting the steps that drop a marked one counts the finished stays that were marked.
-/

namespace Coursework.Recency

variable {α : Type*}

/-- What was brought in by step `j` is present from then on, up to the start of step `i`. -/
structure Stay (present : ℕ → α → Prop) (b : α) (j i : ℕ) : Prop where
  order : j < i
  absent : ¬present j b
  kept : ∀ m, j < m → m ≤ i → present m b

/-- A stay that had a step of some kind. -/
def StayWith (present setting : ℕ → α → Prop) (b : α) (j i : ℕ) : Prop :=
  Stay present b j i ∧ ∃ m, j ≤ m ∧ m < i ∧ setting m b

/-- What is present was brought in by some step. -/
theorem exists_stay (present : ℕ → α → Prop) (hstart : ∀ b, ¬present 0 b) (b : α) (i : ℕ)
    (h : present i b) : ∃ j, Stay present b j i := by
  induction i with
  | zero => exact absurd h (hstart b)
  | succ i ih =>
    by_cases hi : present i b
    · obtain ⟨j, hj⟩ := ih hi
      refine ⟨j, hj.order.trans i.lt_succ_self, hj.absent, ?_⟩
      intro m hlt hle
      by_cases hm : m = i + 1
      · exact hm ▸ h
      · exact hj.kept m hlt (by omega)
    · refine ⟨i, i.lt_succ_self, hi, ?_⟩
      intro m hlt hle
      rwa [show m = i + 1 by omega]

/-- A stay began at one step only. -/
theorem Stay.unique {present : ℕ → α → Prop} {b : α} {j j' i : ℕ} (h : Stay present b j i)
    (h' : Stay present b j' i) : j = j' := by
  rcases lt_trichotomy j j' with hlt | heq | hgt
  · exact absurd (h.kept j' hlt h'.order.le) h'.absent
  · exact heq
  · exact absurd (h'.kept j hgt h.order.le) h.absent

section Marks

variable (present marked setting : ℕ → α → Prop)

/-- A mark is set by some steps, and otherwise kept as long as its bearer is present. -/
structure Marking : Prop where
  start : ∀ b, ¬present 0 b
  present_of_marked : ∀ m b, marked m b → present m b
  step : ∀ m b, marked (m + 1) b ↔ setting m b ∨ (marked m b ∧ present (m + 1) b)

variable {present marked setting}

/-- A mark tells that the current stay had a setting step. -/
theorem Marking.marked_iff (h : Marking present marked setting) (b : α) (i : ℕ) :
    marked i b ↔ ∃ j, StayWith present setting b j i := by
  induction i with
  | zero =>
    constructor
    · intro hmarked
      exact absurd (h.present_of_marked 0 b hmarked) (h.start b)
    · intro hstay
      obtain ⟨j, hj, _⟩ := hstay
      exact absurd hj.order j.not_lt_zero
  | succ i ih =>
    constructor
    · intro hmarked
      obtain ⟨j, hj⟩ := exists_stay present h.start b (i + 1) (h.present_of_marked _ b hmarked)
      rcases (h.step i b).mp hmarked with hset | ⟨hold, _⟩
      · exact ⟨j, hj, i, by have := hj.order; omega, i.lt_succ_self, hset⟩
      · obtain ⟨j', hj', m, hle, hlt, hset⟩ := ih.mp hold
        have hlonger : Stay present b j' (i + 1) := by
          refine ⟨hj'.order.trans i.lt_succ_self, hj'.absent, ?_⟩
          intro n hn hn'
          by_cases heq : n = i + 1
          · exact heq ▸ hj.kept (i + 1) hj.order le_rfl
          · exact hj'.kept n hn (by omega)
        exact ⟨j', hlonger, m, hle, by omega, hset⟩
    · intro hstay
      obtain ⟨j, hj, m, hle, hlt, hset⟩ := hstay
      apply (h.step i b).mpr
      by_cases hm : m = i
      · exact Or.inl (hm ▸ hset)
      · refine Or.inr ⟨ih.mpr ⟨j, ⟨by omega, hj.absent, ?_⟩, m, hle, by omega, hset⟩, ?_⟩
        · exact fun n hn hn' => hj.kept n hn (by omega)
        · exact hj.kept (i + 1) hj.order le_rfl

variable (present setting) in
/-- The stays with a setting step that ended during the first `n` steps. -/
def endedStays (n : ℕ) : Set (α × ℕ × ℕ) :=
  {stay | stay.2.2 < n ∧ StayWith present setting stay.1 stay.2.1 stay.2.2 ∧
    ¬present (stay.2.2 + 1) stay.1}

/-- A step that drops a marked thing ends one more marked stay, and any other step ends none. -/
theorem Marking.encard_endedStays_succ (h : Marking present marked setting)
    (hone : ∀ m b c, marked m b → ¬present (m + 1) b → marked m c → ¬present (m + 1) c → b = c)
    (n : ℕ) [Decidable (∃ b, marked n b ∧ ¬present (n + 1) b)] :
    (endedStays present setting (n + 1)).encard = (endedStays present setting n).encard +
      if ∃ b, marked n b ∧ ¬present (n + 1) b then 1 else 0 := by
  have hsplit (stay : α × ℕ × ℕ) : stay ∈ endedStays present setting (n + 1) ↔
      stay ∈ endedStays present setting n ∨
        (stay.2.2 = n ∧ StayWith present setting stay.1 stay.2.1 stay.2.2 ∧
          ¬present (stay.2.2 + 1) stay.1) := by
    simp only [endedStays, Set.mem_ofPred_eq, Nat.lt_succ_iff_lt_or_eq]
    tauto
  by_cases hdrop : ∃ b, marked n b ∧ ¬present (n + 1) b
  · obtain ⟨b, hmarked, hgone⟩ := hdrop
    obtain ⟨j, hj⟩ := (h.marked_iff b n).mp hmarked
    have hinsert : endedStays present setting (n + 1) =
        insert (b, j, n) (endedStays present setting n) := by
      ext stay
      rw [hsplit, Set.mem_insert_iff, or_comm]
      apply or_congr_left
      obtain ⟨c, j', i⟩ := stay
      constructor
      · intro hstay
        obtain ⟨rfl, hstay, hleft⟩ := hstay
        have hc := (h.marked_iff c i).mpr ⟨j', hstay⟩
        obtain rfl := hone i b c hmarked hgone hc hleft
        rw [hj.1.unique hstay.1]
      · intro heq
        obtain ⟨rfl, rfl, rfl⟩ := by simpa using heq
        exact ⟨rfl, hj, hgone⟩
    have hfresh : (b, j, n) ∉ endedStays present setting n := fun hmem => lt_irrefl n hmem.1
    rw [hinsert, Set.encard_insert_of_notMem hfresh, if_pos ⟨b, hmarked, hgone⟩]
  · have hsame : endedStays present setting (n + 1) = endedStays present setting n := by
      ext stay
      rw [hsplit, or_iff_left]
      intro hstay
      obtain ⟨rfl, hstay, hleft⟩ := hstay
      exact hdrop ⟨stay.1, (h.marked_iff _ _).mpr ⟨_, hstay⟩, hleft⟩
    rw [hsame, if_neg hdrop, add_zero]

/-- Counting the steps that drop a marked thing counts the ended stays with a setting step. -/
theorem Marking.encard_endedStays (h : Marking present marked setting)
    (hone : ∀ m b c, marked m b → ¬present (m + 1) b → marked m c → ¬present (m + 1) c → b = c)
    (count : ℕ → ℕ) (hzero : count 0 = 0) (n : ℕ)
    (hdrop : ∀ m < n, (∃ b, marked m b ∧ ¬present (m + 1) b) → count (m + 1) = count m + 1)
    (hkeep : ∀ m < n, ¬(∃ b, marked m b ∧ ¬present (m + 1) b) → count (m + 1) = count m) :
    (endedStays present setting n).encard = count n := by
  classical
  induction n with
  | zero =>
    have hempty : endedStays present setting 0 = ∅ := by
      ext stay
      simp [endedStays]
    rw [hempty, Set.encard_empty, hzero]
    rfl
  | succ n ih =>
    rw [h.encard_endedStays_succ hone, ih (fun m hm => hdrop m (by omega))
      (fun m hm => hkeep m (by omega))]
    by_cases hn : ∃ b, marked n b ∧ ¬present (n + 1) b
    · rw [if_pos hn, hdrop n n.lt_succ_self hn, Nat.cast_add, Nat.cast_one]
    · rw [if_neg hn, hkeep n n.lt_succ_self hn, add_zero]

end Marks

end Coursework.Recency
