import Mathlib.Order.Bounds.Basic
import Mathlib.Order.MinMax

/-!
# Running maxima

A loop over the entries of a list keeps the largest entry so far. What it starts from counts
as one more entry, so that two loops with different starts agree if the starts are below
the entries.
-/

namespace Coursework.Ranking

variable {α : Type*} [LinearOrder α]

/-- The running maximum is the largest of the start and the entries. -/
theorem isGreatest_foldl_max (start : α) (entries : List α) :
    IsGreatest {a | a = start ∨ a ∈ entries} (entries.foldl max start) := by
  induction entries generalizing start with
  | nil => exact ⟨Or.inl rfl, fun a ha => (ha.resolve_right List.not_mem_nil).le⟩
  | cons entry rest ih =>
    obtain ⟨hmem, hupper⟩ := ih (max start entry)
    have hmax : max start entry ≤ rest.foldl max (max start entry) := hupper (Or.inl rfl)
    refine ⟨?_, ?_⟩
    · rcases hmem with hstart | hrest
      · rcases max_choice start entry with hleft | hright
        · exact Or.inl (hstart.trans hleft)
        · exact Or.inr (List.mem_cons.mpr (Or.inl (hstart.trans hright)))
      · exact Or.inr (List.mem_cons_of_mem entry hrest)
    · rintro a (rfl | ha)
      · exact (le_max_left a entry).trans hmax
      · rcases List.mem_cons.mp ha with rfl | ha
        · exact (le_max_right start a).trans hmax
        · exact hupper (Or.inr ha)

/-- From one of the entries, the running maximum is the largest entry. -/
theorem isGreatest_foldl_max_of_mem {first : α} {entries : List α} (hfirst : first ∈ entries) :
    IsGreatest {a | a ∈ entries} (entries.foldl max first) := by
  obtain ⟨hmem, hupper⟩ := isGreatest_foldl_max first entries
  refine ⟨?_, fun a ha => hupper (Or.inr ha)⟩
  rcases hmem with hstart | hentries
  · change _ ∈ entries
    rw [hstart]
    exact hfirst
  · exact hentries

/-- From any start, the running maximum is the largest entry exactly if the start is not above all
entries. -/
theorem isGreatest_foldl_max_iff (start : α) (entries : List α) :
    IsGreatest {a | a ∈ entries} (entries.foldl max start) ↔ ∃ entry ∈ entries, start ≤ entry := by
  obtain ⟨hmem, hupper⟩ := isGreatest_foldl_max start entries
  constructor
  · rintro ⟨hentries, -⟩
    exact ⟨_, hentries, hupper (Or.inl rfl)⟩
  · rintro ⟨entry, hentry, hstart⟩
    refine ⟨?_, fun a ha => hupper (Or.inr ha)⟩
    rcases hmem with heq | hentries
    · have hle : entry ≤ entries.foldl max start := hupper (Or.inr hentry)
      have hentryEq : entries.foldl max start = entry :=
        le_antisymm (heq.le.trans hstart) hle
      exact hentryEq ▸ hentry
    · exact hentries

end Coursework.Ranking
