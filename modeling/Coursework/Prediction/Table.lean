import Mathlib.Data.List.Basic
import Mathlib.Data.List.Induction

/-!
# Tables indexed by a key of their events

A table whose entries are updated one at a time, each by the events of its own key, is a
function of the event history: an entry is the fold of the events of its key, and the
latest event of a kind is the last one the filter keeps. Two tables over one history
are related when the key of one determines the key of the other.
-/

namespace Coursework.Prediction

variable {α ι σ : Type*} [DecidableEq ι]

/-- The entry at an index: the events of its key, folded in order. -/
def entry (key : α → ι) (update : σ → α → σ) (init : σ) (events : List α) (i : ι) : σ :=
  (events.filter (fun a => key a = i)).foldl update init

/-- An event updates the entry of its key and no other. -/
theorem entry_append_singleton (key : α → ι) (update : σ → α → σ) (init : σ) (events : List α)
    (a : α) (i : ι) :
    entry key update init (events ++ [a]) i =
      if key a = i then update (entry key update init events i) a
      else entry key update init events i := by
  by_cases h : key a = i <;> simp [entry, h]

/-- What the initial value has and every update keeps, all entries have. -/
theorem entry_induction (key : α → ι) (update : σ → α → σ) (init : σ) (P : σ → Prop)
    (hinit : P init) (hupdate : ∀ s a, P s → P (update s a)) (events : List α) (i : ι) :
    P (entry key update init events i) := by
  induction events using List.reverseRecOn with
  | nil => exact hinit
  | append_singleton events a ih =>
    rw [entry_append_singleton]
    by_cases h : key a = i
    · rw [if_pos h]
      exact hupdate _ a ih
    · rw [if_neg h]
      exact ih

/-- The latest event of a key that is of some kind. -/
def latest (key : α → ι) (kind : α → Bool) (events : List α) (i : ι) : Option α :=
  (events.filter (fun a => kind a ∧ key a = i)).getLast?

/-- An event of the kind becomes the latest one of its key. -/
theorem latest_append_singleton (key : α → ι) (kind : α → Bool) (events : List α) (a : α)
    (i : ι) :
    latest key kind (events ++ [a]) i =
      if kind a ∧ key a = i then some a else latest key kind events i := by
  by_cases h : kind a ∧ key a = i
  · simp [latest, h]
  · rw [if_neg h, latest, List.filter_append, List.filter_singleton]
    simp [latest, h]

/-- The latest event of a key is of the kind, and has the key. -/
theorem latest_eq_some (key : α → ι) (kind : α → Bool) (events : List α) (i : ι) (a : α)
    (h : latest key kind events i = some a) : a ∈ events ∧ kind a = true ∧ key a = i := by
  have hmem := List.mem_filter.mp (List.mem_of_getLast? h)
  simpa using hmem

/-- There is a latest event of a coarser key when some event of the kind has the finer key. -/
theorem latest_ne_none (key : α → ι) (kind : α → Bool) (events : List α) (a : α)
    (ha : a ∈ events) (hkind : kind a = true) : latest key kind events (key a) ≠ none := by
  rw [latest, Ne, List.getLast?_eq_none_iff, List.filter_eq_nil_iff]
  intro h
  exact h a ha (by simp [hkind])

/-- The latest event of a coarser key is the latest one of the finer key that it has. -/
theorem latest_of_coarser {κ : Type*} [DecidableEq κ] (coarse : α → κ) (fine : α → ι)
    (kind : α → Bool) (hkeys : ∀ a b, fine a = fine b → coarse a = coarse b) (events : List α)
    {a b : α} (hlatest : latest coarse kind events (coarse b) = some a) (hsame : fine a = fine b) :
    latest fine kind events (fine b) = some a := by
  induction events using List.reverseRecOn with
  | nil => cases hlatest
  | append_singleton events e ih =>
    rw [latest_append_singleton] at hlatest ⊢
    by_cases he : kind e ∧ coarse e = coarse b
    · rw [if_pos he] at hlatest
      obtain rfl := Option.some.inj hlatest
      rw [if_pos ⟨he.1, hsame⟩]
    · rw [if_neg he] at hlatest
      rw [if_neg fun hfine => he ⟨hfine.1, hkeys _ _ hfine.2⟩]
      exact ih hlatest

/-- A counter that saturates at 0 and 3. -/
def saturate (c : ℕ) (up : Bool) : ℕ := if up then min 3 (c + 1) else c - 1

/-- A saturating counter that started at 1 and has reached 2 has counted up. -/
theorem exists_up_of_entry_saturate (key : α → ι) (up : α → Bool) (events : List α) (i : ι)
    (h : 2 ≤ entry key (fun c a => saturate c (up a)) 1 events i) :
    ∃ a ∈ events, key a = i ∧ up a = true := by
  induction events using List.reverseRecOn with
  | nil => simp [entry] at h
  | append_singleton events a ih =>
    rw [entry_append_singleton] at h
    by_cases hup : key a = i ∧ up a = true
    · exact ⟨a, by simp, hup⟩
    · have hbefore : 2 ≤ entry key (fun c a => saturate c (up a)) 1 events i := by
        by_cases hkey : key a = i
        · have hdown : up a = false := by simpa [hkey] using hup
          rw [if_pos hkey, hdown, saturate] at h
          simp at h
          omega
        · rwa [if_neg hkey] at h
      obtain ⟨b, hb, hbup⟩ := ih hbefore
      exact ⟨b, by simp [hb], hbup⟩

/-- The number of events that satisfy a predicate of the events before them. -/
def countAfter (p : List α → α → Bool) (events : List α) : ℕ :=
  (List.range events.length).countP fun i => events[i]?.any (p (events.take i))

/-- There are at most as many counted events as events. -/
theorem countAfter_le_length (p : List α → α → Bool) (events : List α) :
    countAfter p events ≤ events.length := by
  calc countAfter p events ≤ (List.range events.length).length := List.countP_le_length
    _ = events.length := List.length_range

/-- A predicate that implies another on the events and those before them counts at most as many. -/
theorem countAfter_le_countAfter (p q : List α → α → Bool) (events : List α)
    (h : ∀ earlier a, earlier ++ [a] <+: events → p earlier a = true → q earlier a = true) :
    countAfter p events ≤ countAfter q events := by
  refine List.countP_mono_left fun i _ hi => ?_
  cases hevent : events[i]? with
  | none =>
    rw [hevent] at hi
    exact hi
  | some a =>
    rw [hevent] at hi
    have hprefix : events.take i ++ [a] <+: events := by
      have htake := List.take_prefix (i + 1) events
      rwa [List.take_add_one, hevent] at htake
    exact h _ a hprefix hi

/-- One more event is counted when it satisfies the predicate. -/
theorem countAfter_append_singleton (p : List α → α → Bool) (events : List α) (a : α) :
    countAfter p (events ++ [a]) = countAfter p events + if p events a then 1 else 0 := by
  have hold : (List.range events.length).countP
      (fun i => (events ++ [a])[i]?.any (p ((events ++ [a]).take i))) = countAfter p events := by
    apply List.countP_congr
    intro i hi
    have hlt := List.mem_range.mp hi
    rw [List.getElem?_append_left hlt, List.take_append_of_le_length (Nat.le_of_lt hlt)]
  rw [countAfter, List.length_append, List.length_singleton, List.range_succ, List.countP_append,
    hold]
  simp [List.countP_cons]

end Coursework.Prediction
