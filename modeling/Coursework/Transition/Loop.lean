import Mathlib.Data.Nat.Notation
import Mathlib.Tactic.ByContra

/-!
# Loops that need not end

A loop is given by what one turn does: it is left with a result, or goes on from another
state. The loop returns a result when some number of turns reaches one, and diverges when
no number of turns does. Both are decided on single turns, by an invariant: a result is
reached when a measure goes down, and never when the invariant keeps the loop going.
-/

namespace Coursework.Transition

/-- What one turn of a loop does. -/
inductive Turn (σ β : Type*) where
  | leave (result : β)
  | again (s : σ)

/-- The result of a loop, if it is left within so many turns. -/
def loop {σ β : Type*} (body : σ → Turn σ β) : ℕ → σ → Option β
  | 0, _ => none
  | turns + 1, s =>
    match body s with
    | .leave result => some result
    | .again s' => loop body turns s'

/-- The loop is left with a result. -/
def Returns {σ β : Type*} (body : σ → Turn σ β) (s : σ) (result : β) : Prop :=
  ∃ turns, loop body turns s = some result

/-- The loop is never left. -/
def Diverges {σ β : Type*} (body : σ → Turn σ β) (s : σ) : Prop :=
  ∀ turns, loop body turns s = none

variable {σ β : Type*} {body : σ → Turn σ β}

/-- A loop that has been left does not depend on the turns that it was given. -/
theorem loop_of_le {turns more : ℕ} (hle : turns ≤ more) (s : σ) (result : β)
    (h : loop body turns s = some result) : loop body more s = some result := by
  induction turns generalizing more s with
  | zero => simp [loop] at h
  | succ turns ih =>
    obtain ⟨rest, rfl⟩ := Nat.exists_eq_add_of_le hle
    rw [Nat.add_right_comm]
    simp only [loop] at h ⊢
    cases hbody : body s with
    | leave first => simpa [hbody] using h
    | again s' =>
      rw [hbody] at h
      exact ih (Nat.le_add_right turns rest) s' h

/-- A loop has one result. -/
theorem Returns.unique {s : σ} {result result' : β} (h : Returns body s result)
    (h' : Returns body s result') : result = result' := by
  obtain ⟨turns, hturns⟩ := h
  obtain ⟨turns', hturns'⟩ := h'
  have hboth := loop_of_le (Nat.le_max_left turns turns') s result hturns
  rw [loop_of_le (Nat.le_max_right turns turns') s result' hturns'] at hboth
  exact (Option.some.inj hboth).symm

/-- A loop that returns does not diverge. -/
theorem Returns.not_diverges {s : σ} {result : β} (h : Returns body s result) :
    ¬Diverges body s := by
  obtain ⟨turns, hturns⟩ := h
  intro hdiverges
  rw [hdiverges turns] at hturns
  cases hturns

/-- A turn that leaves gives the result. -/
theorem returns_of_leave {s : σ} {result : β} (h : body s = .leave result) :
    Returns body s result :=
  ⟨1, by simp [loop, h]⟩

/-- A turn that goes on does not change the result. -/
theorem returns_of_again {s s' : σ} {result : β} (h : body s = .again s')
    (hreturns : Returns body s' result) : Returns body s result := by
  obtain ⟨turns, hturns⟩ := hreturns
  exact ⟨turns + 1, by simpa [loop, h] using hturns⟩

/-- A loop that goes on returns what it returns from there. -/
theorem returns_iff_of_again {s s' : σ} {result : β} (h : body s = .again s') :
    Returns body s result ↔ Returns body s' result := by
  refine ⟨?_, returns_of_again h⟩
  rintro ⟨turns, hturns⟩
  cases turns with
  | zero => cases hturns
  | succ turns => exact ⟨turns, by simpa [loop, h] using hturns⟩

/-- A loop that is left returns what it is left with. -/
theorem returns_iff_of_leave {s : σ} {left result : β} (h : body s = .leave left) :
    Returns body s result ↔ left = result := by
  constructor
  · exact (returns_of_leave h).unique
  · rintro rfl
    exact returns_of_leave h

/-- What the turns keep, and a leaving turn turns into a property of the result, gives the result
that property. -/
theorem Returns.invariant {s : σ} {result : β} (h : Returns body s result) (Inv : σ → Prop)
    (post : β → Prop) (hs : Inv s) (hagain : ∀ s s', Inv s → body s = .again s' → Inv s')
    (hleave : ∀ s result, Inv s → body s = .leave result → post result) : post result := by
  obtain ⟨turns, hturns⟩ := h
  induction turns generalizing s with
  | zero => simp [loop] at hturns
  | succ turns ih =>
    simp only [loop] at hturns
    cases hbody : body s with
    | leave first =>
      rw [hbody] at hturns
      obtain rfl := Option.some.inj hturns
      exact hleave s first hs hbody
    | again s' =>
      rw [hbody] at hturns
      exact ih (hagain s s' hs hbody) hturns

/-- A loop whose turns go down in a measure returns. -/
theorem returns_of_measure (Inv : σ → Prop) (measure : σ → ℕ)
    (hagain : ∀ s s', Inv s → body s = .again s' → Inv s' ∧ measure s' < measure s) (s : σ)
    (hs : Inv s) : ∃ result, Returns body s result := by
  induction hm : measure s using Nat.strongRecOn generalizing s with
  | ind m ih =>
    cases hbody : body s with
    | leave result => exact ⟨result, returns_of_leave hbody⟩
    | again s' =>
      obtain ⟨hs', hlt⟩ := hagain s s' hs hbody
      obtain ⟨result, hresult⟩ := ih (measure s') (hm ▸ hlt) s' hs' rfl
      exact ⟨result, returns_of_again hbody hresult⟩

/-- A loop that an invariant keeps going diverges. -/
theorem diverges_of_invariant (Inv : σ → Prop)
    (hagain : ∀ s, Inv s → ∃ s', body s = .again s' ∧ Inv s') (s : σ) (hs : Inv s) :
    Diverges body s := by
  intro turns
  induction turns generalizing s with
  | zero => rfl
  | succ turns ih =>
    obtain ⟨s', hbody, hs'⟩ := hagain s hs
    simp only [loop, hbody]
    exact ih s' hs'

end Coursework.Transition
