import Coursework.Java.Text
import Mathlib.Data.List.Basic

/-!
# Runs of the reading loop

Rules for the loop that every simulator is built around: carrying an invariant through
it, relating the runs of two simulators, and relating a run to the history of what its
lines stand for.
-/

namespace Coursework.Java

variable {σ τ β : Type}

/-- A computation does not throw `cause`, and a value it returns satisfies `post`. -/
def Avoids {ε : Type} (cause : ε) (x : Except ε σ) (post : σ → Prop) : Prop :=
  match x with
  | .ok s => post s
  | .error e => e ≠ cause

/-- Statements in sequence avoid what each of them avoids. -/
theorem Avoids.bind {ε : Type} {cause : ε} {x : Except ε σ} {f : σ → Except ε τ} {P : σ → Prop}
    {Q : τ → Prop} (hx : Avoids cause x P) (hf : ∀ s, P s → Avoids cause (f s) Q) :
    Avoids cause (x >>= f) Q := by
  cases x with
  | ok s => exact hf s hx
  | error e => exact hx

/-- A run that ends has read all lines, and the stream was not broken. -/
theorem readLoop_eq_ok {step : σ → String → Except JavaException σ} {s s' : σ}
    {stream : InputStream} (h : readLoop step s stream = .ok s') :
    readLines step s 0 stream.lines = .ok s' ∧ stream.broken = false := by
  rw [readLoop] at h
  cases hlines : readLines step s 0 stream.lines with
  | error abort =>
    rw [hlines] at h
    cases h
  | ok final =>
    rw [hlines] at h
    cases hbroken : stream.broken with
    | true =>
      rw [hbroken] at h
      cases h
    | false =>
      rw [hbroken] at h
      exact ⟨h, rfl⟩

/-- An invariant of the step holds at the end of every run, and an exception that the step never
throws under the invariant does not end a run. -/
theorem readLoop_invariant (step : σ → String → Except JavaException σ) (Inv : σ → Prop)
    (cause : JavaException) (hcause : cause ≠ .readFailure)
    (hstep : ∀ s line, Inv s → Avoids cause (step s line) Inv) (s : σ) (stream : InputStream)
    (hs : Inv s) :
    match readLoop step s stream with
    | .ok s' => Inv s'
    | .error abort => abort.cause ≠ cause := by
  have hlines : ∀ lines s number, Inv s → match readLines step s number lines with
      | .ok s' => Inv s'
      | .error abort => abort.cause ≠ cause := by
    intro lines
    induction lines with
    | nil => exact fun s _ hs => hs
    | cons line rest ih =>
      intro s number hs
      have hline := hstep s line hs
      simp only [readLines]
      cases hnext : step s line with
      | error other =>
        rw [hnext] at hline
        exact hline
      | ok s₁ =>
        rw [hnext] at hline
        exact ih s₁ (number + 1) hline
  have hrun := hlines stream.lines s 0 hs
  simp only [readLoop]
  cases hlast : readLines step s 0 stream.lines with
  | error abort =>
    rw [hlast] at hrun
    exact hrun
  | ok s' =>
    rw [hlast] at hrun
    cases stream.broken with
    | true => exact Ne.symm hcause
    | false => exact hrun

/-- Reading on after the beginning of a trace. -/
theorem readLines_append (step : σ → String → Except JavaException σ) (s : σ) (number : ℕ)
    (front back : List String) :
    readLines step s number (front ++ back) =
      readLines step s number front >>= fun s' =>
        readLines step s' (number + front.length) back := by
  induction front generalizing s number with
  | nil => rfl
  | cons line rest ih =>
    simp only [List.cons_append, readLines, List.length_cons]
    cases step s line with
    | error cause => rfl
    | ok s' => exact (ih s' (number + 1)).trans (by rw [Nat.add_right_comm, Nat.add_assoc])

/-- The beginning of a trace that is read to its end. -/
theorem readLines_of_append {step : σ → String → Except JavaException σ} {s s' : σ} {number : ℕ}
    {front back : List String} (h : readLines step s number (front ++ back) = .ok s') :
    ∃ middle, readLines step s number front = .ok middle ∧
      readLines step middle (number + front.length) back = .ok s' := by
  rw [readLines_append] at h
  cases hfront : readLines step s number front with
  | error abort =>
    rw [hfront] at h
    cases h
  | ok middle =>
    rw [hfront] at h
    exact ⟨middle, rfl, h⟩

/-- The last line of a trace that is read to its end. -/
theorem readLines_of_append_singleton {step : σ → String → Except JavaException σ} {s s' : σ}
    {number : ℕ} {front : List String} {line : String}
    (h : readLines step s number (front ++ [line]) = .ok s') :
    ∃ middle, readLines step s number front = .ok middle ∧ step middle line = .ok s' := by
  obtain ⟨middle, hfront, hlast⟩ := readLines_of_append h
  refine ⟨middle, hfront, ?_⟩
  simp only [readLines] at hlast
  cases hstep : step middle line with
  | error cause =>
    rw [hstep] at hlast
    cases hlast
  | ok next =>
    rw [hstep] at hlast
    obtain rfl := Except.ok.inj hlast
    rfl

/-- Two results agree when both are the same error, or both are values in relation. -/
def Agree {ε : Type} (R : σ → τ → Prop) : Except ε σ → Except ε τ → Prop
  | .ok s, .ok t => R s t
  | .error e, .error e' => e = e'
  | _, _ => False

/-- Steps that agree in related states give runs that agree. -/
theorem readLoop_agree (step : σ → String → Except JavaException σ)
    (step' : τ → String → Except JavaException τ) (R : σ → τ → Prop)
    (hstep : ∀ s t line, R s t → Agree R (step s line) (step' t line)) (s : σ) (t : τ)
    (stream : InputStream) (h : R s t) :
    Agree R (readLoop step s stream) (readLoop step' t stream) := by
  have hlines : ∀ lines s t number, R s t →
      Agree R (readLines step s number lines) (readLines step' t number lines) := by
    intro lines
    induction lines with
    | nil => exact fun s t _ h => h
    | cons line rest ih =>
      intro s t number h
      have hline := hstep s t line h
      simp only [readLines]
      cases hs : step s line <;> cases ht : step' t line <;> rw [hs, ht] at hline
      · simpa [Agree] using hline
      · exact hline.elim
      · exact hline.elim
      · exact ih _ _ _ hline
  have hrun := hlines stream.lines s t 0 h
  simp only [readLoop]
  cases hs : readLines step s 0 stream.lines <;> cases ht : readLines step' t 0 stream.lines <;>
    rw [hs, ht] at hrun
  · exact hrun
  · exact hrun.elim
  · exact hrun.elim
  · cases stream.broken with
    | true => exact rfl
    | false => exact hrun

/-- If a step that returns is matched by one of another loop, a run that ends is matched by one of it. -/
theorem readLoop_simulates {step : σ → String → Except JavaException σ}
    {step' : τ → String → Except JavaException τ} (R : σ → τ → Prop)
    (hstep : ∀ s t s' line, R s t → step s line = .ok s' → ∃ t', step' t line = .ok t' ∧ R s' t')
    {s s' : σ} {t : τ} {stream : InputStream} (h : R s t) (hrun : readLoop step s stream = .ok s') :
    ∃ t', readLoop step' t stream = .ok t' ∧ R s' t' := by
  obtain ⟨hlines, hbroken⟩ := readLoop_eq_ok hrun
  have hall : ∀ lines s t number, R s t → readLines step s number lines = .ok s' →
      ∃ t', readLines step' t number lines = .ok t' ∧ R s' t' := by
    intro lines
    induction lines with
    | nil =>
      intro s t number h hend
      obtain rfl := Except.ok.inj hend
      exact ⟨t, rfl, h⟩
    | cons line rest ih =>
      intro s t number h hend
      simp only [readLines] at hend ⊢
      cases hs : step s line with
      | error cause =>
        rw [hs] at hend
        cases hend
      | ok s₁ =>
        rw [hs] at hend
        obtain ⟨t₁, ht₁, h₁⟩ := hstep s t s₁ line h hs
        rw [ht₁]
        exact ih s₁ t₁ (number + 1) h₁ hend
  obtain ⟨t', ht', h'⟩ := hall stream.lines s t 0 h hlines
  refine ⟨t', ?_, h'⟩
  rw [readLoop, ht', hbroken]
  rfl

/-- When every line succeeds and adds to the represented history what it stands for, the run
succeeds and represents the history of all lines, the most recent first. -/
theorem readLines_represents (step : σ → String → Except JavaException σ)
    (next : String → Option β) (Rep : σ → List β → Prop) (valid : String → Prop) (bound : ℕ)
    (hstep : ∀ s past line, valid line → ((next line).toList ++ past).length ≤ bound →
      Rep s past → ∃ s', step s line = .ok s' ∧ Rep s' ((next line).toList ++ past))
    (s : σ) (past : List β) (number : ℕ) (lines : List String)
    (hvalid : ∀ line ∈ lines, valid line)
    (hbound : past.length + (lines.filterMap next).length ≤ bound) (hs : Rep s past) :
    ∃ s', readLines step s number lines = .ok s' ∧
      Rep s' ((lines.filterMap next).reverse ++ past) := by
  induction lines generalizing s past number with
  | nil => exact ⟨s, rfl, hs⟩
  | cons line rest ih =>
    have hsplit : (line :: rest).filterMap next = (next line).toList ++ rest.filterMap next := by
      cases hnext : next line <;> simp [hnext]
    rw [hsplit, List.length_append] at hbound
    obtain ⟨s₁, hline, hs₁⟩ := hstep s past line (hvalid line (by simp))
      (by rw [List.length_append]; omega) hs
    obtain ⟨s', hrest, hs'⟩ := ih s₁ _ (number + 1)
      (fun other h => hvalid other (List.mem_cons_of_mem line h))
      (by rw [List.length_append]; omega) hs₁
    refine ⟨s', ?_, ?_⟩
    · simpa only [readLines, hline] using hrest
    · rw [hsplit, List.reverse_append, List.append_assoc]
      cases hnext : next line <;> simpa [hnext] using hs'

end Coursework.Java
