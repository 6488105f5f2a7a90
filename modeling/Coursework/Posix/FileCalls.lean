import Mathlib.Algebra.Ring.Int.Defs
import Mathlib.Algebra.Ring.Nat

/-!
# Answers of a system to `read` and `write`

A call on an open file may fail, and may transfer fewer bytes than it was asked for. A
`read` transfers at least one byte as long as there are any, so that zero means the end of
the file; a `write` may transfer none. What a system answers is a number of bytes, or a
failure; the call brings that number between the bounds.
-/

namespace Coursework.Posix

/-- What a system answers to one call. -/
inductive Answer where
  | error
  | count (bytes : ℕ)
  deriving DecidableEq

/-- The bytes that a `read` of up to `nbyte` transfers, with `left` bytes before the end of the
file. -/
def readCount (answer : Answer) (nbyte left : ℕ) : Option ℕ :=
  match answer with
  | .error => none
  | .count bytes => some (min (max 1 bytes) (min nbyte left))

/-- The bytes that a `write` of `nbyte` transfers. -/
def writeCount (answer : Answer) (nbyte : ℕ) : Option ℕ :=
  match answer with
  | .error => none
  | .count bytes => some (min bytes nbyte)

/-- The value that a call returns. -/
def returned : Option ℕ → Int64
  | none => -1
  | some bytes => Int64.ofNat bytes

/-- The results of a `read`: up to the bytes that are asked for and left, and zero only at the end
of the file. -/
theorem exists_readCount_iff (nbyte left bytes : ℕ) (hnbyte : 0 < nbyte) :
    (∃ answer, readCount answer nbyte left = some bytes) ↔
      bytes ≤ nbyte ∧ bytes ≤ left ∧ (bytes = 0 → left = 0) := by
  constructor
  · rintro ⟨answer, h⟩
    cases answer with
    | error => cases h
    | count asked =>
      obtain rfl := Option.some.inj h
      omega
  · rintro ⟨hask, hleft, hzero⟩
    refine ⟨.count bytes, congrArg some ?_⟩
    omega

/-- The results of a `write`: up to the bytes that are asked for. -/
theorem exists_writeCount_iff (nbyte bytes : ℕ) :
    (∃ answer, writeCount answer nbyte = some bytes) ↔ bytes ≤ nbyte := by
  constructor
  · rintro ⟨answer, h⟩
    cases answer with
    | error => cases h
    | count asked =>
      obtain rfl := Option.some.inj h
      exact Nat.min_le_right _ _
  · intro h
    exact ⟨.count bytes, congrArg some (Nat.min_eq_left h)⟩

/-- A number of bytes is returned as it is. -/
theorem toInt_returned_some (bytes : ℕ) (h : bytes < 2 ^ 63) :
    (returned (some bytes)).toInt = bytes :=
  Int64.toInt_ofNat_of_lt h

/-- A failure returns minus one. -/
theorem toInt_returned_none : (returned none).toInt = -1 := by decide

/-- A result is positive exactly if bytes were transferred. -/
theorem returned_pos_iff (result : Option ℕ) (h : result.getD 0 < 2 ^ 63) :
    returned result > 0 ↔ 0 < result.getD 0 := by
  rw [gt_iff_lt, Int64.lt_iff_toInt_lt, Int64.toInt_zero]
  cases result with
  | none => exact iff_of_false (by decide) (Nat.lt_irrefl 0)
  | some bytes =>
    rw [toInt_returned_some bytes h]
    exact Int.natCast_pos

/-- Two results are the same number exactly if the calls had the same outcome. -/
theorem returned_inj {result result' : Option ℕ} (h : result.getD 0 < 2 ^ 63)
    (h' : result'.getD 0 < 2 ^ 63) (heq : returned result = returned result') :
    result = result' := by
  have hvalues := congrArg Int64.toInt heq
  cases result with
  | none =>
    cases result' with
    | none => rfl
    | some bytes' =>
      rw [toInt_returned_none, toInt_returned_some bytes' h'] at hvalues
      omega
  | some bytes =>
    cases result' with
    | none =>
      rw [toInt_returned_none, toInt_returned_some bytes h] at hvalues
      omega
    | some bytes' =>
      rw [toInt_returned_some bytes h, toInt_returned_some bytes' h'] at hvalues
      exact congrArg some (by exact_mod_cast hvalues)

end Coursework.Posix
