import Mathlib.Data.Int.Notation
import Mathlib.Data.List.TakeWhile
import Mathlib.Data.Nat.Notation

/-!
# Lines of text and numbers in C

A call of `fgets` stores the bytes of a stream up to the end of the line, or as many as there
is room for. The function `atoi` skips white space, reads a sign and digits, and stops at the
first other byte, as at the null character. A number that an `int` cannot hold is given as it
is.
-/

namespace Coursework.Posix

/-- The end of a line. -/
def newline : UInt8 := '\n'.toUInt8

/-- The bytes that `fgets` stores in an array with room for so many before the null character, and
those it leaves in the stream. -/
def fgets : ℕ → List UInt8 → List UInt8 × List UInt8
  | 0, input => ([], input)
  | _ + 1, [] => ([], [])
  | room + 1, c :: rest =>
    if c = newline then ([c], rest) else (c :: (fgets room rest).1, (fgets room rest).2)

/-- At the end of the stream nothing is stored. -/
theorem fgets_nil (room : ℕ) : fgets room [] = ([], []) := by
  cases room <;> rfl

/-- A line for which there is room is stored with its end. -/
theorem fgets_of_length_lt {room : ℕ} {line : List UInt8} (rest : List UInt8)
    (hline : newline ∉ line) (hroom : line.length < room) :
    fgets room (line ++ newline :: rest) = (line ++ [newline], rest) := by
  induction line generalizing room with
  | nil =>
    cases room with
    | zero => exact absurd hroom (Nat.lt_irrefl 0)
    | succ room => rfl
  | cons c line ih =>
    rw [List.mem_cons, not_or] at hline
    obtain ⟨hne, hline⟩ := hline
    cases room with
    | zero => exact absurd hroom (Nat.not_lt_zero _)
    | succ room =>
      rw [List.cons_append, fgets, if_neg (Ne.symm hne), ih hline (Nat.lt_of_succ_lt_succ hroom)]
      rfl

/-- Of a longer line, as many bytes are stored as there is room for. -/
theorem fgets_of_le_length {room : ℕ} {line : List UInt8} (rest : List UInt8)
    (hline : newline ∉ line) (hroom : room ≤ line.length) :
    fgets room (line ++ rest) = (line.take room, line.drop room ++ rest) := by
  induction room generalizing line with
  | zero => rfl
  | succ room ih =>
    cases line with
    | nil => exact absurd hroom (Nat.not_succ_le_zero _)
    | cons c line =>
      rw [List.mem_cons, not_or] at hline
      obtain ⟨hne, hline⟩ := hline
      rw [List.cons_append, fgets, if_neg (Ne.symm hne), ih hline (Nat.le_of_succ_le_succ hroom)]
      rfl

/-- What is stored and what is left make up the stream. -/
theorem fgets_append (room : ℕ) (input : List UInt8) :
    (fgets room input).1 ++ (fgets room input).2 = input := by
  induction room generalizing input with
  | zero => rfl
  | succ room ih =>
    cases input with
    | nil => rfl
    | cons c rest =>
      rw [fgets]
      split_ifs
      · rfl
      · exact congrArg (c :: ·) (ih rest)

/-- Where there is room something is stored, unless the stream has ended. -/
theorem fgets_eq_nil_iff (room : ℕ) (input : List UInt8) :
    (fgets (room + 1) input).1 = [] ↔ input = [] := by
  cases input with
  | nil => exact iff_of_true rfl rfl
  | cons c rest =>
    refine iff_of_false ?_ (List.cons_ne_nil _ _)
    rw [fgets]
    split <;> exact List.cons_ne_nil _ _

/-- `isspace`. -/
def isspace (c : UInt8) : Bool :=
  c == ' '.toUInt8 || c == '\t'.toUInt8 || c == newline || c == '\x0b'.toUInt8 ||
    c == '\x0c'.toUInt8 || c == '\r'.toUInt8

/-- `isdigit`. -/
def isdigit (c : UInt8) : Bool := '0'.toUInt8 ≤ c && c ≤ '9'.toUInt8

/-- The number that the digits at the start of a string give. -/
def leadingDigits (s : List UInt8) : ℕ :=
  (s.takeWhile isdigit).foldl (fun number c => 10 * number + (c.toNat - '0'.toNat)) 0

/-- The number after a sign. -/
def signed : List UInt8 → ℤ
  | [] => 0
  | c :: rest =>
    if c = '-'.toUInt8 then -(leadingDigits rest : ℤ)
    else if c = '+'.toUInt8 then leadingDigits rest
    else leadingDigits (c :: rest)

/-- `atoi`. -/
def atoi (s : List UInt8) : ℤ := signed (s.dropWhile isspace)

/-- The end of a line is not part of a number. -/
theorem leadingDigits_append_newline (s : List UInt8) :
    leadingDigits (s ++ [newline]) = leadingDigits s := by
  have htake : (s ++ [newline]).takeWhile isdigit = s.takeWhile isdigit := by
    induction s with
    | nil => rfl
    | cons c rest ih =>
      rw [List.cons_append, List.takeWhile_cons, List.takeWhile_cons, ih]
  rw [leadingDigits, htake, leadingDigits]

/-- The end of a line does not change a signed number. -/
theorem signed_append_newline (s : List UInt8) : signed (s ++ [newline]) = signed s := by
  cases s with
  | nil => rfl
  | cons c rest =>
    have hdigits := leadingDigits_append_newline (c :: rest)
    rw [List.cons_append] at hdigits ⊢
    rw [signed, signed, leadingDigits_append_newline, hdigits]

/-- The end of a line does not change what `atoi` reads. -/
theorem atoi_append_newline (s : List UInt8) : atoi (s ++ [newline]) = atoi s := by
  rw [atoi, atoi, List.dropWhile_append]
  split
  · rename_i hempty
    rw [List.isEmpty_iff.mp hempty]
    rfl
  · exact signed_append_newline _

end Coursework.Posix
