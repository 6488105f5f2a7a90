import Mathlib.Algebra.Ring.Int.Defs
import Mathlib.Data.Nat.Log

/-!
# The Java text operations the trace simulators are built from

The simulators decode every address by way of text: a line is split at whitespace, a
hexadecimal token becomes a `long`, the `long` becomes a binary string, and pieces of
that string are parsed again. This file gives these library calls their documented
meaning, exceptions included. An `int` is an `Int32` and a `long` an `Int64`.

The reading loop is shared by all simulators: it stops at the end of the stream, or
aborts at the line whose processing threw.
-/

namespace Coursework.Java

/-- The exceptions that the simulators can end with. -/
inductive JavaException where
  | arithmetic
  | negativeArraySize
  | arrayIndexOutOfBounds
  | stringIndexOutOfBounds
  | numberFormat
  | nullPointer
  | readFailure
  deriving DecidableEq, Repr

/-- A statement that returns hands its value on. -/
@[simp] theorem ok_bind {ε α β : Type} (a : α) (f : α → Except ε β) :
    (Except.ok a >>= f) = f a := rfl

/-- A statement that throws ends the block. -/
@[simp] theorem error_bind {ε α β : Type} (e : ε) (f : α → Except ε β) :
    ((Except.error e : Except ε α) >>= f) = .error e := rfl

/-- What throws in the end throws, unless it has thrown before. -/
theorem exists_error_bind {ε α β : Type} {x : Except ε α} {f : α → Except ε β}
    (h : ∀ a, x = .ok a → ∃ e, f a = .error e) : ∃ e, (x >>= f) = .error e := by
  cases x with
  | ok a => exact h a rfl
  | error e => exact ⟨e, rfl⟩

/-- What returns in the end has returned before. -/
theorem bind_eq_ok {ε α β : Type} {x : Except ε α} {f : α → Except ε β} {b : β}
    (h : (x >>= f) = .ok b) : ∃ a, x = .ok a ∧ f a = .ok b := by
  cases x with
  | ok a => exact ⟨a, rfl, h⟩
  | error e => cases h

/-- A `return` is a value. -/
@[simp] theorem pure_eq_ok {ε α : Type} (a : α) : (pure a : Except ε α) = .ok a := rfl

/-- The decimal zeros of the Unicode digit blocks that `Character.digit` accepts. -/
def digitZeros : List ℕ :=
  [0x0030, 0x0660, 0x06F0, 0x07C0, 0x0966, 0x09E6, 0x0A66, 0x0AE6, 0x0B66, 0x0BE6, 0x0C66,
    0x0CE6, 0x0D66, 0x0DE6, 0x0E50, 0x0ED0, 0x0F20, 0x1040, 0x1090, 0x17E0, 0x1810, 0x1946,
    0x19D0, 0x1A80, 0x1A90, 0x1B50, 0x1BB0, 0x1C40, 0x1C50, 0xA620, 0xA8D0, 0xA900, 0xA9D0,
    0xA9F0, 0xAA50, 0xABF0, 0xFF10]

/-- The codes of the letters `A`, `a` and their full-width forms, which count from ten. -/
def letterTens : List ℕ := [0x0041, 0x0061, 0xFF21, 0xFF41]

/-- `Character.digit` before its radix test. -/
def digitValue (ch : Char) : Option ℕ :=
  match digitZeros.find? (fun first => first ≤ ch.toNat ∧ ch.toNat < first + 10) with
  | some first => some (ch.toNat - first)
  | none =>
    match letterTens.find? (fun first => first ≤ ch.toNat ∧ ch.toNat < first + 26) with
    | some first => some (ch.toNat - first + 10)
    | none => none

/-- `Character.digit`: the value of a character that is a digit of the radix. -/
def digit (radix : ℕ) (ch : Char) : Option ℕ :=
  (digitValue ch).filter (· < radix)

/-- The positional value of a run of digits, continuing from `acc`. -/
def digitsValue (radix : ℕ) : ℕ → List Char → Option ℕ
  | acc, [] => some acc
  | acc, ch :: rest =>
    match digit radix ch with
    | some d => digitsValue radix (acc * radix + d) rest
    | none => none

/-- A number needs at least one digit. -/
def magnitude (radix : ℕ) (digits : List Char) : Option ℕ :=
  if digits = [] then none else digitsValue radix 0 digits

/-- An optional sign followed by a magnitude. -/
def signedValue (radix : ℕ) (text : List Char) : Option ℤ :=
  match text with
  | [] => none
  | ch :: rest =>
    if ch = '-' then (magnitude radix rest).map (fun n => -(n : ℤ))
    else if ch = '+' then (magnitude radix rest).map (fun n => (n : ℤ))
    else (magnitude radix (ch :: rest)).map (fun n => (n : ℤ))

/-- `Long.parseLong(s, radix)`. -/
def parseLong (s : String) (radix : ℕ) : Except JavaException Int64 :=
  match signedValue radix s.toList with
  | some v => if -2 ^ 63 ≤ v ∧ v < 2 ^ 63 then .ok (Int64.ofInt v) else .error .numberFormat
  | none => .error .numberFormat

/-- `Integer.parseInt(s, radix)`. -/
def parseInt (s : String) (radix : ℕ) : Except JavaException Int32 :=
  match signedValue radix s.toList with
  | some v => if -2 ^ 31 ≤ v ∧ v < 2 ^ 31 then .ok (Int32.ofInt v) else .error .numberFormat
  | none => .error .numberFormat

/-- The bit pattern of a `long`, read as an unsigned number. -/
def unsignedLong (x : Int64) : ℕ := x.toUInt64.toNat

/-- `Long.toBinaryString(x)`. -/
def toBinaryString (x : Int64) : String := String.ofList (Nat.toDigits 2 (unsignedLong x))

/-- The hexadecimal text of a number. -/
def hexText (n : ℕ) : String := String.ofList (Nat.toDigits 16 n)

/-- `Long.toHexString(x)`. -/
def toHexString (x : Int64) : String := hexText (unsignedLong x)

/-- `String.format("%x", n)` of an `int`. -/
def formatHex (n : Int32) : String := hexText n.toUInt32.toNat

/-- `s.length()`. -/
def stringLength (s : String) : Int32 := Int32.ofNat s.length

/-- `s.substring(beginIndex, endIndex)`. -/
def substring (s : String) (beginIndex endIndex : Int32) : Except JavaException String :=
  if 0 ≤ beginIndex.toInt ∧ beginIndex.toInt ≤ endIndex.toInt ∧ endIndex.toInt ≤ s.length then
    .ok (String.ofList ((s.toList.take endIndex.toInt.toNat).drop beginIndex.toInt.toNat))
  else .error .stringIndexOutOfBounds

/-- The characters that the pattern `\s` matches. -/
def isSpace (ch : Char) : Bool :=
  ch ∈ [' ', '\t', '\n', '\x0B', '\x0C', '\r']

/-- Cut a text at its maximal runs of whitespace. -/
def pieces : List Char → List (List Char)
  | [] => [[]]
  | ch :: rest =>
    if isSpace ch then
      if (rest.head?.map isSpace).getD false then pieces rest else [] :: pieces rest
    else
      match pieces rest with
      | [] => [[ch]]
      | piece :: others => (ch :: piece) :: others

/-- `line.split("\\s+")`: without a match the text itself, else the pieces less the empty ones
at the end. -/
def split (line : String) : List String :=
  if line.toList.any isSpace then
    ((pieces line.toList).reverse.dropWhile (fun piece => piece = [])).reverse.map String.ofList
  else [line]

/-- `tokens[i]`. -/
def arrayGet {α : Type} (array : List α) (i : ℕ) : Except JavaException α :=
  match array[i]? with
  | some a => .ok a
  | none => .error .arrayIndexOutOfBounds

/-- The bounds check of an array access with an `int` index. -/
def arrayIndex (length : ℕ) (i : Int32) : Except JavaException (Fin length) :=
  if h : 0 ≤ i.toInt ∧ i.toInt.toNat < length then .ok ⟨i.toInt.toNat, h.2⟩
  else .error .arrayIndexOutOfBounds

/-- The number of elements of `new T[n]`. -/
def newArrayLength (n : Int32) : Except JavaException ℕ :=
  if 0 ≤ n.toInt then .ok n.toInt.toNat else .error .negativeArraySize

/-- `a / b` of two `int`s. -/
def intDiv (a b : Int32) : Except JavaException Int32 :=
  if b = 0 then .error .arithmetic else .ok (a / b)

/-- `(int) (Math.log(n) / Math.log(2))`. The logarithm of zero is minus infinity, which the cast
takes to the least `int`; the logarithm of a negative number is not a number, which it takes to
zero. Of a positive number the quotient truncates to the position of its leading bit. -/
def intLog2 (n : Int32) : Int32 :=
  if n.toInt < 0 then 0
  else if n = 0 then Int32.minValue
  else Int32.ofNat (Nat.log2 n.toInt.toNat)

/-- The lines `readLine` delivers, and whether the stream fails after them instead of ending. -/
structure InputStream where
  lines : List String
  broken : Bool

/-- A stream that ends normally. -/
def InputStream.ofLines (lines : List String) : InputStream := ⟨lines, false⟩

/-- Where a simulation stopped: before the first line, or while line `number` was processed. -/
inductive AbortPoint where
  | setUp
  | line (number : ℕ)
  deriving DecidableEq, Repr

/-- An uncaught exception and where it was thrown. -/
structure Abort where
  point : AbortPoint
  cause : JavaException
  deriving DecidableEq, Repr

/-- Process the lines in order, starting with line `number`. -/
def readLines {σ : Type} (step : σ → String → Except JavaException σ) :
    σ → ℕ → List String → Except Abort σ
  | s, _, [] => .ok s
  | s, number, line :: rest =>
    match step s line with
    | .ok s' => readLines step s' (number + 1) rest
    | .error cause => .error ⟨.line number, cause⟩

/-- The reading loop of a simulator, up to the end of the stream or its failure. -/
def readLoop {σ : Type} (step : σ → String → Except JavaException σ) (s : σ)
    (stream : InputStream) : Except Abort σ :=
  match readLines step s 0 stream.lines with
  | .ok s' => if stream.broken then .error ⟨.line stream.lines.length, .readFailure⟩ else .ok s'
  | .error abort => .error abort

end Coursework.Java
