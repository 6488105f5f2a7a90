import Coursework.Posix.FileCalls
import Coursework.Transition.Loop

/-!
# Copying a file

`mycp` reads the first file into a buffer, block by block, and writes each block to the
second file, which it has created. A block that is not written whole ends the program with
a failure. The loop ends at the first `read` whose result is not positive.
-/

namespace Coursework.Copy

open Coursework.Posix
open Coursework.Transition

/-- `BUFFER_SIZE`. -/
def bufferSize : ℕ := 1024

/-- The contents of a regular file, whose size is an `off_t`. -/
structure File where
  bytes : List UInt8
  size : bytes.length < 2 ^ 63

/-- What the system does: whether the files can be opened, the bytes that are in the buffer at
first, and the answers to the calls of `read` and `write`, in order. -/
structure Environment where
  opensFile1 : Bool
  createsFile2 : Bool
  buffer : List UInt8
  reads : ℕ → Answer
  writes : ℕ → Answer

/-- The variables of `main`, the position in the first file, the bytes written to the second one,
and the number of calls made so far. -/
structure State where
  buffer : List UInt8
  in_ : Int64
  out : Int64
  totalBytes : Int64
  offset : ℕ
  written : List UInt8
  reads : ℕ
  writes : ℕ

/-- The variables before the first call. -/
def State.initial (env : Environment) : State := ⟨env.buffer, 0, 0, 0, 0, [], 0, 0⟩

/-- `in = read(fd_read, buffer, BUFFER_SIZE)`. -/
def readBlock (env : Environment) (file1 : File) (s : State) : State :=
  let result := readCount (env.reads s.reads) bufferSize (file1.bytes.length - s.offset)
  { s with
    buffer := (file1.bytes.drop s.offset).take (result.getD 0) ++ s.buffer.drop (result.getD 0)
    in_ := returned result
    offset := s.offset + result.getD 0
    reads := s.reads + 1 }

/-- `out = write(fd_write, buffer, in)`. -/
def writeBlock (env : Environment) (s : State) : State :=
  let result := writeCount (env.writes s.writes) s.in_.toInt.toNat
  { s with
    out := returned result
    written := s.written ++ s.buffer.take (result.getD 0)
    writes := s.writes + 1 }

/-- What `main` returns, and the variables it leaves. -/
structure Exit where
  status : Int32
  final : State

/-- One turn of the loop: the test of the last `read`, a block, and the next `read`. -/
def copyTurn (env : Environment) (file1 : File) (s : State) : Turn State Exit :=
  if s.in_ > 0 then
    let after := writeBlock env s
    if after.in_ ≠ after.out then .leave ⟨-1, after⟩
    else .again (readBlock env file1 { after with totalBytes := after.totalBytes + after.out })
  else .leave ⟨0, s⟩

/-- `main`, if it returns within so many turns of its loop. -/
def main (turns : ℕ) (env : Environment) (argc : Int32) (file1 : File) : Option Exit :=
  if argc ≠ 3 then some ⟨-1, .initial env⟩
  else if env.opensFile1 = false then some ⟨-1, .initial env⟩
  else if env.createsFile2 = false then some ⟨-1, .initial env⟩
  else loop (copyTurn env file1) turns (readBlock env file1 (.initial env))

end Coursework.Copy
