import Coursework.BranchPrediction.Sys2

/-!
# The static branch predictor

`Sys1.simulate`: forward branches are predicted not taken, backward branches taken. The
direction is the sign of the distance from the instruction to its target; a branch with
distance zero is counted as a branch and as nothing else, whatever its outcome.
-/

namespace Coursework.BranchPrediction.Sys1

open Coursework.Java
open Coursework.BranchPrediction.Sys2 (Record parseRecord)

/-- The counters of the simulation. -/
structure Counters where
  branches : Int32
  forwardBranches : Int32
  forwardTakenBranches : Int32
  backwardBranches : Int32
  backwardTakenBranches : Int32
  mispredictions : Int32
  deriving DecidableEq

/-- All counters start at zero. -/
def Counters.zero : Counters := ⟨0, 0, 0, 0, 0, 0⟩

/-- A forward branch, which is mispredicted if it is taken. -/
def Counters.forward (counters : Counters) (tnNotBranch : String) : Counters :=
  { counters with
    forwardBranches := counters.forwardBranches + 1
    forwardTakenBranches :=
      if tnNotBranch = "T" then counters.forwardTakenBranches + 1
      else counters.forwardTakenBranches
    mispredictions :=
      if tnNotBranch = "T" then counters.mispredictions + 1 else counters.mispredictions }

/-- A backward branch, which is mispredicted if it is not taken. -/
def Counters.backward (counters : Counters) (tnNotBranch : String) : Counters :=
  { counters with
    backwardBranches := counters.backwardBranches + 1
    backwardTakenBranches :=
      if tnNotBranch = "T" then counters.backwardTakenBranches + 1
      else counters.backwardTakenBranches
    mispredictions :=
      if tnNotBranch = "N" then counters.mispredictions + 1 else counters.mispredictions }

/-- Count a branch by the distance to its target. -/
def countBranch (counters : Counters) (tnNotBranch : String) (distance : Int64) : Counters :=
  let counted := { counters with branches := counters.branches + 1 }
  if distance > 0 then counted.forward tnNotBranch
  else if distance < 0 then counted.backward tnNotBranch
  else counted

/-- The body of the reading loop. -/
def step (counters : Counters) (line : String) : Except JavaException Counters := do
  let record ← parseRecord line
  if record.tnNotBranch = "-" then return counters
  else
    return countBranch counters record.tnNotBranch
      (record.targetAddressTakenBranch - record.instructionAddress)

/-- `predictionsRate` of the report. -/
def Counters.predictionsRate (counters : Counters) : Float :=
  Float.ofInt counters.mispredictions.toInt / Float.ofInt counters.branches.toInt

/-- `Sys1.simulate`, up to the final counters. -/
def simulate (incomingStream : InputStream) : Except Abort Counters :=
  readLoop step .zero incomingStream

end Coursework.BranchPrediction.Sys1
