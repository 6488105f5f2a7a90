import Coursework.Java.Text

/-!
# The branch predictor with a branch target buffer

`Sys2.simulate`: a prediction buffer of two-bit counters and a buffer of branch targets,
both indexed by low digits of the binary text of the instruction address. Every line is
cut into the two offsets; a branch is looked up, counted, and then updates both buffers.
The entries of the target buffer start as null references.
-/

namespace Coursework.BranchPrediction.Sys2

open Coursework.Java

/-- An entry of the branch target buffer. -/
structure Target where
  tag : String
  valid : Int32
  deriving DecidableEq

/-- The counter predicts a taken branch. -/
def takenPrediction (val : Int32) : Bool := val = 2 ∨ val = 3

/-- The counter predicts a branch that is not taken. -/
def notTakenPrediction (val : Int32) : Bool := val = 0 ∨ val = 1

/-- A counter value, brought back between 0 and 3. -/
def predictorState (val : Int32) : Int32 :=
  if val < 0 then 0
  else if val > 3 then 3
  else val

/-- The three tokens of a trace line that the simulator reads. -/
structure Record where
  instructionAddress : Int64
  tnNotBranch : String
  targetAddressTakenBranch : Int64
  deriving DecidableEq

/-- Read the tokens of a line, in the order of the source. -/
def parseRecord (line : String) : Except JavaException Record := do
  let tokens := split line
  let instructionAddress ← parseLong (← arrayGet tokens 1) 16
  let tnNotBranch ← arrayGet tokens 6
  let targetAddressTakenBranch ← parseLong (← arrayGet tokens 11) 16
  return ⟨instructionAddress, tnNotBranch, targetAddressTakenBranch⟩

/-- The values of a line of verbose output. -/
structure VerboseLine where
  order : Int32
  pbIndex : Int32
  pbCurState : Int32
  pbNextState : Int32
  btbIndex : Int32
  btbCurBranchTag : String
  access : Int32
  miss : Int32
  deriving DecidableEq

/-- The counters of the final report. -/
structure Counters where
  branches : Int32
  forwardBranches : Int32
  forwardTakenBranches : Int32
  backwardBranches : Int32
  backwardTakenBranches : Int32
  mispredictions : Int32
  hit : Int32
  access : Int32
  miss : Int32
  deriving DecidableEq

/-- All counters start at zero. -/
def Counters.zero : Counters := ⟨0, 0, 0, 0, 0, 0, 0, 0, 0⟩

/-- The variables of the loop. -/
structure State (pbSize btbSize : ℕ) where
  pbBuffer : Fin pbSize → Int32
  btbBuffer : Fin btbSize → Option Target
  counters : Counters
  log : List VerboseLine

/-- The variables before the first line. -/
def State.initial (pbSize btbSize : ℕ) : State pbSize btbSize :=
  ⟨fun _ => 1, fun _ => none, .zero, []⟩

/-- Dereference an entry of the target buffer, and compare it with the tag of the branch. -/
def lookUp {btbSize : ℕ} (btbBuffer : Fin btbSize → Option Target) (btbIndex : Int32)
    (tag : String) : Except JavaException Bool := do
  let index ← arrayIndex btbSize btbIndex
  match btbBuffer index with
  | none => .error .nullPointer
  | some target => return target.valid = 1 ∧ target.tag = tag

/-- The target buffer with one entry replaced. -/
def setTarget {btbSize : ℕ} (btbBuffer : Fin btbSize → Option Target) (index : Fin btbSize)
    (target : Target) : Fin btbSize → Option Target :=
  fun i => if i = index then some target else btbBuffer i

/-- A taken branch stores its tag, marked valid. -/
def updateTargets {btbSize : ℕ} (btbBuffer : Fin btbSize → Option Target) (tnNotBranch : String)
    (btbIndex : Int32) (tag : String) : Except JavaException (Fin btbSize → Option Target) := do
  if tnNotBranch = "T" then
    let index ← arrayIndex btbSize btbIndex
    return setTarget btbBuffer index ⟨tag, 1⟩
  else return btbBuffer

/-- Count a predicted-taken branch as hit or miss. -/
def countLookUp {btbSize : ℕ} (btbBuffer : Fin btbSize → Option Target) (btbIndex : Int32)
    (tag : String) (taken : Bool) (counters : Counters) : Except JavaException Counters := do
  if taken then
    let found ← lookUp btbBuffer btbIndex tag
    if found then return { counters with hit := counters.hit + 1 }
    else return { counters with miss := counters.miss + 1 }
  else return counters

/-- Count the outcome against the prediction. -/
def countOutcome (tnNotBranch : String) (pbCurState : Int32) (counters : Counters) : Counters :=
  if tnNotBranch = "T" ∧ takenPrediction pbCurState = false then
    { counters with mispredictions := counters.mispredictions + 1 }
  else if tnNotBranch = "N" ∧ notTakenPrediction pbCurState = false then
    { counters with mispredictions := counters.mispredictions + 1 }
  else counters

/-- Count the direction of a branch by the distance to its target. -/
def countDirection (tnNotBranch : String) (distance : Int64) (counters : Counters) : Counters :=
  if distance > 0 then
    { counters with
      forwardBranches := counters.forwardBranches + 1
      forwardTakenBranches :=
        if tnNotBranch = "T" then counters.forwardTakenBranches + 1
        else counters.forwardTakenBranches }
  else if distance < 0 then
    { counters with
      backwardBranches := counters.backwardBranches + 1
      backwardTakenBranches :=
        if tnNotBranch = "T" then counters.backwardTakenBranches + 1
        else counters.backwardTakenBranches }
  else counters

/-- `PB_next_state`, which starts at 1 for every branch. -/
def pbNextState (tnNotBranch : String) (pbCurState : Int32) : Int32 :=
  if tnNotBranch = "T" then predictorState (pbCurState + 1)
  else if tnNotBranch = "N" then predictorState (pbCurState - 1)
  else 1

/-- The indices and the tag of a branch, as the loop body computes them. -/
structure DecodedBranch where
  pbIndex : Int32
  btbIndex : Int32
  btbCurBranchTag : String
  deriving DecidableEq

/-- The variables after a branch, from its counted look-up and the updated target buffer. -/
def State.afterBranch {pbSize btbSize : ℕ} (s : State pbSize btbSize) (record : Record)
    (decoded : DecodedBranch) (pbEntry : Fin pbSize) (looked : Counters)
    (btbBuffer : Fin btbSize → Option Target) : State pbSize btbSize :=
  let pbCurState := s.pbBuffer pbEntry
  let accessed := { looked with access := looked.hit + looked.miss }
  let next := pbNextState record.tnNotBranch pbCurState
  { pbBuffer := fun i =>
      if i = pbEntry ∧ (record.tnNotBranch = "T" ∨ record.tnNotBranch = "N") then next
      else s.pbBuffer i
    btbBuffer := btbBuffer
    counters := countDirection record.tnNotBranch
      (record.targetAddressTakenBranch - record.instructionAddress)
      (countOutcome record.tnNotBranch pbCurState accessed)
    log := s.log ++ [{
      order := looked.branches - 1
      pbIndex := decoded.pbIndex
      pbCurState := pbCurState
      pbNextState := next
      btbIndex := decoded.btbIndex
      btbCurBranchTag := decoded.btbCurBranchTag
      access := accessed.access
      miss := accessed.miss }] }

/-- Process a branch whose first buffer access is to entry `pbEntry`. -/
def branch {pbSize btbSize : ℕ} (s : State pbSize btbSize) (record : Record)
    (decoded : DecodedBranch) (pbEntry : Fin pbSize) :
    Except JavaException (State pbSize btbSize) := do
  let counted := { s.counters with branches := s.counters.branches + 1 }
  let looked ← countLookUp s.btbBuffer decoded.btbIndex decoded.btbCurBranchTag
    (takenPrediction (s.pbBuffer pbEntry)) counted
  let btbBuffer ← updateTargets s.btbBuffer record.tnNotBranch decoded.btbIndex
    decoded.btbCurBranchTag
  return s.afterBranch record decoded pbEntry looked btbBuffer

/-- The body of the reading loop. -/
def step {pbSize btbSize : ℕ} (pbOffsetLength btbOffsetLength : Int32)
    (s : State pbSize btbSize) (line : String) : Except JavaException (State pbSize btbSize) := do
  let record ← parseRecord line
  let binaryPC := toBinaryString record.instructionAddress
  let length := stringLength binaryPC
  let pbOffset ← substring binaryPC (length - pbOffsetLength) length
  let btbOffset ← substring binaryPC (length - btbOffsetLength) length
  if record.tnNotBranch = "-" then return s
  else
    let pbIndex ← parseInt pbOffset 2
    let pbEntry ← arrayIndex pbSize pbIndex
    let btbIndex ← parseInt btbOffset 2
    let tagBinary ← substring binaryPC 0 (length - btbOffsetLength)
    let tag ← parseInt tagBinary 2
    branch s record ⟨pbIndex, btbIndex, formatHex tag⟩ pbEntry

/-- The sizes fixed before the first line. -/
structure Geometry where
  pbSize : ℕ
  btbSize : ℕ
  pbOffsetLength : Int32
  btbOffsetLength : Int32

/-- The offset lengths and the allocation of the buffers. -/
def setUp (pbBufferSize btbBufferSize : Int32) : Except JavaException Geometry := do
  let pbSize ← newArrayLength pbBufferSize
  let btbSize ← newArrayLength btbBufferSize
  return ⟨pbSize, btbSize, intLog2 pbBufferSize, intLog2 btbBufferSize⟩

/-- The values of the printed report. -/
structure Report where
  branches : Int32
  forwardBranches : Int32
  forwardTakenBranches : Int32
  backwardBranches : Int32
  backwardTakenBranches : Int32
  mispredictions : Int32
  predictionsRate : Float
  miss : Int32
  missesRate : Float

/-- The calculation at the end of the simulation. -/
def Counters.report (counters : Counters) : Report where
  branches := counters.branches
  forwardBranches := counters.forwardBranches
  forwardTakenBranches := counters.forwardTakenBranches
  backwardBranches := counters.backwardBranches
  backwardTakenBranches := counters.backwardTakenBranches
  mispredictions := counters.mispredictions
  predictionsRate := Float.ofInt counters.mispredictions.toInt / Float.ofInt counters.branches.toInt
  miss := counters.miss
  missesRate := Float.ofInt counters.miss.toInt / Float.ofInt counters.access.toInt

/-- A finished simulation. -/
structure Run where
  geometry : Geometry
  final : State geometry.pbSize geometry.btbSize
  printed : List VerboseLine

/-- The statistics printed at the end. -/
def Run.report (run : Run) : Report := run.final.counters.report

/-- `Sys2.simulate`. -/
def simulate (incomingStream : InputStream) (pbBufferSize btbBufferSize : Int32)
    (verbose : Bool) : Except Abort Run :=
  match setUp pbBufferSize btbBufferSize with
  | .error cause => .error ⟨.setUp, cause⟩
  | .ok geometry =>
    match readLoop (step geometry.pbOffsetLength geometry.btbOffsetLength)
        (State.initial geometry.pbSize geometry.btbSize) incomingStream with
    | .error abort => .error abort
    | .ok final => .ok {
        geometry := geometry
        final := final
        printed := if verbose then final.log else [] }

end Coursework.BranchPrediction.Sys2
