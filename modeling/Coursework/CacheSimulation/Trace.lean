import Coursework.Java.Text

/-!
# Trace lines, address decoding and statistics of the cache simulators

What `Sys1.simulate` and `Sys2.simulate` of the cache project have word for word in
common: the tokens they read from a trace line, the decoding of an address through its
binary text, the counters they keep, and the report they print at the end.
-/

namespace Coursework.CacheSimulation

open Coursework.Java

/-- The three tokens of a trace line that the simulators read. -/
structure Record where
  instructionAddress : Int64
  loadStore : String
  addressForMemoryOp : Int64
  deriving DecidableEq

/-- Read the tokens of a line, in the order of the source. -/
def parseRecord (line : String) : Except JavaException Record := do
  let tokens := split line
  let instructionAddress ← parseLong (← arrayGet tokens 1) 16
  let loadStore ← arrayGet tokens 7
  let addressForMemoryOp ← parseLong (← arrayGet tokens 9) 16
  return ⟨instructionAddress, loadStore, addressForMemoryOp⟩

/-- The set index of an address, in hexadecimal and as an `int`, and its tag in hexadecimal. -/
structure DecodedAddress where
  indexHex : String
  index : Int32
  tag : String
  deriving DecidableEq

/-- Cut the binary text of an address into index and tag. -/
def decodeAddress (indexLength offsetLength : Int32) (addressForMemoryOp : Int64) :
    Except JavaException DecodedAddress := do
  let binaryDataAddr := toBinaryString addressForMemoryOp
  let length := stringLength binaryDataAddr
  let indexBinary ← substring binaryDataAddr (length - (indexLength + offsetLength))
    (length - offsetLength)
  let indexHex := toHexString (← parseLong indexBinary 2)
  let index ← parseInt indexBinary 2
  let tagBinary ← substring binaryDataAddr 0 (length - (indexLength + offsetLength))
  let tag := toHexString (← parseLong tagBinary 2)
  return ⟨indexHex, index, tag⟩

/-- The counters of a simulation. -/
structure Statistics where
  reads : Int32
  writes : Int32
  readMisses : Int32
  writeMisses : Int32
  dirtyReadMisses : Int32
  dirtyWriteMisses : Int32
  readCycle : Int32
  writeCycle : Int32
  deriving DecidableEq

/-- All counters start at zero. -/
def Statistics.zero : Statistics := ⟨0, 0, 0, 0, 0, 0, 0, 0⟩

/-- Count the access itself, after its case was handled. -/
def Statistics.countAccess (stats : Statistics) (loadStore : String) : Statistics :=
  if loadStore = "L" then { stats with reads := stats.reads + 1 }
  else if loadStore = "S" then { stats with writes := stats.writes + 1 }
  else stats

/-- `accesses` of the final calculation. -/
def Statistics.accesses (stats : Statistics) : Int32 := stats.reads + stats.writes

/-- `total_misses` of the final calculation. -/
def Statistics.totalMisses (stats : Statistics) : Int32 := stats.readMisses + stats.writeMisses

/-- `total_dirty_misses` of the final calculation. -/
def Statistics.totalDirtyMisses (stats : Statistics) : Int32 :=
  stats.dirtyReadMisses + stats.dirtyWriteMisses

/-- `total_cycle` of the final calculation. -/
def Statistics.totalCycle (stats : Statistics) : Int32 := stats.readCycle + stats.writeCycle

/-- The fourteen values of the printed report. -/
structure Report where
  reads : Int32
  writes : Int32
  accesses : Int32
  readMisses : Int32
  writeMisses : Int32
  totalMisses : Int32
  dirtyReadMisses : Int32
  dirtyWriteMisses : Int32
  readFromMem : Int32
  writeToMem : Int32
  readCycle : Int32
  writeCycle : Int32
  totalCycle : Int32
  missRate : Float

/-- `block_byte`. -/
def blockByte : Int32 := 16

/-- The calculation at the end of the simulation. -/
def Statistics.report (stats : Statistics) : Report where
  reads := stats.reads
  writes := stats.writes
  accesses := stats.accesses
  readMisses := stats.readMisses
  writeMisses := stats.writeMisses
  totalMisses := stats.totalMisses
  dirtyReadMisses := stats.dirtyReadMisses
  dirtyWriteMisses := stats.dirtyWriteMisses
  readFromMem := stats.totalMisses * blockByte
  writeToMem := stats.totalDirtyMisses * blockByte
  readCycle := stats.readCycle
  writeCycle := stats.writeCycle
  totalCycle := stats.totalCycle
  missRate := Float.ofInt stats.totalMisses.toInt / Float.ofInt stats.accesses.toInt

/-- The case number of an access; `unset` is the empty text it starts with. -/
inductive CaseNum where
  | unset
  | case1
  | case2a
  | case2b
  deriving DecidableEq, Repr

end Coursework.CacheSimulation
