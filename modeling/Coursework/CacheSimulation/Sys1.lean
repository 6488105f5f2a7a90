import Coursework.CacheSimulation.Trace

/-!
# The direct-mapped cache simulator

`Sys1.simulate`: one target per index, looked up without a search. The loop body is a
step on the cache, the reference count and the counters; every access leaves the data
of its verbose line in the log, and the printed lines are selected at the end.
-/

namespace Coursework.CacheSimulation.Sys1

open Coursework.Java

/-- One cache entry: valid bit, dirty bit and tag in hexadecimal, `"0"` when empty. -/
structure Target where
  valid : Int32
  dirty : Int32
  tag : String
  deriving DecidableEq

/-- The content of a fresh entry. -/
def Target.empty : Target := ⟨0, 0, "0"⟩

/-- The values of a line of verbose output. -/
structure VerboseLine where
  reference : Int32
  address : String
  indexHex : String
  tag : String
  valid : Int32
  cachedTag : String
  dirty : Int32
  hitMiss : Int32
  caseNum : CaseNum
  deriving DecidableEq

/-- The variables of the loop. -/
structure State (sets : ℕ) where
  cache : Fin sets → Target
  reference : Int32
  stats : Statistics
  log : List VerboseLine

/-- The variables before the first line. -/
def State.initial (sets : ℕ) : State sets := ⟨fun _ => .empty, 0, .zero, []⟩

/-- What handling a case leaves behind. -/
structure CaseResult where
  target : Target
  stats : Statistics
  hitMiss : Int32
  caseNum : CaseNum

/-- Cases 1, 2a and 2b of the detailed operation. -/
def detailedOperation (loadStore tag : String) (target : Target) (stats : Statistics) :
    CaseResult :=
  if tag = target.tag then
    if loadStore = "L" then
      ⟨{ target with valid := 1 }, { stats with readCycle := stats.readCycle + 1 }, 1, .case1⟩
    else
      ⟨{ target with dirty := 1, valid := 1 },
        { stats with writeCycle := stats.writeCycle + 1 }, 1, .case1⟩
  else if target.tag = "0" ∨ target.dirty = 0 then
    if loadStore = "L" then
      ⟨{ valid := 1, dirty := 0, tag := tag },
        { stats with
          readMisses := stats.readMisses + 1
          readCycle := stats.readCycle + 81 }, 0, .case2a⟩
    else if loadStore = "S" then
      ⟨{ valid := 1, dirty := 1, tag := tag },
        { stats with
          writeMisses := stats.writeMisses + 1
          writeCycle := stats.writeCycle + 81 }, 0, .case2a⟩
    else ⟨{ target with valid := 1 }, stats, 0, .case2a⟩
  else if target.dirty = 1 then
    if loadStore = "L" then
      ⟨{ valid := 1, dirty := 0, tag := tag },
        { stats with
          readMisses := stats.readMisses + 1
          dirtyReadMisses := stats.dirtyReadMisses + 1
          readCycle := stats.readCycle + 161 }, 0, .case2b⟩
    else if loadStore = "S" then
      ⟨{ valid := 1, dirty := 1, tag := tag },
        { stats with
          writeMisses := stats.writeMisses + 1
          dirtyWriteMisses := stats.dirtyWriteMisses + 1
          writeCycle := stats.writeCycle + 161 }, 0, .case2b⟩
    else ⟨{ target with valid := 1 }, stats, 0, .case2b⟩
  else ⟨target, stats, 0, .unset⟩

/-- The variables after an access to an index. -/
def State.afterAccess {sets : ℕ} (s : State sets) (record : Record) (address : DecodedAddress)
    (index : Fin sets) : State sets :=
  let target := s.cache index
  let result := detailedOperation record.loadStore address.tag target s.stats
  { cache := fun i => if i = index then result.target else s.cache i
    reference := s.reference + 1
    stats := result.stats.countAccess record.loadStore
    log := s.log ++ [{
      reference := s.reference
      address := toHexString record.addressForMemoryOp
      indexHex := address.indexHex
      tag := address.tag
      valid := target.valid
      cachedTag := target.tag
      dirty := target.dirty
      hitMiss := result.hitMiss
      caseNum := result.caseNum }] }

/-- An access whose address was decoded. -/
def access {sets : ℕ} (s : State sets) (record : Record) (address : DecodedAddress) :
    Except JavaException (State sets) := do
  let index ← arrayIndex sets address.index
  return s.afterAccess record address index

/-- The body of the reading loop. -/
def step {sets : ℕ} (indexLength offsetLength : Int32) (s : State sets) (line : String) :
    Except JavaException (State sets) := do
  let record ← parseRecord line
  if record.loadStore = "-" then return s
  else
    let address ← decodeAddress indexLength offsetLength record.addressForMemoryOp
    access s record address

/-- The sizes fixed before the first line. -/
structure Geometry where
  sets : ℕ
  indexLength : Int32
  offsetLength : Int32

/-- The number of blocks, the field lengths and the allocation of the cache. -/
def setUp (cacheSize : Int32) : Except JavaException Geometry := do
  let cacheBufSize ← intDiv (cacheSize * 1024) blockByte
  let sets ← newArrayLength cacheBufSize
  return ⟨sets, intLog2 cacheBufSize, intLog2 blockByte⟩

/-- A finished simulation. -/
structure Run where
  geometry : Geometry
  final : State geometry.sets
  printed : List VerboseLine

/-- The statistics printed at the end. -/
def Run.report (run : Run) : Report := run.final.stats.report

/-- The final content of an entry. -/
def Run.target (run : Run) (index : ℕ) : Option Target :=
  if h : index < run.geometry.sets then some (run.final.cache ⟨index, h⟩) else none

/-- `Sys1.simulate`; `first` and `last` are the bounds of the verbose range. -/
def simulate (incomingStream : InputStream) (cacheSize : Int32) (verbose : Bool)
    (first last : Int32) : Except Abort Run :=
  match setUp cacheSize with
  | .error cause => .error ⟨.setUp, cause⟩
  | .ok geometry =>
    match readLoop (step geometry.indexLength geometry.offsetLength)
        (State.initial geometry.sets) incomingStream with
    | .error abort => .error abort
    | .ok final => .ok {
        geometry := geometry
        final := final
        printed := final.log.filter fun line =>
          verbose ∧ first ≤ line.reference ∧ line.reference ≤ last }

end Coursework.CacheSimulation.Sys1
