import Coursework.CacheSimulation.Trace
import Mathlib.Data.List.OfFn

/-!
# The set-associative cache simulator

`Sys2.simulate`: the ways of an index are searched in order for the tag or for an empty
way, and when all are taken by other blocks the one with the oldest last use is chosen.
The loop body is a step on the cache, the reference count and the counters; every access
leaves the data of its verbose line in the log, and the printed lines are selected at
the end.
-/

namespace Coursework.CacheSimulation.Sys2

open Coursework.Java

/-- One cache entry: valid bit, dirty bit, last use and tag in hexadecimal, `"0"` when empty. -/
structure Target where
  valid : Int32
  dirty : Int32
  lu : Int32
  tag : String
  deriving DecidableEq

/-- The content of a fresh entry. -/
def Target.empty : Target := ⟨0, 0, 0, "0"⟩

/-- The values of a line of verbose output. -/
structure VerboseLine where
  reference : Int32
  address : String
  indexHex : String
  tag : String
  valid : Int32
  cacheID : ℕ
  lu : Int32
  cachedTag : String
  dirty : Int32
  hitMiss : Int32
  caseNum : CaseNum
  deriving DecidableEq

/-- `cache[id][index]`. -/
abbrev Cache (ways sets : ℕ) := Fin ways → Fin sets → Target

/-- The variables of the loop. -/
structure State (ways sets : ℕ) where
  cache : Cache ways sets
  reference : Int32
  stats : Statistics
  log : List VerboseLine

/-- The variables before the first line. -/
def State.initial (ways sets : ℕ) : State ways sets := ⟨fun _ _ => .empty, 0, .zero, []⟩

/-- The targets of one index, in the order of the ways. -/
def column {ways sets : ℕ} (cache : Cache ways sets) (index : Fin sets) : List Target :=
  List.ofFn fun id => cache id index

/-- The loop over the ways from `id` on: `cacheID`, which both matches set, and `count`. -/
def wayLoop (tag : String) : List Target → ℕ → ℕ → ℕ × ℕ
  | [], _, count => (0, count)
  | target :: rest, id, count =>
    if tag = target.tag then (id, count)
    else if target.tag = "0" then (id, count)
    else wayLoop tag rest (id + 1) (count + 1)

/-- The scan for the oldest last use over the ways from `i` on, with the result so far. -/
def oldestLoop : List Target → ℕ → ℕ → Int32 → ℕ
  | [], _, temp, _ => temp
  | target :: rest, i, temp, oldestLu =>
    if target.lu < oldestLu then oldestLoop rest (i + 1) i target.lu
    else oldestLoop rest (i + 1) temp oldestLu

/-- The way an access works on. -/
def selectWay (tag : String) (targets : List Target) : Except JavaException ℕ :=
  match targets with
  | [] => .error .arrayIndexOutOfBounds
  | first :: rest =>
    let result := wayLoop tag targets 0 0
    .ok (if result.2 = targets.length then oldestLoop rest 1 0 first.lu else result.1)

/-- What handling a case leaves behind. -/
structure CaseResult where
  target : Target
  stats : Statistics
  hitMiss : Int32
  caseNum : CaseNum

/-- Cases 1, 2a and 2b of the detailed operation. -/
def detailedOperation (loadStore tag : String) (reference : Int32) (target : Target)
    (stats : Statistics) : CaseResult :=
  if tag = target.tag then
    if loadStore = "L" then
      ⟨{ target with lu := reference, valid := 1 },
        { stats with readCycle := stats.readCycle + 1 }, 1, .case1⟩
    else
      ⟨{ target with lu := reference, dirty := 1, valid := 1 },
        { stats with writeCycle := stats.writeCycle + 1 }, 1, .case1⟩
  else if target.tag = "0" ∨ target.dirty = 0 then
    if loadStore = "L" then
      ⟨{ valid := 1, dirty := 0, lu := reference, tag := tag },
        { stats with
          readMisses := stats.readMisses + 1
          readCycle := stats.readCycle + 81 }, 0, .case2a⟩
    else if loadStore = "S" then
      ⟨{ valid := 1, dirty := 1, lu := reference, tag := tag },
        { stats with
          writeMisses := stats.writeMisses + 1
          writeCycle := stats.writeCycle + 81 }, 0, .case2a⟩
    else ⟨{ target with valid := 1 }, stats, 0, .case2a⟩
  else if target.dirty = 1 then
    if loadStore = "L" then
      ⟨{ valid := 1, dirty := 0, lu := reference, tag := tag },
        { stats with
          readMisses := stats.readMisses + 1
          dirtyReadMisses := stats.dirtyReadMisses + 1
          readCycle := stats.readCycle + 161 }, 0, .case2b⟩
    else if loadStore = "S" then
      ⟨{ valid := 1, dirty := 1, lu := reference, tag := tag },
        { stats with
          writeMisses := stats.writeMisses + 1
          dirtyWriteMisses := stats.dirtyWriteMisses + 1
          writeCycle := stats.writeCycle + 161 }, 0, .case2b⟩
    else ⟨{ target with valid := 1 }, stats, 0, .case2b⟩
  else ⟨target, stats, 0, .unset⟩

/-- The cache with one target replaced. -/
def setTarget {ways sets : ℕ} (cache : Cache ways sets) (id : Fin ways) (index : Fin sets)
    (target : Target) : Cache ways sets :=
  fun i j => if i = id ∧ j = index then target else cache i j

/-- The bounds check of `cache[cacheID]`. -/
def wayIndex (ways cacheID : ℕ) : Except JavaException (Fin ways) :=
  if h : cacheID < ways then .ok ⟨cacheID, h⟩ else .error .arrayIndexOutOfBounds

/-- The variables after an access that works on way `id` of an index. -/
def State.afterAccess {ways sets : ℕ} (s : State ways sets) (record : Record)
    (address : DecodedAddress) (id : Fin ways) (index : Fin sets) : State ways sets :=
  let target := s.cache id index
  let result := detailedOperation record.loadStore address.tag s.reference target s.stats
  { cache := setTarget s.cache id index result.target
    reference := s.reference + 1
    stats := result.stats.countAccess record.loadStore
    log := s.log ++ [{
      reference := s.reference
      address := toHexString record.addressForMemoryOp
      indexHex := address.indexHex
      tag := address.tag
      valid := target.valid
      cacheID := id
      lu := target.lu
      cachedTag := target.tag
      dirty := target.dirty
      hitMiss := result.hitMiss
      caseNum := result.caseNum }] }

/-- An access whose address was decoded. -/
def access {ways sets : ℕ} (s : State ways sets) (record : Record) (address : DecodedAddress) :
    Except JavaException (State ways sets) := do
  let index ← arrayIndex sets address.index
  let cacheID ← selectWay address.tag (column s.cache index)
  let id ← wayIndex ways cacheID
  return s.afterAccess record address id index

/-- The body of the reading loop. -/
def step {ways sets : ℕ} (indexLength offsetLength : Int32) (s : State ways sets)
    (line : String) : Except JavaException (State ways sets) := do
  let record ← parseRecord line
  if record.loadStore = "-" then return s
  else
    let address ← decodeAddress indexLength offsetLength record.addressForMemoryOp
    access s record address

/-- The sizes fixed before the first line. -/
structure Geometry where
  ways : ℕ
  sets : ℕ
  indexLength : Int32
  offsetLength : Int32

/-- The number of blocks of each way, the field lengths and the allocation of the cache. -/
def setUp (cacheSize setAssociativity : Int32) : Except JavaException Geometry := do
  let cacheBufSize ← intDiv (cacheSize * 1024) (blockByte * setAssociativity)
  let ways ← newArrayLength setAssociativity
  let sets ← newArrayLength cacheBufSize
  return ⟨ways, sets, intLog2 cacheBufSize, intLog2 blockByte⟩

/-- A finished simulation. -/
structure Run where
  geometry : Geometry
  final : State geometry.ways geometry.sets
  printed : List VerboseLine

/-- The statistics printed at the end. -/
def Run.report (run : Run) : Report := run.final.stats.report

/-- The final content of an entry. -/
def Run.target (run : Run) (id index : ℕ) : Option Target :=
  if h : id < run.geometry.ways ∧ index < run.geometry.sets then
    some (run.final.cache ⟨id, h.1⟩ ⟨index, h.2⟩)
  else none

/-- `Sys2.simulate`; `first` and `last` are the bounds of the verbose range. -/
def simulate (incomingStream : InputStream) (cacheSize setAssociativity : Int32)
    (verbose : Bool) (first last : Int32) : Except Abort Run :=
  match setUp cacheSize setAssociativity with
  | .error cause => .error ⟨.setUp, cause⟩
  | .ok geometry =>
    match readLoop (step geometry.indexLength geometry.offsetLength)
        (State.initial geometry.ways geometry.sets) incomingStream with
    | .error abort => .error abort
    | .ok final => .ok {
        geometry := geometry
        final := final
        printed := final.log.filter fun line =>
          verbose ∧ first ≤ line.reference ∧ line.reference ≤ last }

end Coursework.CacheSimulation.Sys2
