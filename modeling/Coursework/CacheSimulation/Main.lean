import Coursework.CacheSimulation.Geometry
import Coursework.CacheSimulation.PowerOfTwo
import Coursework.CacheSimulation.ShortAddresses

/-!
# The configurations that reach the simulator

`Sys2.main` tests its two sizes for powers of two, each on its own, and keeps zero for an
argument that is missing. The sizes meet in the division that gives the number of blocks
of each way. The quotient is a usable number of sets exactly if both arguments are given,
the bytes of the cache fit an `int`, and each way has at least two blocks.
-/

namespace Coursework.CacheSimulation.Sys2

open Coursework.Java

/-- What `main` passes on to `simulate`. -/
structure Call where
  incomingStream : InputStream
  cacheSize : Int32
  setAssociativity : Int32
  verbose : Bool
  first : Int32
  last : Int32

/-- How `main` ends before it calls `simulate`. -/
inductive Stop where
  | fileNotFound
  | threw (cause : JavaException)
  | printed (message : String)
  | returned

/-- `Integer.parseInt` of an argument. -/
def parseArgument (text : String) : ExceptT Stop Option Int32 :=
  match parseInt text 10 with
  | .ok number => pure number
  | .error cause => throw (.threw cause)

/-- A size: the argument is parsed, tested, and parsed again. -/
def sizeArgument (turns : ℕ) (message : String) (text : String) : ExceptT Stop Option Int32 := do
  let number ← parseArgument text
  if ← (powerOfTwo turns number : Option Bool) then parseArgument text
  else throw (.printed message)

/-- `new FileInputStream(name)`. -/
def openArgument (openFile : String → Option InputStream) (name : String) :
    ExceptT Stop Option InputStream :=
  match openFile name with
  | some stream => pure stream
  | none => throw .fileNotFound

/-- An argument that may be missing. -/
def optional {α : Type} (argument : Option String) (default : α)
    (read : String → ExceptT Stop Option α) : ExceptT Stop Option α :=
  match argument with
  | some text => read text
  | none => pure default

/-- `main`, if its loops return within so many turns. -/
def main (turns : ℕ) (openFile : String → Option InputStream) (systemIn : InputStream)
    (args : List String) : ExceptT Stop Option Call := do
  let incomingStream ← optional args[0]? systemIn (openArgument openFile)
  let cacheSize ← optional args[1]? 0 (sizeArgument turns "Cache size has to be power of 2")
  let setAssociativity ← optional args[2]? 0
    (sizeArgument turns "Set-associativity has to be power of 2")
  match args.drop 3 with
  | flag :: ic1 :: ic2 :: _ =>
    if flag = "-v" then
      let first ← parseArgument ic1
      let last ← parseArgument ic2
      return ⟨incomingStream, cacheSize, setAssociativity, true, first, last⟩
    else throw .returned
  | _ => return ⟨incomingStream, cacheSize, setAssociativity, false, 0, 0⟩

/-- `main` calls `simulate`. -/
def Passes (openFile : String → Option InputStream) (systemIn : InputStream)
    (args : List String) (call : Call) : Prop :=
  ∃ turns, (main turns openFile systemIn args).run = some (.ok call)

/-- The sizes set up for a cache are those of the arguments, and every address beyond the first
round of the sets is decoded to one of them. -/
structure Sound (cacheSize setAssociativity : Int32) (geometry : Geometry) : Prop where
  ways : 0 < setAssociativity.toInt ∧ (geometry.ways : ℤ) = setAssociativity.toInt
  sets : 0 < geometry.sets
  size : (geometry.sets : ℤ) * setAssociativity.toInt * 16 = cacheSize.toInt * 1024
  index : 0 ≤ geometry.indexLength.toInt ∧ geometry.sets = 2 ^ geometry.indexLength.toInt.toNat
  decodes : ∀ address : Int64, 16 * (geometry.sets : ℤ) ≤ address.toInt →
    ∃ decoded, decodeAddress geometry.indexLength geometry.offsetLength address = .ok decoded ∧
      0 ≤ decoded.index.toInt ∧ decoded.index.toInt < geometry.sets

/-- A configuration can be simulated. -/
def Usable (cacheSize setAssociativity : Int32) : Prop :=
  ∃ geometry, setUp cacheSize setAssociativity = .ok geometry ∧
    Sound cacheSize setAssociativity geometry

/-- Both sizes are given, the bytes of the cache fit an `int`, and each way has at least two
blocks. -/
def Fits (args : List String) : Prop :=
  ∃ cacheSize setAssociativity : Int32,
    args[1]?.map (parseInt · 10) = some (.ok cacheSize) ∧
    args[2]?.map (parseInt · 10) = some (.ok setAssociativity) ∧
    cacheSize.toInt * 1024 < 2 ^ 31 ∧
    32 * setAssociativity.toInt ≤ cacheSize.toInt * 1024

/-- A statement of `main` that returns hands on what the one before it returned. -/
theorem run_bind_eq_ok {α β : Type} {x : ExceptT Stop Option α} {f : α → ExceptT Stop Option β}
    {b : β} (h : (x >>= f).run = some (.ok b)) :
    ∃ a, x.run = some (.ok a) ∧ (f a).run = some (.ok b) := by
  change (x.run.bind fun result => ExceptT.bindCont f result) = some (.ok b) at h
  obtain ⟨result, hx, hf⟩ := Option.bind_eq_some_iff.mp h
  cases result with
  | ok a => exact ⟨a, hx, hf⟩
  | error stop => cases hf

/-- An argument that was parsed. -/
theorem parseArgument_eq_ok {text : String} {number : Int32}
    (h : (parseArgument text).run = some (.ok number)) : parseInt text 10 = .ok number := by
  rw [parseArgument] at h
  cases hparse : parseInt text 10 with
  | ok value =>
    rw [hparse] at h
    obtain rfl := Except.ok.inj (Option.some.inj h)
    rfl
  | error cause =>
    rw [hparse] at h
    cases h

/-- A size that was accepted. -/
theorem sizeArgument_eq_ok {turns : ℕ} {message text : String} {number : Int32}
    (h : (sizeArgument turns message text).run = some (.ok number)) :
    parseInt text 10 = .ok number ∧ IsPowerOfTwo number := by
  obtain ⟨value, hvalue, htest⟩ := run_bind_eq_ok h
  obtain ⟨accepted, haccepted, hread⟩ := run_bind_eq_ok htest
  have hparse := parseArgument_eq_ok hvalue
  cases accepted with
  | false => cases hread
  | true =>
    have hnumber := parseArgument_eq_ok hread
    obtain rfl := Except.ok.inj (hparse.symm.trans hnumber)
    change (powerOfTwo turns value).map Except.ok = some (.ok true) at haccepted
    obtain ⟨result, hresult, hok⟩ := Option.map_eq_some_iff.mp haccepted
    obtain rfl := Except.ok.inj hok
    exact ⟨hnumber, isPowerOfTwo_of_accepted hresult⟩

/-- A size is zero when its argument is missing, and otherwise the argument, a power of two. -/
theorem optional_sizeArgument_eq_ok {turns : ℕ} {message : String} {argument : Option String}
    {number : Int32}
    (h : (optional argument 0 (sizeArgument turns message)).run = some (.ok number)) :
    (argument = none ∧ number = 0) ∨
      argument.map (parseInt · 10) = some (.ok number) ∧ IsPowerOfTwo number := by
  cases argument with
  | none =>
    obtain rfl := Except.ok.inj (Option.some.inj h)
    exact Or.inl ⟨rfl, rfl⟩
  | some text =>
    obtain ⟨hparse, hpower⟩ := sizeArgument_eq_ok h
    exact Or.inr ⟨congrArg some hparse, hpower⟩

/-- The sizes that `main` passes on are those it has read. -/
theorem Passes.sizes {openFile : String → Option InputStream} {systemIn : InputStream}
    {args : List String} {call : Call} (h : Passes openFile systemIn args call) :
    ((args[1]? = none ∧ call.cacheSize = 0) ∨
      args[1]?.map (parseInt · 10) = some (.ok call.cacheSize) ∧ IsPowerOfTwo call.cacheSize) ∧
    ((args[2]? = none ∧ call.setAssociativity = 0) ∨
      args[2]?.map (parseInt · 10) = some (.ok call.setAssociativity) ∧
        IsPowerOfTwo call.setAssociativity) := by
  obtain ⟨turns, hmain⟩ := h
  obtain ⟨incomingStream, -, hmain⟩ := run_bind_eq_ok hmain
  obtain ⟨cacheSize, hcacheSize, hmain⟩ := run_bind_eq_ok hmain
  obtain ⟨setAssociativity, hsetAssociativity, hmain⟩ := run_bind_eq_ok hmain
  have hcall : call.cacheSize = cacheSize ∧ call.setAssociativity = setAssociativity := by
    split at hmain
    · split at hmain
      · obtain ⟨first, -, hmain⟩ := run_bind_eq_ok hmain
        obtain ⟨last, -, hmain⟩ := run_bind_eq_ok hmain
        obtain rfl := Except.ok.inj (Option.some.inj hmain)
        exact ⟨rfl, rfl⟩
      · cases hmain
    · obtain rfl := Except.ok.inj (Option.some.inj hmain)
      exact ⟨rfl, rfl⟩
  rw [hcall.1, hcall.2]
  exact ⟨optional_sizeArgument_eq_ok hcacheSize, optional_sizeArgument_eq_ok hsetAssociativity⟩

/-- Two sizes whose bytes fit an `int`, with two blocks in each way, give a power-of-two cache. -/
theorem cacheGeometry_of_fits {cacheSize setAssociativity : Int32} (hcache : IsPowerOfTwo cacheSize)
    (hset : IsPowerOfTwo setAssociativity) (hbytes : cacheSize.toInt * 1024 < 2 ^ 31)
    (hblocks : 32 * setAssociativity.toInt ≤ cacheSize.toInt * 1024) :
    ∃ w k, CacheGeometry cacheSize setAssociativity w k := by
  obtain ⟨p, hp, hcacheSize⟩ := hcache
  obtain ⟨w, hw, hways⟩ := hset
  have hexp : w + 5 ≤ p + 10 := by
    rw [hways, hcacheSize] at hblocks
    refine (pow_le_pow_iff_right₀ (by decide : (1 : ℤ) < 2)).mp ?_
    rw [pow_add, pow_add]
    omega
  have hsize : cacheSize.toInt * 1024 = 16 * 2 ^ w * 2 ^ (p + 6 - w) := by
    calc cacheSize.toInt * 1024 = 2 ^ (p + 10) := by rw [hcacheSize, pow_add]; norm_num
      _ = 2 ^ (4 + w + (p + 6 - w)) := by congr 1; omega
      _ = 16 * 2 ^ w * 2 ^ (p + 6 - w) := by rw [pow_add, pow_add]; norm_num
  exact ⟨w, p + 6 - w, hways, hsize, by omega, hsize ▸ hbytes⟩

/-- A power-of-two cache can be simulated. -/
theorem usable_of_cacheGeometry {cacheSize setAssociativity : Int32} {w k : ℕ}
    (h : CacheGeometry cacheSize setAssociativity w k) : Usable cacheSize setAssociativity := by
  obtain ⟨indexLength, hindex, hsetUp⟩ := h.setUp_eq
  have hk31 : k < 31 := by
    have hexponents := h.exponents
    omega
  have hways := h.ways
  have hsize := h.size
  have hpos : (0 : ℤ) < 2 ^ w := by positivity
  refine ⟨_, hsetUp, ⟨?_, ?_⟩, Nat.two_pow_pos k, ?_, ⟨?_, ?_⟩, ?_⟩
  · rwa [hways]
  · push_cast
    exact hways.symm
  · rw [hsize, hways]
    push_cast
    ring
  · rw [hindex]
    exact Int.natCast_nonneg k
  · rw [hindex, Int.toNat_natCast]
  · intro address haddress
    have hsets : (0 : ℤ) < 2 ^ k := by positivity
    push_cast at haddress
    obtain ⟨⟨decoded, hdecoded, hvalue, -⟩, -⟩ := (decodes_iff_of_fields indexLength k h.index hk31
      hindex address (by omega)).mpr (by exact_mod_cast haddress)
    refine ⟨decoded, hdecoded, ?_, ?_⟩
    · rw [hvalue]
      exact Int.emod_nonneg _ (by exact_mod_cast hsets.ne')
    · rw [hvalue]
      exact Int.emod_lt_of_pos _ (by exact_mod_cast hsets)

/-- A usable cache has at least two blocks in each way. -/
theorem Usable.two_blocks {cacheSize setAssociativity : Int32}
    (h : Usable cacheSize setAssociativity) :
    32 * setAssociativity.toInt ≤ cacheSize.toInt * 1024 := by
  obtain ⟨geometry, hsetUp, hsound⟩ := h
  obtain ⟨hnonneg, hsets⟩ := hsound.index
  have hpos : geometry.indexLength.toInt ≠ 0 := by
    intro hzero
    rw [hzero] at hsets
    obtain ⟨decoded, hdecoded, -⟩ := hsound.decodes 16 (by rw [hsets]; decide)
    obtain ⟨-, -, -, -, hoffset⟩ := setUp_eq_ok hsetUp
    obtain ⟨cause, herror⟩ := decodeAddress_single geometry.indexLength hzero 16
    rw [hoffset, herror] at hdecoded
    cases hdecoded
  have htwo : (2 : ℤ) ≤ geometry.sets := by
    have hpow : 2 ^ 1 ≤ 2 ^ geometry.indexLength.toInt.toNat :=
      Nat.pow_le_pow_right (by decide) (by omega)
    omega
  have hways := hsound.ways.1
  have hsize := hsound.size
  nlinarith

/-- In a usable cache of a power of two the bytes fit an `int`: they neither wrap around to zero nor
to the least `int`. -/
theorem Usable.bytes_lt {cacheSize setAssociativity : Int32}
    (h : Usable cacheSize setAssociativity) (hcache : IsPowerOfTwo cacheSize) :
    cacheSize.toInt * 1024 < 2 ^ 31 := by
  have htwo := h.two_blocks
  obtain ⟨geometry, hsetUp, hsound⟩ := h
  obtain ⟨-, hsets, -⟩ := setUp_eq_ok hsetUp
  have hpos := hsound.sets
  have hways := hsound.ways.1
  obtain ⟨p, hp, hcacheSize⟩ := hcache
  by_contra hge
  have hp21 : 21 ≤ p := by
    by_contra hlt
    have hpow : (2 : ℤ) ^ p ≤ 2 ^ 20 := pow_le_pow_right₀ (by decide) (by omega)
    omega
  rcases Nat.lt_or_eq_of_le hp21 with hp22 | rfl
  · have hzero : cacheSize * 1024 = 0 := by
      apply Int32.toInt_inj.mp
      rw [Int32.toInt_mul, hcacheSize, show (1024 : Int32).toInt = 2 ^ 10 by decide, ← pow_add,
        show p + 10 = 32 + (p - 22) by omega, pow_add]
      exact Int.bmod_eq_zero_of_dvd (Dvd.intro _ rfl)
    rw [hzero, Int32.zero_div, Int32.toInt_zero] at hsets
    omega
  · have hwrapped : cacheSize * 1024 = Int32.minValue := by
      obtain rfl : cacheSize = 2097152 := Int32.toInt_inj.mp (hcacheSize.trans (by decide))
      decide
    rw [hcacheSize] at htwo
    have hblock : (blockByte * setAssociativity).toInt = 16 * setAssociativity.toInt := by
      rw [Int32.toInt_mul, show blockByte.toInt = 16 by decide]
      exact bmod_of_bounds (by omega) (by omega)
    have hquotient : 1 ≤ (2 : ℤ) ^ 31 / (16 * setAssociativity.toInt) :=
      (Int.le_ediv_iff_mul_le (by omega)).mpr (by omega)
    have hle : (2 : ℤ) ^ 31 / (16 * setAssociativity.toInt) ≤ 2 ^ 31 :=
      Int.ediv_le_self _ (by decide)
    rw [hwrapped, Int32.toInt_div, hblock, show Int32.minValue.toInt = -2 ^ 31 by decide,
      Int.neg_tdiv, Int.tdiv_eq_ediv_of_nonneg (by decide),
      bmod_of_bounds (by omega) (by omega)] at hsets
    omega

/-- Whatever `main` passes on can be simulated exactly if both sizes are given and fit together. -/
theorem main_usable_iff (openFile : String → Option InputStream) (systemIn : InputStream)
    (args : List String) (call : Call) (h : Passes openFile systemIn args call) :
    Usable call.cacheSize call.setAssociativity ↔ Fits args := by
  obtain ⟨hcache, hset⟩ := h.sizes
  constructor
  · intro husable
    have hblocks := husable.two_blocks
    have hways : 0 < call.setAssociativity.toInt := by
      obtain ⟨geometry, -, hsound⟩ := husable
      exact hsound.ways.1
    have hset' : args[2]?.map (parseInt · 10) = some (.ok call.setAssociativity) ∧
        IsPowerOfTwo call.setAssociativity := by
      refine hset.resolve_left ?_
      rintro ⟨-, hzero⟩
      rw [hzero] at hways
      exact absurd hways (by decide)
    have hcache' : args[1]?.map (parseInt · 10) = some (.ok call.cacheSize) ∧
        IsPowerOfTwo call.cacheSize := by
      refine hcache.resolve_left ?_
      rintro ⟨-, hzero⟩
      rw [hzero, Int32.toInt_zero] at hblocks
      omega
    exact ⟨_, _, hcache'.1, hset'.1, husable.bytes_lt hcache'.2, hblocks⟩
  · rintro ⟨cacheSize, setAssociativity, hcacheArg, hsetArg, hbytes, hblocks⟩
    have hcache' : call.cacheSize = cacheSize ∧ IsPowerOfTwo call.cacheSize := by
      rcases hcache with ⟨hnone, -⟩ | ⟨hsome, hpower⟩
      · rw [hnone] at hcacheArg
        cases hcacheArg
      · exact ⟨Except.ok.inj (Option.some.inj (hsome.symm.trans hcacheArg)), hpower⟩
    have hset' : call.setAssociativity = setAssociativity ∧
        IsPowerOfTwo call.setAssociativity := by
      rcases hset with ⟨hnone, -⟩ | ⟨hsome, hpower⟩
      · rw [hnone] at hsetArg
        cases hsetArg
      · exact ⟨Except.ok.inj (Option.some.inj (hsome.symm.trans hsetArg)), hpower⟩
    rw [← hcache'.1] at hbytes hblocks
    rw [← hset'.1] at hblocks
    obtain ⟨w, k, hgeometry⟩ := cacheGeometry_of_fits hcache'.2 hset'.2 hbytes hblocks
    exact usable_of_cacheGeometry hgeometry

/-- A cache of 16 KB with two ways. -/
theorem main_usable_two_ways :
    Usable 16 2 ↔ Fits ["trace", "16", "2"] :=
  main_usable_iff (fun _ => some (.ofLines [])) (.ofLines []) _
    ⟨.ofLines [], 16, 2, false, 0, 0⟩ ⟨6, rfl⟩

/-- A cache of 1 KB with 128 ways is accepted, although it has 64 blocks: no block is left for any
way. -/
theorem main_not_usable :
    Passes (fun _ => some (.ofLines [])) (.ofLines []) ["trace", "1", "128"]
        ⟨.ofLines [], 1, 128, false, 0, 0⟩ ∧
      ¬Usable 1 128 := by
  refine ⟨⟨9, rfl⟩, ?_⟩
  intro husable
  exact absurd husable.two_blocks (by decide)

end Coursework.CacheSimulation.Sys2
