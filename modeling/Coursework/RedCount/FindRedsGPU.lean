import Coursework.MaxCol.Columns

/-!
# Red particles nearby

The kernel `findRedsGPU` counts for one particle in each thread of a grid the red particles in
its neighborhood. A particle has three coordinates and a color, which are four numbers in a
row. The count is kept in the array `numI` and is increased there by a read and a write.
-/

namespace Coursework.RedCount

open Concurrency MaxCol

/-- The operations on `float` of the program; `near` is the comparison with `NEIGHBORHOOD`, and
`uniform` divides by `RAND_MAX`. -/
structure FloatArithmetic (F : Type*) where
  sub : F → F → F
  mul : F → F → F
  add : F → F → F
  sqrt : F → F
  near : F → Bool
  eq : F → F → Bool
  ofInt : Int32 → F
  uniform : Int32 → F

variable {F : Type*} (float : FloatArithmetic F) {n : ℕ}

/-- The number that is read at an index of `p`. -/
def element (p : Fin (n * 4) → F) (i : Int32) : Option F := (index (n * 4) i).map p

/-- `findDistanceGPU`. -/
def findDistanceGPU (p : Fin (n * 4) → F) (i j : Int32) : Option F := do
  let dx := float.sub (← element p (i * 4)) (← element p (j * 4))
  let dy := float.sub (← element p (i * 4 + 1)) (← element p (j * 4 + 1))
  let dz := float.sub (← element p (i * 4 + 2)) (← element p (j * 4 + 2))
  return float.sqrt (float.add (float.add (float.mul dx dx) (float.mul dy dy)) (float.mul dz dz))

/-- The write of zero, the loop at `j`, the read and the write of `numI[i]++`, or the end. -/
inductive Thread where
  | reset
  | loop (j : Int32)
  | read (j : Int32)
  | write (j count : Int32)
  | exited

/-- The loop test, where `n` is `NUMPARTICLES`. -/
def loopTest (n j : Int32) : Thread := if j < n then .loop j else .exited

/-- The comparison in the loop; the color is read after the distance. -/
def isRedNearby (p : Fin (n * 4) → F) (i j : Int32) : Option Bool :=
  if i ≠ j then
    (findDistanceGPU float p i j).bind fun distance =>
      if float.near distance then
        (element p (j * 4 + 3)).map fun color => float.eq color (float.ofInt 0xff0000)
      else some false
  else some false

/-- A step of `findRedsGPU` on the array `numI`, if it has one. -/
def findRedsGPU (p : Fin (n * 4) → F) (i : Int32) :
    Thread → (Fin n → Int32) → Option (Thread × (Fin n → Int32))
  | .reset, numI =>
    (index n i).map fun own => (loopTest (.ofNat n) 0, Function.update numI own 0)
  | .loop j, numI =>
    (isRedNearby float p i j).map fun counted =>
      (if counted then .read j else loopTest (.ofNat n) (j + 1), numI)
  | .read j, numI => (index n i).map fun own => (.write j (numI own), numI)
  | .write j count, numI =>
    (index n i).map fun own =>
      (loopTest (.ofNat n) (j + 1), Function.update numI own (count + 1))
  | .exited, _ => none

/-- Whether a thread has ended. -/
def Thread.hasExited : Thread → Bool
  | .exited => true
  | _ => false

/-- A thread that has ended has no step. -/
theorem findRedsGPU_of_hasExited (p : Fin (n * 4) → F) (i : Int32) (t : Thread)
    (numI : Fin n → Int32) (hexited : t.hasExited = true) : findRedsGPU float p i t numI = none := by
  cases t <;> first | rfl | cases hexited

/-- The launch of the kernel and the wait for its threads; `garbage` is what `numI` holds before. -/
def launch (threadsPerBlock : ℕ) (p : Fin (n * 4) → F) (garbage : Fin n → Int32) :
    Team (Grid n threadsPerBlock) Thread (Fin n → Int32) Unit where
  start _ := .reset
  step k := findRedsGPU float p (columnOf k)
  exited := Thread.hasExited
  exited_step k := findRedsGPU_of_hasExited float p (columnOf k)
  merge _ _ _ := ()
  shared := garbage
  result := ()
  order := gridOrder n threadsPerBlock
  nodup := nodup_gridOrder n threadsPerBlock
  complete := mem_gridOrder

/-- The color for a roll of `initPos`. -/
def color (roll : Int32) : Int32 :=
  if roll = 0 then 0xff0000 else if roll = 1 then 0x00ff00 else 0x0000ff

/-- The turn of the loop of `initPos` for one particle, which takes four results of `rand`. -/
def initParticle (rand : ℕ → Int32) (p : Fin (n * 4) → F) (i : Fin n) : Fin (n * 4) → F :=
  let p := Function.update p (finProdFinEquiv (i, 0)) (float.uniform (rand (4 * i)))
  let p := Function.update p (finProdFinEquiv (i, 1)) (float.uniform (rand (4 * i + 1)))
  let p := Function.update p (finProdFinEquiv (i, 2)) (float.uniform (rand (4 * i + 2)))
  Function.update p (finProdFinEquiv (i, 3)) (float.ofInt (color (rand (4 * i + 3) % 3)))

/-- `initPos`, where `rand` gives the results of the calls in order. -/
def initPos (rand : ℕ → Int32) (p : Fin (n * 4) → F) : Fin (n * 4) → F :=
  (List.finRange n).foldl (initParticle float rand) p

/-- The lines that `dumpResults` writes. -/
def dumpResults (index : Fin n → Int32) : List String :=
  (List.finRange n).map fun i => toString i.val ++ " " ++ toString (index i).toInt ++ "\n"

/-- A number of a particle. -/
def part (p : Fin (n * 4) → F) (k : Fin 4) (i : Fin n) : F := p (finProdFinEquiv (i, k))

/-- The distance of two particles. -/
def distance (p : Fin (n * 4) → F) (i j : Fin n) : F :=
  let dx := float.sub (part p 0 i) (part p 0 j)
  let dy := float.sub (part p 1 i) (part p 1 j)
  let dz := float.sub (part p 2 i) (part p 2 j)
  float.sqrt (float.add (float.add (float.mul dx dx) (float.mul dy dy)) (float.mul dz dz))

/-- A particle has the color red. -/
def Red (p : Fin (n * 4) → F) (j : Fin n) : Prop :=
  float.eq (part p 3 j) (float.ofInt 0xff0000) = true

instance (p : Fin (n * 4) → F) : DecidablePred (Red float p) :=
  fun _ => inferInstanceAs (Decidable (_ = true))

/-- Another particle is in the neighborhood. -/
def Near (p : Fin (n * 4) → F) (i j : Fin n) : Prop :=
  i ≠ j ∧ float.near (distance float p i j) = true

instance (p : Fin (n * 4) → F) : DecidableRel (Near float p) :=
  fun _ _ => inferInstanceAs (Decidable (_ ∧ _))

end Coursework.RedCount
