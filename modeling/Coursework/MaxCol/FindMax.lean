import Coursework.Concurrency.ForkJoin
import Mathlib.Data.List.ProdSigma

/-!
# Column maxima

The kernel `findMax` computes the maximum of one column in each thread of a grid, and `main`
computes the maxima of all columns again to check them. The matrix is stored by rows. An
access outside an array has no result.
-/

namespace Coursework.MaxCol

open Concurrency

/-- The element of an array that an index selects, if it is one of the array. -/
def index (size : ℕ) (i : Int32) : Option (Fin size) :=
  if h : 0 ≤ i.toInt ∧ i.toInt < size then some ⟨i.toInt.toNat, by omega⟩ else none

/-- The loop of a thread with `k` and `max`, the write to `cs`, or the end. -/
inductive Thread where
  | loop (k max : Int32)
  | write (max : Int32)
  | exited

/-- The loop test. -/
def loopTest (n k max : Int32) : Thread := if k < n then .loop k max else .write max

/-- `colnum`, computed from `blockDim.x`, `blockIdx.x` and `threadIdx.x`. -/
def colnum (blockDim blockIdx threadIdx : UInt32) : Int32 := (blockDim * blockIdx + threadIdx).toInt32

/-- A step of `findMax` on the array `cs`, if it has one. -/
def findMax {n : ℕ} (m : Fin (n * n) → Int32) (colnum : Int32) :
    Thread → (Fin n → Int32) → Option (Thread × (Fin n → Int32))
  | .loop k max, cs =>
    match index (n * n) (k * .ofNat n + colnum) with
    | some i => some (loopTest (.ofNat n) (k + 1) (if max ≤ m i then m i else max), cs)
    | none => none
  | .write max, cs =>
    match index n colnum with
    | some c => some (.exited, Function.update cs c max)
    | none => none
  | .exited, _ => none

/-- Whether a thread has ended. -/
def Thread.hasExited : Thread → Bool
  | .exited => true
  | _ => false

/-- A thread that has ended has no step. -/
theorem findMax_of_hasExited {n : ℕ} (m : Fin (n * n) → Int32) (colnum : Int32) (t : Thread)
    (cs : Fin n → Int32) (hexited : t.hasExited = true) : findMax m colnum t cs = none := by
  cases t <;> first | rfl | cases hexited

/-- The blocks of the grid and the threads of a block. -/
abbrev Grid (n threadsPerBlock : ℕ) : Type := Fin (n / threadsPerBlock) × Fin threadsPerBlock

/-- The column of a thread of the grid. -/
def columnOf {n threadsPerBlock : ℕ} (k : Grid n threadsPerBlock) : Int32 :=
  colnum (.ofNat threadsPerBlock) (.ofNat k.1) (.ofNat k.2)

/-- The threads of the grid, block by block. -/
def gridOrder (n threadsPerBlock : ℕ) : List (Grid n threadsPerBlock) :=
  List.finRange (n / threadsPerBlock) ×ˢ List.finRange threadsPerBlock

/-- No thread comes twice. -/
theorem nodup_gridOrder (n threadsPerBlock : ℕ) : (gridOrder n threadsPerBlock).Nodup :=
  (List.nodup_finRange _).product (List.nodup_finRange _)

/-- Every thread comes. -/
theorem mem_gridOrder {n threadsPerBlock : ℕ} (k : Grid n threadsPerBlock) :
    k ∈ gridOrder n threadsPerBlock :=
  List.mem_product.mpr ⟨List.mem_finRange _, List.mem_finRange _⟩

/-- The launch of the kernel, which starts all threads of the grid, and the wait for them to end;
`garbage` is what `cs` holds before. -/
def launch (n threadsPerBlock : ℕ) (m : Fin (n * n) → Int32) (garbage : Fin n → Int32) :
    Team (Grid n threadsPerBlock) Thread (Fin n → Int32) Unit where
  start _ := loopTest (.ofNat n) 0 0
  step k := findMax m (columnOf k)
  exited := Thread.hasExited
  exited_step k := findMax_of_hasExited m (columnOf k)
  merge _ _ _ := ()
  shared := garbage
  result := ()
  order := gridOrder n threadsPerBlock
  nodup := nodup_gridOrder n threadsPerBlock
  complete := mem_gridOrder

/-- The element that `main` reads at an index of the matrix. -/
def element {n : ℕ} (hm : Fin (n * n) → Int32) (i : Int32) : Option Int32 :=
  (index (n * n) i).map hm

/-- `checkCs[i]`, after the loop over `j`. -/
def checkCs {n : ℕ} (hm : Fin (n * n) → Int32) (i : Fin n) : Option Int32 :=
  (element hm (.ofNat i)).bind fun first =>
    (List.range n).foldlM (fun best j =>
      (element hm (.ofNat i + .ofNat j * .ofNat n)).map fun entry =>
        if best < entry then entry else best) first

/-- `checkArray`, the number of indices at which two arrays differ. -/
def checkArray {size : ℕ} (x y : Fin size → Int32) : ℕ :=
  (List.finRange size).countP fun i => x i ≠ y i

end Coursework.MaxCol
