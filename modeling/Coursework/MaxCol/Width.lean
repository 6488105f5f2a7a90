import Coursework.MaxCol.Columns

/-!
# Widths that the blocks do not divide

The program warns of such a width and goes on. The grid then has no threads for the last columns,
of which `cs` keeps what it held before.
-/

namespace Coursework.MaxCol

open Concurrency Ranking

variable {n threadsPerBlock : ℕ}

/-- The column of a thread, whatever the width. -/
def ownColumn (k : Grid n threadsPerBlock) : Fin n :=
  Fin.castLE (Nat.div_mul_le_self n threadsPerBlock) (finProdFinEquiv k)

/-- A thread computes the number of its column. -/
theorem columnOf_eq_ownColumn (k : Grid n threadsPerBlock) : columnOf k = .ofNat (ownColumn k) := by
  have hval : (ownColumn k : ℕ) = threadsPerBlock * k.1 + k.2 := Nat.add_comm _ _
  rw [columnOf, colnum, ← UInt32.ofNat_mul, ← UInt32.ofNat_add, hval]
  rfl

/-- No two threads have one column. -/
theorem ownColumn_injective : Function.Injective (ownColumn : Grid n threadsPerBlock → Fin n) :=
  (Fin.castLE_injective _).comp finProdFinEquiv.injective

/-- The columns of threads are those before the last full block ends. -/
theorem exists_ownColumn_iff (i : Fin n) : (∃ k : Grid n threadsPerBlock, ownColumn k = i) ↔
    (i : ℕ) < n / threadsPerBlock * threadsPerBlock := by
  constructor
  · rintro ⟨k, rfl⟩
    exact (finProdFinEquiv k).isLt
  · intro hlt
    refine ⟨finProdFinEquiv.symm ⟨i, hlt⟩, ?_⟩
    rw [ownColumn, Equiv.apply_symm_apply]
    rfl

/-- The running maximum of a column from zero is not its maximum exactly if its entries are
negative. -/
theorem foldl_max_zero_ne_iff (hm : Fin (n * n) → Int32) (i : Fin n) {greatest : Int32}
    (hgreatest : IsGreatest {entry | entry ∈ column hm i} greatest) :
    (column hm i).foldl max 0 ≠ greatest ↔ ∀ j, cell hm j i < 0 := by
  have hiff : (column hm i).foldl max 0 = greatest ↔
      IsGreatest {entry | entry ∈ column hm i} ((column hm i).foldl max 0) :=
    ⟨fun heq => heq ▸ hgreatest, fun h => h.unique hgreatest⟩
  rw [Ne, hiff, isGreatest_foldl_max_iff, column]
  simp only [List.mem_ofFn, exists_exists_eq_and, not_exists, not_le]

/-- Whatever the width, every order of the threads ends, and the check then counts the columns of
threads that have only negative entries, and those other columns of which `cs` did not happen to
hold the maximum. -/
theorem launch_checkArray (threadsPerBlock : ℕ) (hsize : n * n * 4 < 2 ^ 31)
    (hm : Fin (n * n) → Int32) (garbage : Fin n → Int32) :
    ∃ check : Fin n → Int32, (∀ i, checkCs hm i = some (check i)) ∧
      (∀ i, IsGreatest {entry | entry ∈ column hm i} (check i)) ∧
      (launch n threadsPerBlock hm garbage).Delivers fun s =>
        checkArray s.shared check = (List.finRange n).countP fun i : Fin n =>
          if (i : ℕ) < n / threadsPerBlock * threadsPerBlock then decide (∀ j, cell hm j i < 0)
          else decide (garbage i ≠ check i) := by
  choose first hfirst hcheck using checkCs_eq hsize hm
  have hgreatest := fun i => isGreatest_foldl_max_of_mem (hfirst i)
  refine ⟨_, hcheck, hgreatest, ?_⟩
  refine (launch_writes columnOf_eq_ownColumn ownColumn_injective hsize hm garbage).imp fun s hs => ?_
  obtain ⟨hwritten, hrest⟩ := hs
  refine List.countP_congr fun i _ => ?_
  split_ifs with hown
  · obtain ⟨k, rfl⟩ := (exists_ownColumn_iff i).mpr hown
    rw [decide_eq_true_iff, decide_eq_true_iff, hwritten k]
    exact foldl_max_zero_ne_iff hm _ (hgreatest _)
  · rw [hrest i fun k hk => hown ((exists_ownColumn_iff i).mp ⟨k, hk⟩)]

/-- Three columns and blocks of two threads: the last column keeps what it held. -/
theorem launch_checkArray_three :
    ∃ check : Fin 3 → Int32, check 2 = 5 ∧
      (launch 3 2 (fun _ => 5) fun _ => 0).Delivers fun s => checkArray s.shared check = 1 := by
  obtain ⟨check, hcheck, -, hdelivers⟩ :=
    launch_checkArray 2 (by decide) (fun _ : Fin (3 * 3) => (5 : Int32)) fun _ => 0
  have hfive : ∀ i, check i = 5 := by
    intro i
    have hread : ∀ i : Fin 3, checkCs (fun _ : Fin (3 * 3) => (5 : Int32)) i = some 5 := by decide
    exact Option.some.inj ((hcheck i).symm.trans (hread i))
  refine ⟨check, hfive 2, hdelivers.imp fun s hs => hs.trans ?_⟩
  simp only [hfive]
  decide

end Coursework.MaxCol
