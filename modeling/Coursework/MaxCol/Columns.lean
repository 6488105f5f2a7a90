import Coursework.MaxCol.FindMax
import Coursework.Ranking.RunningMax
import Mathlib.Data.Fintype.Prod
import Mathlib.Logic.Equiv.Fin.Basic

/-!
# When the kernel and the check agree

Each thread of the grid computes the running maximum of its own column from zero, and the
check computes it from the first entry. The columns are those of the threads, each once, so
that no order of the threads makes a difference.
-/

namespace Coursework.MaxCol

open Concurrency Ranking

instance linearOrderInt32 : LinearOrder Int32 where
  le_refl := Int32.le_refl
  le_trans _ _ _ := Int32.le_trans
  le_antisymm _ _ := Int32.le_antisymm
  le_total := Int32.le_total
  lt_iff_le_not_ge _ _ := Std.LawfulOrderLT.lt_iff _ _
  toDecidableLE := inferInstance

variable {n threadsPerBlock : ℕ}

/-- The entry in a row and a column. -/
def cell (hm : Fin (n * n) → Int32) (j i : Fin n) : Int32 := hm (finProdFinEquiv (j, i))

/-- The entries of a column. -/
def column (hm : Fin (n * n) → Int32) (i : Fin n) : List Int32 := List.ofFn fun j => cell hm j i

/-- The threads of the grid have the columns, each one once. -/
def gridColumn (hdvd : threadsPerBlock ∣ n) : Grid n threadsPerBlock ≃ Fin n :=
  finProdFinEquiv.trans (finCongr (Nat.div_mul_cancel hdvd))

/-- A thread computes the number of its column. -/
theorem columnOf_eq (hdvd : threadsPerBlock ∣ n) (k : Grid n threadsPerBlock) :
    columnOf k = .ofNat (gridColumn hdvd k) := by
  have hval : (gridColumn hdvd k : ℕ) = threadsPerBlock * k.1 + k.2 := Nat.add_comm _ _
  rw [columnOf, colnum, ← UInt32.ofNat_mul, ← UInt32.ofNat_add, hval]
  rfl

/-- A number below the size of an array is the index of its element. -/
theorem index_ofNat {size : ℕ} (hsize : size ≤ 2 ^ 31) (x : ℕ) (hx : x < size) :
    index size (.ofNat x) = some ⟨x, hx⟩ := by
  have hint : (Int32.ofNat x).toInt = x := Int32.toInt_ofNat_of_lt (by omega)
  rw [index, dif_pos ⟨by omega, by omega⟩]
  simp only [hint, Int.toNat_natCast]

/-- The index of an entry of the matrix. -/
theorem index_cell (hsize : n * n * 4 < 2 ^ 31) (j i : Fin n) :
    index (n * n) (.ofNat j * .ofNat n + .ofNat i) = some (finProdFinEquiv (j, i)) := by
  have hval : (finProdFinEquiv (j, i) : ℕ) = j * n + i :=
    (Nat.add_comm _ _).trans (congrArg (· + (i : ℕ)) (Nat.mul_comm _ _))
  rw [← Int32.ofNat_mul, ← Int32.ofNat_add, ← hval]
  exact index_ofNat (by omega) _ (finProdFinEquiv (j, i)).isLt

/-- The running maximum of the beginning of a column, one row further. -/
theorem foldl_take_succ (hm : Fin (n * n) → Int32) (i j : Fin n) (start : Int32) :
    ((column hm i).take (j + 1)).foldl max start =
      max (((column hm i).take j).foldl max start) (cell hm j i) := by
  rw [List.take_add_one, column, List.getElem?_ofFn, dif_pos j.isLt, Option.toList_some,
    List.foldl_append]
  rfl

/-- The beginning of a column that has all its rows. -/
theorem take_column (hm : Fin (n * n) → Int32) (i : Fin n) : (column hm i).take n = column hm i :=
  List.take_of_length_le (List.length_ofFn).le

/-- A thread has the running maximum of the rows of its column that it has read. -/
def Thread.Computes (hm : Fin (n * n) → Int32) (i : Fin n) : Thread → Prop
  | .loop k max => ∃ j : Fin n, k = .ofNat j ∧ max = ((column hm i).take j).foldl Max.max 0
  | .write max => max = (column hm i).foldl Max.max 0
  | .exited => True

/-- The loop test after so many rows. -/
theorem computes_loopTest (hsize : n * n * 4 < 2 ^ 31) (hm : Fin (n * n) → Int32) (i : Fin n)
    (rows : ℕ) (hrows : rows ≤ n) :
    (loopTest (.ofNat n) (.ofNat rows) (((column hm i).take rows).foldl max 0)).Computes hm i := by
  have hn : n ≤ n * n := Nat.le_mul_self n
  rw [loopTest]
  by_cases hlt : rows < n
  · rw [if_pos (Int32.ofNat_lt_iff_lt (by omega) (by omega) |>.mpr hlt)]
    exact ⟨⟨rows, hlt⟩, rfl, rfl⟩
  · obtain rfl := Nat.le_antisymm hrows (Nat.le_of_not_lt hlt)
    rw [if_neg Int32.lt_irrefl, take_column]
    rfl

/-- The loop test does not end a thread. -/
theorem hasExited_loopTest (n k max : Int32) : (loopTest n k max).hasExited = false := by
  rw [loopTest]
  split <;> rfl

/-- A turn of the loop of a thread. -/
theorem findMax_loop (hsize : n * n * 4 < 2 ^ 31) (hm : Fin (n * n) → Int32) (i j : Fin n)
    (best : Int32) (cs : Fin n → Int32) :
    findMax hm (.ofNat i) (.loop (.ofNat j) best) cs =
      some (loopTest (.ofNat n) (.ofNat (j + 1)) (max best (cell hm j i)), cs) := by
  simp only [findMax, index_cell hsize j i, max_def, Int32.ofNat_add]
  rfl

/-- The write of a thread. -/
theorem findMax_write (hsize : n * n * 4 < 2 ^ 31) (hm : Fin (n * n) → Int32) (i : Fin n)
    (best : Int32) (cs : Fin n → Int32) :
    findMax hm (.ofNat i) (.write best) cs = some (.exited, Function.update cs i best) := by
  have hn : n ≤ n * n := Nat.le_mul_self n
  simp only [findMax, index_ofNat (show n ≤ 2 ^ 31 by omega) i i.isLt]

/-- A step of a thread goes on with the running maximum, and writes it at the end. -/
theorem Thread.Computes.step (hsize : n * n * 4 < 2 ^ 31) {hm : Fin (n * n) → Int32} {i : Fin n}
    {t t' : Thread} {cs cs' : Fin n → Int32} (h : t.Computes hm i)
    (hstep : findMax hm (.ofNat i) t cs = some (t', cs')) :
    t'.Computes hm i ∧ (t'.hasExited = false ∧ cs' = cs ∨
      t'.hasExited = true ∧ cs' = Function.update cs i ((column hm i).foldl max 0)) := by
  cases t with
  | loop k best =>
    obtain ⟨j, rfl, rfl⟩ := h
    rw [findMax_loop hsize, ← foldl_take_succ] at hstep
    obtain ⟨rfl, rfl⟩ := Prod.mk.inj (Option.some.inj hstep)
    exact ⟨computes_loopTest hsize hm i (j + 1) j.isLt,
      Or.inl ⟨hasExited_loopTest _ _ _, rfl⟩⟩
  | write best =>
    obtain rfl : best = _ := h
    rw [findMax_write hsize] at hstep
    obtain ⟨rfl, rfl⟩ := Prod.mk.inj (Option.some.inj hstep)
    exact ⟨trivial, Or.inr ⟨rfl, rfl⟩⟩
  | exited => cases hstep

/-- A thread that has not ended can step. -/
theorem Thread.Computes.exists_step (hsize : n * n * 4 < 2 ^ 31) {hm : Fin (n * n) → Int32}
    {i : Fin n} {t : Thread} (h : t.Computes hm i) (hexited : t.hasExited = false)
    (cs : Fin n → Int32) : ∃ next, findMax hm (.ofNat i) t cs = some next := by
  cases t with
  | loop k best =>
    obtain ⟨j, rfl, -⟩ := h
    exact ⟨_, findMax_loop hsize hm i j best cs⟩
  | write best => exact ⟨_, findMax_write hsize hm i best cs⟩
  | exited => cases hexited

/-- A thread computes the maximum of its column, and has written it if it has ended. -/
structure Thread.Leaves (hm : Fin (n * n) → Int32) (i : Fin n) (cs : Fin n → Int32) (t : Thread) :
    Prop where
  computes : t.Computes hm i
  written : t.hasExited = true → cs i = (column hm i).foldl max 0

/-- The steps that a thread has left. -/
def Thread.left (n : ℕ) : Thread → ℕ
  | .loop k _ => n - k.toInt.toNat + 2
  | .write _ => 1
  | .exited => 0

/-- Every step of a thread uses up one. -/
theorem Thread.Computes.left_lt (hsize : n * n * 4 < 2 ^ 31) {hm : Fin (n * n) → Int32} {i : Fin n}
    {t t' : Thread} {cs cs' : Fin n → Int32} (h : t.Computes hm i)
    (hstep : findMax hm (.ofNat i) t cs = some (t', cs')) : t'.left n < t.left n := by
  have hn : n ≤ n * n := Nat.le_mul_self n
  cases t with
  | loop k best =>
    obtain ⟨j, rfl, -⟩ := h
    have hj : (Int32.ofNat j).toInt = j := Int32.toInt_ofNat_of_lt (by omega)
    have hnext : (Int32.ofNat (j + 1)).toInt = (j + 1 : ℕ) := Int32.toInt_ofNat_of_lt (by omega)
    rw [findMax_loop hsize] at hstep
    obtain ⟨rfl, -⟩ := Prod.mk.inj (Option.some.inj hstep)
    rw [loopTest]
    split
    · simp only [Thread.left, hj, hnext]
      omega
    · exact Nat.lt_of_lt_of_le (Nat.lt_succ_self 1) (Nat.le_add_left 2 _)
  | write best =>
    rw [findMax_write hsize] at hstep
    obtain ⟨rfl, -⟩ := Prod.mk.inj (Option.some.inj hstep)
    exact Nat.zero_lt_one
  | exited => cases hstep

section Launch

variable {owned : Grid n threadsPerBlock → Fin n} (howned : ∀ k, columnOf k = .ofNat (owned k))
  (hinjective : Function.Injective owned) (hsize : n * n * 4 < 2 ^ 31) {hm : Fin (n * n) → Int32}
  {garbage : Fin n → Int32} {s : TeamState (Grid n threadsPerBlock) Thread (Fin n → Int32) Unit}

include howned hinjective hsize

/-- Every thread has the running maximum of its own column in every reachable state, and has written
it if it has ended. Nothing else is written. -/
theorem leaves_of_reachable (hs : (launch n threadsPerBlock hm garbage).Reachable s) :
    (∀ k t, s.threads k = some t → t.Leaves hm (owned k) s.shared) ∧
      ∀ i, (∀ k, owned k ≠ i) → s.shared i = garbage i := by
  apply hs.threads_invariant fun threads cs =>
    (∀ k t, threads k = some t → t.Leaves hm (owned k) cs) ∧
      ∀ i, (∀ k, owned k ≠ i) → cs i = garbage i
  · refine ⟨?_, fun i _ => rfl⟩
    intro k t hnone
    cases hnone
  · rintro threads cs i ⟨hinv, hrest⟩ _
    refine ⟨?_, hrest⟩
    intro k t hk
    by_cases hki : k = i
    · subst hki
      rw [Function.update_self] at hk
      obtain rfl := Option.some.inj hk
      refine ⟨computes_loopTest hsize hm _ 0 (Nat.zero_le n), fun hexited => ?_⟩
      exact absurd (hexited.symm.trans (hasExited_loopTest _ _ _)) (by decide)
    · rw [Function.update_of_ne hki] at hk
      exact hinv k t hk
  · rintro threads cs i t₁ t₂ cs' ⟨hinv, hrest⟩ hi hstep
    change findMax hm (columnOf i) t₁ cs = _ at hstep
    rw [howned] at hstep
    obtain ⟨hcomputes, hwrites⟩ := (hinv i t₁ hi).computes.step hsize hstep
    refine ⟨?_, ?_⟩
    · intro k t hk
      by_cases hki : k = i
      · subst hki
        rw [Function.update_self] at hk
        obtain rfl := Option.some.inj hk
        refine ⟨hcomputes, fun hexited => ?_⟩
        rcases hwrites with ⟨hrunning, -⟩ | ⟨-, rfl⟩
        · exact absurd (hexited.symm.trans hrunning) (by decide)
        · exact Function.update_self _ _ _
      · rw [Function.update_of_ne hki] at hk
        obtain ⟨hk', hwritten⟩ := hinv k t hk
        refine ⟨hk', fun hexited => ?_⟩
        rcases hwrites with ⟨-, rfl⟩ | ⟨-, rfl⟩
        · exact hwritten hexited
        · rw [Function.update_of_ne (hinjective.ne hki), hwritten hexited]
    · intro c hc
      rcases hwrites with ⟨-, rfl⟩ | ⟨-, rfl⟩
      · exact hrest c hc
      · rw [Function.update_of_ne (hc i).symm, hrest c hc]

/-- Every order of the threads ends, with the running maximum of each column that a thread has in
`cs`, and the others left as they were. -/
theorem launch_writes (hm : Fin (n * n) → Int32) (garbage : Fin n → Int32) :
    (launch n threadsPerBlock hm garbage).Delivers fun s =>
      (∀ k, s.shared (owned k) = (column hm (owned k)).foldl max 0) ∧
        ∀ i, (∀ k, owned k ≠ i) → s.shared i = garbage i := by
  refine ⟨?_, ?_, ?_⟩
  · refine ⟨(launch n threadsPerBlock hm garbage).remaining (fun _ => Thread.left n)
      (launch n threadsPerBlock hm garbage).initial, ?_⟩
    intro schedule s hrun
    refine (launch n threadsPerBlock hm garbage).schedule_length_le (fun _ => Thread.left n) ?_
      schedule hrun
    intro s hs k t t' cs hthread hstep
    change findMax hm (columnOf k) t s.shared = some (t', cs) at hstep
    rw [howned] at hstep
    have hleaves := (leaves_of_reachable howned hinjective hsize hs).1 k t hthread
    exact hleaves.computes.left_lt hsize hstep
  · intro s hs hstuck
    apply hs.returned_of_stuck _ hstuck
    intro k t hthread hexited
    have hleaves := (leaves_of_reachable howned hinjective hsize hs).1 k t hthread
    obtain ⟨next, hnext⟩ := hleaves.computes.exists_step hsize hexited s.shared
    rw [← howned] at hnext
    refine ⟨k, ?_⟩
    simp [Team.threadStep, hthread, launch, hnext]
  · intro s hs hreturned
    obtain ⟨hleaves, hrest⟩ := leaves_of_reachable howned hinjective hsize hs
    refine ⟨fun k => ?_, hrest⟩
    obtain ⟨t, hthread, hexited⟩ := (hs.returned hreturned).1 k
    exact (hleaves k t hthread).written hexited

end Launch

/-- Every order of the threads ends, with the running maximum of each column in `cs`. -/
theorem launch_delivers (hdvd : threadsPerBlock ∣ n) (hsize : n * n * 4 < 2 ^ 31)
    (hm : Fin (n * n) → Int32) (garbage : Fin n → Int32) :
    (launch n threadsPerBlock hm garbage).Delivers
      fun s => ∀ i, s.shared i = (column hm i).foldl max 0 := by
  refine (launch_writes (columnOf_eq hdvd) (gridColumn hdvd).injective hsize hm garbage).imp
    fun s hs i => ?_
  have hwritten := hs.1 ((gridColumn hdvd).symm i)
  rwa [Equiv.apply_symm_apply] at hwritten

/-- The check computes the running maximum of a column from its first entry. -/
theorem checkCs_eq (hsize : n * n * 4 < 2 ^ 31) (hm : Fin (n * n) → Int32) (i : Fin n) :
    ∃ first ∈ column hm i, checkCs hm i = some ((column hm i).foldl max first) := by
  have hn : n ≤ n * n := Nat.le_mul_self n
  have hpos : 0 < n := i.pos
  have helement : ∀ j : Fin n,
      element hm (.ofNat i + .ofNat j * .ofNat n) = some (cell hm j i) := by
    intro j
    rw [element, Int32.add_comm, index_cell hsize j i]
    rfl
  have hrows : ∀ rows ≤ n, ∀ first, (List.range rows).foldlM (fun best j =>
      (element hm (.ofNat i + .ofNat j * .ofNat n)).map fun entry =>
        if best < entry then entry else best) first =
      some (((column hm i).take rows).foldl max first) := by
    intro rows hrows first
    induction rows with
    | zero => rfl
    | succ rows ih =>
      have hnext := foldl_take_succ hm i ⟨rows, hrows⟩ first
      rw [max_def_lt] at hnext
      rw [List.range_succ, List.foldlM_append, ih (Nat.le_of_succ_le hrows), hnext]
      simp only [List.foldlM_cons, List.foldlM_nil, helement ⟨rows, hrows⟩]
      rfl
  have hfirst : element hm (.ofNat i) = some (cell hm ⟨0, hpos⟩ i) := by
    have hzero := helement ⟨0, hpos⟩
    rwa [show Int32.ofNat i + Int32.ofNat 0 * Int32.ofNat n = Int32.ofNat i by grind] at hzero
  refine ⟨cell hm ⟨0, hpos⟩ i, List.mem_ofFn.mpr ⟨_, rfl⟩, ?_⟩
  rw [checkCs, hfirst, Option.bind_some, hrows n le_rfl, take_column]

/-- The check finds no difference exactly between equal arrays. -/
theorem checkArray_eq_zero_iff (x y : Fin n → Int32) : checkArray x y = 0 ↔ x = y := by
  rw [checkArray, List.countP_eq_zero]
  simp only [List.mem_finRange, true_implies, decide_eq_true_eq, not_not, funext_iff, ne_eq]

/-- The kernel leaves the maxima of the columns in every order of its threads, and the check finds no
difference, exactly if every column has an entry that is not negative. -/
theorem columns_agree_iff (hdvd : threadsPerBlock ∣ n) (hsize : n * n * 4 < 2 ^ 31)
    (hm : Fin (n * n) → Int32) (garbage : Fin n → Int32) :
    ∃ check : Fin n → Int32, (∀ i, checkCs hm i = some (check i)) ∧
      ((launch n threadsPerBlock hm garbage).Delivers (fun s =>
          (∀ i, IsGreatest {entry | entry ∈ column hm i} (s.shared i)) ∧
            s.shared = check ∧ checkArray s.shared check = 0) ↔
        ∀ i, ∃ j, 0 ≤ cell hm j i) := by
  choose first hfirst hcheck using checkCs_eq hsize hm
  refine ⟨_, hcheck, (launch_delivers hdvd hsize hm garbage).iff_of_forall ?_⟩
  intro s hs
  have hentries : (∀ i, ∃ j, 0 ≤ cell hm j i) ↔
      ∀ i, IsGreatest {entry | entry ∈ column hm i} (s.shared i) := by
    refine forall_congr' fun i => ?_
    rw [hs i, isGreatest_foldl_max_iff, column]
    simp only [List.mem_ofFn, exists_exists_eq_and]
  rw [hentries, checkArray_eq_zero_iff, and_self]
  refine ⟨And.left, fun hgreatest => ⟨hgreatest, funext fun i => ?_⟩⟩
  exact (hgreatest i).unique (isGreatest_foldl_max_of_mem (hfirst i))

/-- The matrix with rows `4, -4` and `-4, 4`, in two blocks of one thread. -/
theorem columns_agree_two :
    ∃ check : Fin 2 → Int32, (∀ i, checkCs (fun k => if k.val % 3 = 0 then 4 else -4) i =
        some (check i)) ∧
      (launch 2 1 (fun k => if k.val % 3 = 0 then 4 else -4) (fun _ => 0)).Delivers fun s =>
        (∀ i, IsGreatest {entry | entry ∈ column (fun k => if k.val % 3 = 0 then 4 else -4) i}
            (s.shared i)) ∧
          s.shared = check ∧ checkArray s.shared check = 0 := by
  obtain ⟨check, hcheck, hiff⟩ := columns_agree_iff (n := 2) (by decide : 1 ∣ 2) (by decide)
    (fun k => if k.val % 3 = 0 then 4 else -4) (fun _ => 0)
  exact ⟨check, hcheck, hiff.mpr (by decide)⟩

/-- The matrix of the one entry -1: the kernel leaves 0, and the check computes -1. -/
theorem not_columns_agree_negative :
    ∃ s, (launch 1 1 (fun _ => -1) (fun _ => 0)).Reachable s ∧
      (launch 1 1 (fun _ => -1) (fun _ => 0)).Returned s ∧ s.shared 0 = 0 ∧
      checkCs (n := 1) (fun _ => -1) 0 = some (-1) ∧ checkArray s.shared (fun _ => -1) = 1 := by
  have hdelivers := launch_delivers (n := 1) (by decide : 1 ∣ 1) (by decide) (fun _ => -1)
    (fun _ => 0)
  obtain ⟨s, hs, hreturned⟩ := hdelivers.exists_returned
  have hshared : s.shared = fun _ => 0 := by
    funext i
    obtain rfl := Fin.fin_one_eq_zero i
    exact (hdelivers.holds s hs hreturned 0).trans (by decide)
  refine ⟨s, hs, hreturned, congrFun hshared 0, by decide, ?_⟩
  rw [hshared]
  decide

end Coursework.MaxCol
