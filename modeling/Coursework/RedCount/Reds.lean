import Coursework.Concurrency.OwnCell
import Coursework.RedCount.FindRedsGPU
import Mathlib.Algebra.BigOperators.Ring.Finset
import Mathlib.Data.Fintype.BigOperators
import Mathlib.Tactic.Ring

/-!
# The counts of red particles

A thread keeps in the element of its own particle how many red particles nearby it has passed.
No schedule of the threads makes a difference, and the counts of the red particles add up to
twice the number of pairs of them.
-/

namespace Coursework.RedCount

open Concurrency MaxCol

section Counts

variable {F : Type*} (float : FloatArithmetic F) {n : ℕ} (p : Fin (n * 4) → F)

/-- The red particles in the neighborhood of a particle. -/
def reds (i : Fin n) : Finset (Fin n) := Finset.univ.filter fun j => Near float p i j ∧ Red float p j

/-- When a particle is one of them. -/
@[simp]
theorem mem_reds {i j : Fin n} : j ∈ reds float p i ↔ Near float p i j ∧ Red float p j := by
  rw [reds, Finset.mem_filter]
  exact and_iff_right (Finset.mem_univ j)

/-- Those of them that come before a number. -/
def redsBefore (i : Fin n) (j : ℕ) : ℕ := ((reds float p i).filter fun k => k.val < j).card

/-- Before the first one there are none. -/
theorem redsBefore_zero (i : Fin n) : redsBefore float p i 0 = 0 := by
  rw [redsBefore, Finset.card_eq_zero, Finset.filter_eq_empty_iff]
  exact fun k _ => Nat.not_lt_zero k

/-- One particle further. -/
theorem redsBefore_succ (i j : Fin n) :
    redsBefore float p i (j + 1) = redsBefore float p i j + if j ∈ reds float p i then 1 else 0 := by
  have hsplit : (reds float p i).filter (fun k => k.val < j.val + 1) =
      (reds float p i).filter (fun k => k.val < j.val) ∪ (reds float p i).filter fun k => k = j := by
    rw [← Finset.filter_or]
    refine Finset.filter_congr fun k _ => ?_
    rw [Nat.lt_succ_iff_lt_or_eq, Fin.ext_iff]
  have hdisjoint : Disjoint ((reds float p i).filter fun k => k.val < j.val)
      ((reds float p i).filter fun k => k = j) := by
    rw [Finset.disjoint_filter]
    rintro k - hlt rfl
    exact Nat.lt_irrefl _ hlt
  rw [redsBefore, hsplit, Finset.card_union_of_disjoint hdisjoint, Finset.filter_eq']
  split
  · rw [Finset.card_singleton]
    rfl
  · rfl

/-- Before the end are all. -/
theorem redsBefore_last (i : Fin n) : redsBefore float p i n = (reds float p i).card := by
  rw [redsBefore, Finset.filter_true_of_mem fun k _ => k.isLt]

/-- There are no more of them than particles. -/
theorem redsBefore_le (i : Fin n) (j : ℕ) : redsBefore float p i j ≤ n := by
  refine (Finset.card_le_univ _).trans ?_
  rw [Fintype.card_fin]

variable (hsize : n * 4 < 2 ^ 31)

include hsize

/-- The index of a number of a particle. -/
theorem element_part (k : Fin 4) (i : Fin n) :
    element p (.ofNat i * 4 + .ofNat k) = some (part p k i) := by
  have hval : (finProdFinEquiv (i, k) : ℕ) = i * 4 + k :=
    (Nat.add_comm _ _).trans (congrArg (· + (k : ℕ)) (Nat.mul_comm _ _))
  have hindex : Int32.ofNat i * 4 + .ofNat k = .ofNat (finProdFinEquiv (i, k)) := by
    rw [hval, Int32.ofNat_add, Int32.ofNat_mul]
    rfl
  rw [element, hindex, index_ofNat (by omega) _ (finProdFinEquiv (i, k)).isLt]
  rfl

/-- The kernel computes the distance of two particles. -/
theorem findDistanceGPU_eq (i j : Fin n) :
    findDistanceGPU float p (.ofNat i) (.ofNat j) = some (distance float p i j) := by
  have hfirst : ∀ i : Fin n, element p (.ofNat i * 4) = some (part p 0 i) := by
    intro i
    have hzero : element p (.ofNat i * 4 + 0) = some (part p 0 i) := element_part p hsize 0 i
    rwa [Int32.add_zero] at hzero
  have hsecond : ∀ i : Fin n, element p (.ofNat i * 4 + 1) = some (part p 1 i) :=
    element_part p hsize 1
  have hthird : ∀ i : Fin n, element p (.ofNat i * 4 + 2) = some (part p 2 i) :=
    element_part p hsize 2
  rw [findDistanceGPU]
  simp only [hfirst, hsecond, hthird]
  rfl

/-- The comparison in the loop finds the red particles nearby. -/
theorem isRedNearby_eq (i j : Fin n) :
    isRedNearby float p (.ofNat i) (.ofNat j) = some (decide (j ∈ reds float p i)) := by
  have hne : (Int32.ofNat i ≠ Int32.ofNat j) ↔ i ≠ j := by
    refine not_congr ⟨fun heq => ?_, fun heq => heq ▸ rfl⟩
    have hint := congrArg Int32.toInt heq
    rw [Int32.toInt_ofNat_of_lt (by omega), Int32.toInt_ofNat_of_lt (by omega)] at hint
    omega
  have hcolor : element p (.ofNat j * 4 + 3) = some (part p 3 j) := element_part p hsize 3 j
  rw [isRedNearby, findDistanceGPU_eq float p hsize, Option.bind_some, hcolor, Option.map_some]
  simp only [hne, mem_reds, Near, Red]
  split_ifs with hij hnear
  · simp [hij, hnear]
  · simp [hnear]
  · simp [hij]

/-- A thread has counted the red particles nearby that it has passed. -/
def Thread.Counts (i : Fin n) : Thread → Int32 → Prop
  | .reset, _ => True
  | .loop j, count => ∃ k : Fin n, j = .ofNat k ∧ count = .ofNat (redsBefore float p i k)
  | .read j, count =>
    ∃ k : Fin n, j = .ofNat k ∧ k ∈ reds float p i ∧ count = .ofNat (redsBefore float p i k)
  | .write j held, count =>
    ∃ k : Fin n, j = .ofNat k ∧ k ∈ reds float p i ∧ count = .ofNat (redsBefore float p i k) ∧
      held = count
  | .exited, count => count = .ofNat (reds float p i).card

/-- The steps that a thread has left, of at most three for each particle. -/
def Thread.left (n : ℕ) : Thread → ℕ
  | .reset => 3 * n + 1
  | .loop j => 3 * (n - j.toInt.toNat)
  | .read j => 3 * (n - j.toInt.toNat) - 1
  | .write j _ => 3 * (n - j.toInt.toNat) - 2
  | .exited => 0

/-- The loop test after so many particles. -/
theorem counts_loopTest (i : Fin n) (j : ℕ) (hj : j ≤ n) :
    (loopTest (.ofNat n) (.ofNat j)).Counts float p i (.ofNat (redsBefore float p i j)) := by
  rw [loopTest]
  by_cases hlt : j < n
  · rw [if_pos ((Int32.ofNat_lt_iff_lt (by omega) (by omega)).mpr hlt)]
    exact ⟨⟨j, hlt⟩, rfl, rfl⟩
  · obtain rfl := Nat.le_antisymm hj (Nat.le_of_not_lt hlt)
    rw [if_neg Int32.lt_irrefl, redsBefore_last]
    rfl

/-- The steps left at the loop test. -/
theorem left_loopTest (j : ℕ) (hj : j ≤ n) :
    (loopTest (.ofNat n) (.ofNat j)).left n ≤ 3 * (n - j) := by
  have hint : (Int32.ofNat j).toInt = j := Int32.toInt_ofNat_of_lt (by omega)
  rw [loopTest]
  split
  · rw [Thread.left, hint, Int.toNat_natCast]
  · exact Nat.zero_le _

/-- A step of a thread writes at most its own element and goes on with the count, or ends with it. -/
theorem Thread.Counts.step {i : Fin n} {t t' : Thread} {numI numI' : Fin n → Int32}
    (h : t.Counts float p i (numI i))
    (hstep : findRedsGPU float p (.ofNat i) t numI = some (t', numI')) :
    (∃ v, numI' = Function.update numI i v ∧ t'.Counts float p i v) ∧ t'.left n < t.left n := by
  have hown : index n (.ofNat i) = some i := index_ofNat (by omega) i i.isLt
  have hkeep : numI = Function.update numI i (numI i) := (Function.update_eq_self i numI).symm
  have hint : ∀ k : Fin n, (Int32.ofNat k).toInt.toNat = k := fun k =>
    congrArg Int.toNat (Int32.toInt_ofNat_of_lt (by omega))
  have hnext : ∀ k : Fin n, Int32.ofNat k + 1 = .ofNat (k + 1) := fun k => (Int32.ofNat_add _ 1).symm
  cases t with
  | reset =>
    rw [findRedsGPU, hown, Option.map_some] at hstep
    obtain ⟨rfl, rfl⟩ := Prod.mk.inj (Option.some.inj hstep)
    have hcounts := counts_loopTest float p hsize i 0 (Nat.zero_le n)
    rw [redsBefore_zero] at hcounts
    exact ⟨⟨0, rfl, hcounts⟩, Nat.lt_succ_of_le (left_loopTest hsize 0 (Nat.zero_le n))⟩
  | loop j =>
    obtain ⟨k, rfl, hcount⟩ := h
    rw [findRedsGPU, isRedNearby_eq float p hsize, Option.map_some] at hstep
    obtain ⟨rfl, rfl⟩ := Prod.mk.inj (Option.some.inj hstep)
    by_cases hred : k ∈ reds float p i
    · rw [if_pos (decide_eq_true hred)]
      refine ⟨⟨_, hkeep, k, rfl, hred, hcount⟩, ?_⟩
      rw [Thread.left, Thread.left, hint]
      omega
    · rw [if_neg (by simpa using hred), hnext]
      have hsame : redsBefore float p i (k + 1) = redsBefore float p i k := by
        rw [redsBefore_succ, if_neg hred]
        rfl
      have hcounts := counts_loopTest float p hsize i (k + 1) k.isLt
      rw [hsame, ← hcount] at hcounts
      refine ⟨⟨_, hkeep, hcounts⟩, (left_loopTest hsize (k + 1) k.isLt).trans_lt ?_⟩
      rw [Thread.left, hint]
      omega
  | read j =>
    obtain ⟨k, rfl, hred, hcount⟩ := h
    rw [findRedsGPU, hown, Option.map_some] at hstep
    obtain ⟨rfl, rfl⟩ := Prod.mk.inj (Option.some.inj hstep)
    refine ⟨⟨_, hkeep, k, rfl, hred, hcount, rfl⟩, ?_⟩
    rw [Thread.left, Thread.left, hint]
    omega
  | write j held =>
    obtain ⟨k, rfl, hred, hcount, rfl⟩ := h
    rw [findRedsGPU, hown, Option.map_some, hnext] at hstep
    obtain ⟨rfl, rfl⟩ := Prod.mk.inj (Option.some.inj hstep)
    have hmore : Int32.ofNat (redsBefore float p i (k + 1)) = numI i + 1 := by
      rw [redsBefore_succ, if_pos hred, Int32.ofNat_add, ← hcount]
      rfl
    have hcounts := counts_loopTest float p hsize i (k + 1) k.isLt
    rw [hmore] at hcounts
    refine ⟨⟨_, rfl, hcounts⟩, (left_loopTest hsize (k + 1) k.isLt).trans_lt ?_⟩
    rw [Thread.left, hint]
    omega
  | exited => cases hstep

/-- A thread that has not ended can step. -/
theorem Thread.Counts.exists_step {i : Fin n} {t : Thread} {numI : Fin n → Int32}
    (h : t.Counts float p i (numI i)) (hexited : t.hasExited = false) :
    ∃ next, findRedsGPU float p (.ofNat i) t numI = some next := by
  have hown : index n (.ofNat i) = some i := index_ofNat (by omega) i i.isLt
  cases t with
  | reset => exact ⟨_, by rw [findRedsGPU, hown, Option.map_some]⟩
  | loop j =>
    obtain ⟨k, rfl, -⟩ := h
    exact ⟨_, by rw [findRedsGPU, isRedNearby_eq float p hsize, Option.map_some]⟩
  | read j => exact ⟨_, by rw [findRedsGPU, hown, Option.map_some]⟩
  | write j held => exact ⟨_, by rw [findRedsGPU, hown, Option.map_some]⟩
  | exited => cases hexited

/-- In every schedule of the threads, the kernel ends without an access outside an array, and leaves
for each particle the number of red particles in its neighborhood. -/
theorem launch_counts {threadsPerBlock : ℕ} (hdvd : threadsPerBlock ∣ n) (garbage : Fin n → Int32) :
    (launch float threadsPerBlock p garbage).Delivers
      fun s => ∀ i, (s.shared i).toInt = (reds float p i).card := by
  have hcells : (launch float threadsPerBlock p garbage).OwnCells (gridColumn hdvd)
      fun k t count => t.Counts float p (gridColumn hdvd k) count := by
    refine ⟨(gridColumn hdvd).injective, fun _ => trivial, ?_⟩
    intro k t t' numI numI' hcounts hstep
    change findRedsGPU float p (columnOf k) t numI = _ at hstep
    rw [columnOf_eq hdvd] at hstep
    exact (hcounts.step float p hsize hstep).1
  have hdelivers := hcells.delivers (fun _ => Thread.left n)
    (by
      intro k t t' numI numI' hcounts hstep
      change findRedsGPU float p (columnOf k) t numI = _ at hstep
      rw [columnOf_eq hdvd] at hstep
      exact (hcounts.step float p hsize hstep).2)
    (by
      intro k t numI hcounts hexited
      obtain ⟨next, hnext⟩ := hcounts.exists_step float p hsize hexited
      rw [← columnOf_eq hdvd] at hnext
      exact ⟨next, hnext⟩)
  refine ⟨hdelivers.bounded, hdelivers.returned, fun s hs hreturned i => ?_⟩
  obtain ⟨t, hexited, hcounts⟩ := hdelivers.holds s hs hreturned ((gridColumn hdvd).symm i)
  rw [Equiv.apply_symm_apply] at hcounts
  have hcard : (reds float p i).card < 2 ^ 31 := by
    have hle := redsBefore_le float p i n
    rw [redsBefore_last] at hle
    omega
  cases t with
  | exited => rw [show s.shared i = _ from hcounts, Int32.toInt_ofNat_of_lt hcard]
  | reset => cases hexited
  | loop j => cases hexited
  | read j => cases hexited
  | write j held => cases hexited

end Counts

/-- The square of a difference is the same either way. -/
def FloatArithmetic.Symmetric {F : Type*} (float : FloatArithmetic F) : Prop :=
  ∀ a b, float.mul (float.sub a b) (float.sub a b) = float.mul (float.sub b a) (float.sub b a)

/-- Numbers of up to 24 bits are not rounded. -/
def FloatArithmetic.Exact {F : Type*} (float : FloatArithmetic F) : Prop :=
  ∀ a b : Int32, |a.toInt| ≤ 2 ^ 24 → |b.toInt| ≤ 2 ^ 24 →
    float.eq (float.ofInt a) (float.ofInt b) = decide (a = b)

/-- The roll of a particle, the last of its four results of `rand`, is that of red. -/
def RollsRed (rand : ℕ → Int32) {n : ℕ} (j : Fin n) : Prop := rand (4 * j + 3) % 3 = 0

instance (rand : ℕ → Int32) {n : ℕ} : DecidablePred fun j : Fin n => RollsRed rand j := fun _ =>
  inferInstanceAs (Decidable (_ = _))

section Pairs

variable {F : Type*} {float : FloatArithmetic F} {n : ℕ} {p : Fin (n * 4) → F}

/-- Particles are in each other's neighborhood. -/
theorem near_comm (hsymmetric : float.Symmetric) (i j : Fin n) :
    Near float p i j ↔ Near float p j i := by
  have hdistance : distance float p i j = distance float p j i := by
    rw [distance, distance]
    simp only [hsymmetric (part p _ i) (part p _ j)]
  rw [Near, Near, hdistance, ne_comm]

/-- What is symmetric and holds of no element and itself holds of each pair twice. -/
theorem sum_card_eq_two_mul {α : Type*} [Fintype α] [LinearOrder α] (r : α → α → Prop)
    [DecidableRel r] (hcomm : ∀ a b, r a b ↔ r b a) (hirrefl : ∀ a, ¬r a a) :
    ∑ a, (Finset.univ.filter fun b => r a b).card =
      2 * (Finset.univ.filter fun x : α × α => x.1 < x.2 ∧ r x.1 x.2).card := by
  have hswap : (Finset.univ.filter fun x : α × α => x.2 < x.1 ∧ r x.1 x.2).card =
      (Finset.univ.filter fun x : α × α => x.1 < x.2 ∧ r x.1 x.2).card := by
    refine Finset.card_equiv (Equiv.prodComm α α) fun x => ?_
    rw [Finset.mem_filter, Finset.mem_filter, hcomm x.1 x.2]
    exact and_congr_left' (iff_of_true (Finset.mem_univ _) (Finset.mem_univ _))
  have hdisjoint : Disjoint (Finset.univ.filter fun x : α × α => x.1 < x.2 ∧ r x.1 x.2)
      (Finset.univ.filter fun x : α × α => x.2 < x.1 ∧ r x.1 x.2) := by
    rw [Finset.disjoint_filter]
    exact fun x _ hless hmore => absurd hmore.1 hless.1.asymm
  have hall : (Finset.univ.filter fun x : α × α => r x.1 x.2) =
      (Finset.univ.filter fun x : α × α => x.1 < x.2 ∧ r x.1 x.2) ∪
        Finset.univ.filter fun x : α × α => x.2 < x.1 ∧ r x.1 x.2 := by
    rw [← Finset.filter_or]
    refine Finset.filter_congr fun x _ => ?_
    rw [← or_and_right, and_iff_right_of_imp]
    intro hr
    refine lt_or_gt_of_ne fun heq => ?_
    rw [heq] at hr
    exact hirrefl _ hr
  calc ∑ a, (Finset.univ.filter fun b => r a b).card
      = (Finset.univ.filter fun x : α × α => r x.1 x.2).card := by
        simp only [Finset.card_filter, Fintype.sum_prod_type]
    _ = _ := by rw [hall, Finset.card_union_of_disjoint hdisjoint, hswap, two_mul]

/-- The turn of `initPos` for a particle writes its own numbers. -/
theorem initParticle_color (rand : ℕ → Int32) (i j : Fin n) :
    part (initParticle float rand p i) 3 j =
      if j = i then float.ofInt (color (rand (4 * i + 3) % 3)) else part p 3 j := by
  rw [part, initParticle]
  split
  · rename_i hj
    rw [hj, Function.update_self]
  · rename_i hj
    have hne : ∀ k : Fin 4, finProdFinEquiv (j, (3 : Fin 4)) ≠ finProdFinEquiv (i, k) := fun k heq =>
      hj (Prod.mk.inj (finProdFinEquiv.injective heq)).1
    simp only [Function.update_of_ne (hne _), part]

/-- The color of a particle after `initPos`. -/
theorem initPos_color (rand : ℕ → Int32) (j : Fin n) :
    part (initPos float rand p) 3 j = float.ofInt (color (rand (4 * j + 3) % 3)) := by
  have hfold : ∀ (particles : List (Fin n)) (p : Fin (n * 4) → F),
      part (particles.foldl (initParticle float rand) p) 3 j =
        if j ∈ particles then float.ofInt (color (rand (4 * j + 3) % 3)) else part p 3 j := by
    intro particles
    induction particles with
    | nil => exact fun p => rfl
    | cons i rest ih =>
      intro p
      rw [List.foldl_cons, ih, initParticle_color]
      by_cases hrest : j ∈ rest
      · rw [if_pos hrest, if_pos (List.mem_cons_of_mem i hrest)]
      · rw [if_neg hrest]
        by_cases hj : j = i
        · rw [if_pos hj, if_pos (hj ▸ List.mem_cons_self), hj]
        · rw [if_neg hj, if_neg (by simp [hj, hrest])]
  rw [initPos, hfold, if_pos (List.mem_finRange j)]

/-- A particle is red exactly if its roll was zero. -/
theorem red_initPos_iff (hexact : float.Exact) (rand : ℕ → Int32) (j : Fin n) :
    Red float (initPos float rand p) j ↔ RollsRed rand j := by
  have hcolor : ∀ roll, |(color roll).toInt| ≤ 2 ^ 24 ∧ (color roll = 0xff0000 ↔ roll = 0) := by
    intro roll
    rw [color]
    split_ifs with hzero hone
    · exact ⟨by decide, iff_of_true rfl hzero⟩
    · exact ⟨by decide, iff_of_false (by decide) hzero⟩
    · exact ⟨by decide, iff_of_false (by decide) hzero⟩
  obtain ⟨hsmall, hred⟩ := hcolor (rand (4 * j + 3) % 3)
  rw [Red, initPos_color, hexact _ _ hsmall (by decide), decide_eq_true_eq, hred,
    RollsRed]

end Pairs

/-- From the random particles of the program, every schedule of the kernel ends, the file has for
each particle the number of others in its neighborhood that rolled red, and the counts of the red
particles add up to twice the number of pairs of them in each other's neighborhood. -/
theorem launch_initPos_dumpResults {F : Type*} (float : FloatArithmetic F)
    (hexact : float.Exact) (hsymmetric : float.Symmetric) {n threadsPerBlock : ℕ}
    (hdvd : threadsPerBlock ∣ n) (hsize : n * 4 < 2 ^ 31) (rand : ℕ → Int32)
    (pos : Fin (n * 4) → F) (garbage : Fin n → Int32) :
    let p := initPos float rand pos
    (launch float threadsPerBlock p garbage).Delivers fun s =>
      dumpResults s.shared = (List.finRange n).map (fun i => toString i.val ++ " " ++
        toString ((Finset.univ.filter fun j : Fin n =>
          Near float p i j ∧ RollsRed rand j).card : ℤ) ++ "\n") ∧
      ∑ i with RollsRed rand i, (s.shared i).toInt =
        2 * (Finset.univ.filter fun x : Fin n × Fin n => x.1 < x.2 ∧ Near float p x.1 x.2 ∧
          RollsRed rand x.1 ∧ RollsRed rand x.2).card := by
  intro p
  have hdelivers := launch_counts float p hsize hdvd garbage
  refine ⟨hdelivers.bounded, hdelivers.returned, fun s hs hreturned => ?_⟩
  have hcount : ∀ i, (s.shared i).toInt =
      (Finset.univ.filter fun j => Near float p i j ∧ RollsRed rand j).card := by
    intro i
    rw [hdelivers.holds s hs hreturned i, reds]
    simp only [p, red_initPos_iff hexact]
  refine ⟨?_, ?_⟩
  · rw [dumpResults]
    simp only [hcount]
  · have hpairs := sum_card_eq_two_mul
      (fun i j => Near float p i j ∧ RollsRed rand i ∧ RollsRed rand j)
      (fun i j => and_congr (near_comm hsymmetric i j) and_comm) (fun i hi => hi.1.1 rfl)
    have hred : ∀ i, (Finset.univ.filter fun j => Near float p i j ∧ RollsRed rand i ∧
        RollsRed rand j).card =
        if RollsRed rand i then (Finset.univ.filter fun j => Near float p i j ∧
          RollsRed rand j).card else 0 := by
      intro i
      split_ifs with hi
      · simp only [hi, true_and]
      · simp only [hi, false_and, and_false, Finset.filter_false, Finset.card_empty]
    simp only [hred, ← Finset.sum_filter] at hpairs
    simp only [hcount]
    exact_mod_cast hpairs

/-- Whole numbers, on which `float` is exact; only the ends of the range of `rand` give whole
numbers. -/
def wholeNumbers : FloatArithmetic ℤ where
  sub := (· - ·)
  mul := (· * ·)
  add := (· + ·)
  sqrt a := a.toNat.sqrt
  near a := decide (a ≤ 0)
  eq a b := decide (a = b)
  ofInt := Int32.toInt
  uniform a := a.toInt / 2147483647

/-- Whole numbers of up to 24 bits are not rounded. -/
theorem exact_wholeNumbers : wholeNumbers.Exact := by
  intro a b _ _
  exact decide_eq_decide.mpr Int32.toInt_inj

/-- The square of a difference of whole numbers is the same either way. -/
theorem symmetric_wholeNumbers : wholeNumbers.Symmetric := by
  intro a b
  change (a - b) * (a - b) = (b - a) * (b - a)
  ring

/-- All particles of the program at the origin, in three colors by turns. -/
theorem launch_initPos_dumpResults_origin :
    let rand : ℕ → Int32 := fun k => if k % 4 = 3 then .ofNat (k / 4 % 3) else 0
    let p := initPos (n := 32768) wholeNumbers rand fun _ => 0
    (launch wholeNumbers 128 p fun _ => 0).Delivers fun s =>
      dumpResults s.shared = (List.finRange 32768).map (fun i => toString i.val ++ " " ++
        toString ((Finset.univ.filter fun j : Fin 32768 =>
          Near wholeNumbers p i j ∧ RollsRed rand j).card : ℤ) ++ "\n") ∧
      ∑ i with RollsRed rand i, (s.shared i).toInt =
        2 * (Finset.univ.filter fun x : Fin 32768 × Fin 32768 => x.1 < x.2 ∧
          Near wholeNumbers p x.1 x.2 ∧ RollsRed rand x.1 ∧ RollsRed rand x.2).card :=
  launch_initPos_dumpResults wholeNumbers exact_wholeNumbers symmetric_wholeNumbers (by decide)
    (by decide) _ _ _

end Coursework.RedCount
