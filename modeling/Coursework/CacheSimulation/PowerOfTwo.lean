import Coursework.Java.Radix
import Coursework.Transition.Loop

/-!
# The power-of-two test of the cache simulators

`powerOfTwo` doubles a square until it reaches or passes the number. The largest power of
two that is an `int` is `2 ^ 30`; the next doubling gives the least `int`, and the one
after that zero. Above `2 ^ 30` the square never passes the number, and the test does not
end.
-/

namespace Coursework.CacheSimulation

open Coursework.Java
open Coursework.Transition

/-- One turn of the loop: the test, the comparison and the doubling. -/
def powerOfTwoTurn (number square : Int32) : Turn Int32 Bool :=
  if number ≥ square then
    if number = square then .leave true
    else .again (square * 2)
  else .leave false

/-- `powerOfTwo` of the first simulator, if it returns within so many turns of its loop. -/
def Sys1.powerOfTwo (turns : ℕ) (number : Int32) : Option Bool :=
  loop (powerOfTwoTurn number) turns 1

/-- `powerOfTwo` of the second simulator, if it returns within so many turns of its loop. -/
def Sys2.powerOfTwo (turns : ℕ) (number : Int32) : Option Bool :=
  loop (powerOfTwoTurn number) turns 1

/-- The powers of two among the `int`s. -/
def IsPowerOfTwo (number : Int32) : Prop := ∃ k ≤ 30, number.toInt = 2 ^ k

/-- A test returns, and tells whether the number is a power of two. -/
def DecidesPowerOfTwo (test : ℕ → Int32 → Option Bool) (number : Int32) : Prop :=
  ∃ turns result, test turns number = some result ∧ (result = true ↔ IsPowerOfTwo number)

/-- The square is a power of two, and the number is none of the smaller ones. -/
def Doubled (number square : Int32) : Prop :=
  ∃ k ≤ 30, square.toInt = 2 ^ k ∧ ∀ j < k, number.toInt ≠ 2 ^ j

/-- The square starts at the smallest power of two. -/
theorem doubled_one (number : Int32) : Doubled number 1 :=
  ⟨0, by decide, by decide, fun j hj => absurd hj (Nat.not_lt_zero j)⟩

/-- Below `2 ^ 30` the doubled square is the next power of two. -/
theorem toInt_mul_two {square : Int32} {k : ℕ} (hk : k < 30) (hsquare : square.toInt = 2 ^ k) :
    (square * 2).toInt = 2 ^ (k + 1) := by
  have hpos : (0 : ℤ) < 2 ^ k := by positivity
  have hle : (2 : ℤ) ^ k ≤ 2 ^ 29 := pow_le_pow_right₀ (by decide) (by omega)
  rw [Int32.toInt_mul, show (2 : Int32).toInt = 2 by decide, hsquare, pow_succ]
  exact bmod_of_bounds (by omega) (by omega)

/-- A turn that goes on has passed a power of two below `2 ^ 30`. -/
theorem powerOfTwoTurn_again {number square square' : Int32}
    (h : powerOfTwoTurn number square = .again square') :
    square.toInt < number.toInt ∧ square' = square * 2 := by
  rw [powerOfTwoTurn] at h
  split at h
  · rename_i hge
    split at h
    · cases h
    · rename_i hne
      obtain rfl := Turn.again.inj h
      have hneInt : number.toInt ≠ square.toInt := fun heq => hne (Int32.toInt_inj.mp heq)
      have hle := Int32.le_iff_toInt_le.mp hge
      exact ⟨by omega, rfl⟩
  · cases h

/-- A turn that goes on below `2 ^ 30` leads to the next power of two. -/
theorem doubled_again {number square square' : Int32} (hnumber : number.toInt ≤ 2 ^ 30)
    (hsquare : Doubled number square) (h : powerOfTwoTurn number square = .again square') :
    Doubled number square' ∧ square.toInt < square'.toInt := by
  obtain ⟨k, hk, hvalue, hnone⟩ := hsquare
  obtain ⟨hlt, rfl⟩ := powerOfTwoTurn_again h
  have hk30 : k < 30 := by
    refine lt_of_le_of_ne hk ?_
    rintro rfl
    omega
  have hnext := toInt_mul_two hk30 hvalue
  have hpos : (0 : ℤ) < 2 ^ k := by positivity
  refine ⟨⟨k + 1, hk30, hnext, ?_⟩, by rw [hnext, hvalue, pow_succ]; omega⟩
  intro j hj
  rcases Nat.lt_succ_iff_lt_or_eq.mp hj with hjk | rfl
  · exact hnone j hjk
  · omega

/-- A turn that leaves tells whether the number is a power of two. -/
theorem doubled_leave {number square : Int32} {result : Bool} (hsquare : Doubled number square)
    (h : powerOfTwoTurn number square = .leave result) :
    result = true ↔ IsPowerOfTwo number := by
  obtain ⟨k, hk, hvalue, hnone⟩ := hsquare
  rw [powerOfTwoTurn] at h
  split at h
  · split at h
    · rename_i heq
      obtain rfl := Turn.leave.inj h
      exact ⟨fun _ => ⟨k, hk, heq ▸ hvalue⟩, fun _ => rfl⟩
    · cases h
  · rename_i hlt
    obtain rfl := Turn.leave.inj h
    refine ⟨fun hfalse => absurd hfalse (by decide), ?_⟩
    rintro ⟨j, -, hj⟩
    rcases Nat.lt_or_ge j k with hjk | hkj
    · exact absurd hj (hnone j hjk)
    · have hpow : (2 : ℤ) ^ k ≤ 2 ^ j := pow_le_pow_right₀ (by decide) hkj
      exact absurd (Int32.le_iff_toInt_le.mpr (by omega)) hlt

/-- Up to `2 ^ 30` the test returns, and tells whether the number is a power of two. -/
theorem powerOfTwo_returns {number : Int32} (hnumber : number.toInt ≤ 2 ^ 30) :
    ∃ result, Returns (powerOfTwoTurn number) 1 result ∧
      (result = true ↔ IsPowerOfTwo number) := by
  obtain ⟨result, hresult⟩ := returns_of_measure (Doubled number)
    (fun square => (2 ^ 31 - square.toInt).toNat)
    (fun square square' hsquare h => by
      obtain ⟨hsquare', hlt⟩ := doubled_again hnumber hsquare h
      have hbound := square'.toInt_lt
      exact ⟨hsquare', by omega⟩)
    1 (doubled_one number)
  refine ⟨result, hresult, ?_⟩
  exact hresult.invariant (Doubled number) _ (doubled_one number)
    (fun square square' hsquare h => (doubled_again hnumber hsquare h).1)
    (fun square result hsquare h => doubled_leave hsquare h)

/-- The squares above `2 ^ 30`: the powers of two, the least `int` and zero. -/
def Overflowed (square : Int32) : Prop :=
  (∃ k ≤ 30, square.toInt = 2 ^ k) ∨ square = Int32.minValue ∨ square = 0

/-- Doubling never leaves these squares, and none of them is above `2 ^ 30`. -/
theorem overflowed_double {square : Int32} (h : Overflowed square) :
    Overflowed (square * 2) ∧ square.toInt ≤ 2 ^ 30 := by
  rcases h with ⟨k, hk, hvalue⟩ | rfl | rfl
  · have hle : (2 : ℤ) ^ k ≤ 2 ^ 30 := pow_le_pow_right₀ (by decide) hk
    refine ⟨?_, hvalue ▸ hle⟩
    rcases Nat.lt_or_eq_of_le hk with hk30 | rfl
    · exact Or.inl ⟨k + 1, hk30, toInt_mul_two hk30 hvalue⟩
    · obtain rfl : square = 1073741824 := Int32.toInt_inj.mp (hvalue.trans (by decide))
      exact Or.inr (Or.inl (by decide))
  · exact ⟨Or.inr (Or.inr (by decide)), by decide⟩
  · exact ⟨Or.inr (Or.inr (by decide)), by decide⟩

/-- Above `2 ^ 30` the test does not end. -/
theorem powerOfTwo_diverges {number : Int32} (hnumber : 2 ^ 30 < number.toInt) :
    Diverges (powerOfTwoTurn number) 1 := by
  refine diverges_of_invariant Overflowed (fun square hsquare => ?_) 1
    (Or.inl ⟨0, by decide, by decide⟩)
  obtain ⟨hdouble, hle⟩ := overflowed_double hsquare
  refine ⟨square * 2, ?_, hdouble⟩
  have hne : number ≠ square := by
    rintro rfl
    omega
  rw [powerOfTwoTurn, if_pos (Int32.le_iff_toInt_le.mpr (by omega)), if_neg hne]

/-- The loop of `powerOfTwo` decides powers of two exactly up to `2 ^ 30`. -/
theorem decidesPowerOfTwo_iff (test : ℕ → Int32 → Option Bool) (number : Int32)
    (htest : ∀ turns, test turns number = loop (powerOfTwoTurn number) turns 1) :
    DecidesPowerOfTwo test number ↔ number.toInt ≤ 2 ^ 30 := by
  constructor
  · rintro ⟨turns, result, hresult, -⟩
    by_contra hgt
    rw [htest, powerOfTwo_diverges (Int.lt_of_not_ge hgt) turns] at hresult
    cases hresult
  · intro hnumber
    obtain ⟨result, ⟨turns, hturns⟩, hexact⟩ := powerOfTwo_returns hnumber
    exact ⟨turns, result, (htest turns).trans hturns, hexact⟩

/-- What the second simulator accepts is a power of two. -/
theorem isPowerOfTwo_of_accepted {turns : ℕ} {number : Int32}
    (h : Sys2.powerOfTwo turns number = some true) : IsPowerOfTwo number := by
  have hreturns : Returns (powerOfTwoTurn number) 1 true := ⟨turns, h⟩
  have hnumber : number.toInt ≤ 2 ^ 30 := by
    by_contra hgt
    exact hreturns.not_diverges (powerOfTwo_diverges (Int.lt_of_not_ge hgt))
  obtain ⟨result, hresult, hexact⟩ := powerOfTwo_returns hnumber
  exact hexact.mp (hresult.unique hreturns)

/-- Both simulators' `powerOfTwo` returns, and is right, exactly for the numbers up to `2 ^ 30`. -/
theorem powerOfTwo_exact_iff (number : Int32) :
    (DecidesPowerOfTwo Sys1.powerOfTwo number ↔ number.toInt ≤ 2 ^ 30) ∧
      (DecidesPowerOfTwo Sys2.powerOfTwo number ↔ number.toInt ≤ 2 ^ 30) :=
  ⟨decidesPowerOfTwo_iff Sys1.powerOfTwo number fun _ => rfl,
    decidesPowerOfTwo_iff Sys2.powerOfTwo number fun _ => rfl⟩

/-- On `2 ^ 30 + 1` neither test returns. -/
theorem powerOfTwo_stuck :
    ¬DecidesPowerOfTwo Sys1.powerOfTwo 1073741825 ∧
      ¬DecidesPowerOfTwo Sys2.powerOfTwo 1073741825 ∧
      ∀ turns, Sys1.powerOfTwo turns 1073741825 = none ∧ Sys2.powerOfTwo turns 1073741825 = none := by
  have hdiverges : Diverges (powerOfTwoTurn 1073741825) 1 := powerOfTwo_diverges (by decide)
  have habove : ¬Int32.toInt 1073741825 ≤ 2 ^ 30 := by decide
  refine ⟨?_, ?_, fun turns => ⟨hdiverges turns, hdiverges turns⟩⟩
  · exact fun h => habove ((decidesPowerOfTwo_iff Sys1.powerOfTwo _ fun _ => rfl).mp h)
  · exact fun h => habove ((decidesPowerOfTwo_iff Sys2.powerOfTwo _ fun _ => rfl).mp h)

end Coursework.CacheSimulation
