import Coursework.Decimal.HalfEven
import Coursework.FoodHaus.Cart

/-!
# The bill

The check screen shows a subtotal, the tax on it and the total, each with two decimals. Tax
and total are rounded on their own from two factors, and the factor of the total falls short
of one more than that of the tax by three units of the last binary place.
-/

namespace Coursework.FoodHaus

open Decimal

/-- The double nearest to a literal, if the doubles around it are the multiples of a power of two. -/
def nearestDouble (places : ℕ) (literal : ℚ) : ℚ :=
  roundHalfEven (literal * 2 ^ places) / 2 ^ places

/-- The literal 0.085, between 1/16 and 1/8. -/
def taxFactor : ℚ := nearestDouble 56 0.085

/-- The literal 1.085, between 1 and 2. -/
def totalFactor : ℚ := nearestDouble 52 1.085

/-- `String(format: "%.2f", amount)`, as a number of cents. -/
def formatted (amount : ℚ) : ℤ := roundHalfEven (amount * 100)

/-- The texts of the labels `subTotalPrice`, `tax` and `totalPrice`, as numbers of cents. -/
structure Bill where
  subTotalPrice : ℤ
  tax : ℤ
  totalPrice : ℤ
  deriving DecidableEq

/-- `viewDidLoad` of the check screen: tax and total are computed from the text of the subtotal. -/
def viewDidLoad (total : ℚ) : Bill :=
  let subTotal := formatted total
  { subTotalPrice := subTotal
    tax := formatted (subTotal / 100 * taxFactor)
    totalPrice := formatted (subTotal / 100 * totalFactor) }

/-- The amounts shown add up. -/
def Bill.AddsUp (bill : Bill) : Prop := bill.subTotalPrice + bill.tax = bill.totalPrice

/-- The numerator of the factor of the tax, in units of the last place. -/
def taxUnits : ℤ := 6124895493223875

/-- The factor of the tax. -/
theorem taxFactor_eq : taxFactor = taxUnits / (2 * 2 ^ 55 : ℤ) := by
  have hround : roundHalfEven (0.085 * 2 ^ 56 : ℚ) = taxUnits := by
    refine roundHalfEven_eq_iff.mpr (Or.inl ?_)
    rw [taxUnits, abs_lt]
    constructor <;> norm_num
  rw [taxFactor, nearestDouble, hround]
  norm_num

/-- The factor of the total is one more, less three units. -/
theorem totalFactor_eq :
    totalFactor = (2 * 2 ^ 55 + taxUnits - 3 : ℤ) / (2 * 2 ^ 55 : ℤ) := by
  have hround : roundHalfEven (1.085 * 2 ^ 52 : ℚ) = 4886405595696988 := by
    refine roundHalfEven_eq_iff.mpr (Or.inl ?_)
    rw [abs_lt]
    constructor <;> norm_num
  rw [totalFactor, nearestDouble, hround, taxUnits]
  norm_num

/-- A whole number of cents is shown as it is. -/
theorem formatted_cents (cents : ℤ) : formatted (cents / 100) = cents := by
  rw [formatted, div_mul_cancel₀ _ (by norm_num), roundHalfEven_intCast]

/-- The label of the subtotal reads `0.00` if the subtotal is rounded to nothing. -/
theorem CheckViewController.showsZero_iff {N : Type} (check : CheckViewController N)
    (h : 0 ≤ check.subTotalPrice) :
    check.showsZero = true ↔ (viewDidLoad check.subTotalPrice).subTotalPrice = 0 := by
  change _ ↔ roundHalfEven (check.subTotalPrice * 100) = 0
  rw [CheckViewController.showsZero, decide_eq_true_iff, roundHalfEven_eq_iff, RoundsTo,
    Int.cast_zero, sub_zero, abs_of_nonneg (mul_nonneg h (by norm_num))]
  constructor
  · rintro ⟨-, hle⟩
    rcases hle.lt_or_eq with hlt | heq
    · exact Or.inl (by linarith)
    · exact Or.inr ⟨by rw [heq]; norm_num, rfl⟩
  · rintro (hlt | ⟨heq, -⟩)
    · exact ⟨h, by linarith⟩
    · exact ⟨h, by linarith⟩

/-- The product of a whole number of cents with a factor, as it is shown. -/
theorem formatted_mul_eq_iff (cents units shown : ℤ) :
    formatted (cents / 100 * (units / (2 * 2 ^ 55 : ℤ))) = shown ↔
      |units * cents - 2 * 2 ^ 55 * shown| < 2 ^ 55 ∨
        |units * cents - 2 * 2 ^ 55 * shown| = 2 ^ 55 ∧ shown % 2 = 0 := by
  have hproduct : (cents / 100 * (units / (2 * 2 ^ 55 : ℤ)) * 100 : ℚ) =
      (units * cents : ℤ) / (2 * 2 ^ 55 : ℤ) := by
    push_cast
    ring
  rw [formatted, hproduct]
  exact roundHalfEven_div_eq_iff (by decide)

/-- How far the tax is above the last half cent, in units. -/
def aboveHalf (cents : ℕ) : ℕ := (6124895493223875 * cents + 2 ^ 55) % 2 ^ 56

/-- The last half cent that the tax reaches, rounded up. -/
def halfUp (cents : ℕ) : ℕ := (6124895493223875 * cents + 2 ^ 55) / 2 ^ 56

/-- The tax stays above the half cent when it loses three units for each cent. -/
def KeepsHalf (cents : ℕ) : Prop :=
  3 * cents < aboveHalf cents ∨ 3 * cents = aboveHalf cents ∧ (cents + halfUp cents) % 2 = 0

/-- The tax is on a half cent for huge amounts only. -/
theorem le_of_aboveHalf_eq_zero {cents : ℕ} (h : aboveHalf cents = 0) : 2 ^ 55 ≤ cents := by
  have hdvd : 2 ^ 55 ∣ 6124895493223875 * cents := by
    have hsum : 2 ^ 55 ∣ 6124895493223875 * cents + 2 ^ 55 :=
      Nat.dvd_trans (Nat.pow_dvd_pow 2 (Nat.le_succ 55)) (Nat.dvd_of_mod_eq_zero h)
    exact (Nat.dvd_add_left (Nat.dvd_refl _)).mp hsum
  have hcents : 2 ^ 55 ∣ cents := Nat.Coprime.dvd_of_dvd_mul_left (by decide) hdvd
  have hpos : 0 < cents := by
    rcases Nat.eq_zero_or_pos cents with rfl | hpos
    · exact absurd h (by decide)
    · exact hpos
  exact Nat.le_of_dvd hpos hcents

/-- A number of units is rounded as without three units for each cent exactly if these do not lead
below a half. -/
theorem rounding_iff {units shown cents up above : ℤ} (hcents : 0 ≤ cents)
    (hsplit : 2 ^ 56 * up + above = units + 2 ^ 55) (hnonneg : 0 ≤ above) (hlt : above < 2 ^ 56)
    (hzero : above = 0 → 2 ^ 55 ≤ cents)
    (hshown : |units - 2 * 2 ^ 55 * shown| < 2 ^ 55 ∨
      |units - 2 * 2 ^ 55 * shown| = 2 ^ 55 ∧ shown % 2 = 0) :
    (|units - 3 * cents - 2 * 2 ^ 55 * shown| < 2 ^ 55 ∨
        |units - 3 * cents - 2 * 2 ^ 55 * shown| = 2 ^ 55 ∧ (cents + shown) % 2 = 0) ↔
      3 * cents < above ∨ 3 * cents = above ∧ (cents + up) % 2 = 0 := by
  have hhalf : (0 : ℤ) ≤ 2 ^ 55 := by decide
  rw [abs_lt, abs_eq hhalf] at hshown ⊢
  have hcases : shown = up ∨ shown = up - 1 ∧ above = 0 := by omega
  rcases hcases with rfl | ⟨rfl, rfl⟩
  · omega
  · omega

/-- The bill of a whole number of cents adds up exactly if the tax stays above its half cent. -/
theorem addsUp_iff (cents : ℕ) : (viewDidLoad (cents / 100)).AddsUp ↔ KeepsHalf cents := by
  have hsub : formatted (cents / 100 : ℚ) = cents := formatted_cents cents
  have htax := (formatted_mul_eq_iff cents taxUnits _).mp rfl
  have hsplit : 2 ^ 56 * (halfUp cents : ℤ) + aboveHalf cents = taxUnits * cents + 2 ^ 55 := by
    have hnat : 2 ^ 56 * halfUp cents + aboveHalf cents = 6124895493223875 * cents + 2 ^ 55 :=
      Nat.div_add_mod _ _
    rw [taxUnits]
    omega
  have hlt : (aboveHalf cents : ℤ) < 2 ^ 56 := by
    have hnat : aboveHalf cents < 2 ^ 56 := Nat.mod_lt _ (by decide)
    omega
  have hzero : (aboveHalf cents : ℤ) = 0 → 2 ^ 55 ≤ (cents : ℤ) := by
    intro h
    have hnat := le_of_aboveHalf_eq_zero (Int.natCast_eq_zero.mp h)
    omega
  have hkeeps := rounding_iff (Int.natCast_nonneg cents) hsplit
    (Int.natCast_nonneg (aboveHalf cents)) hlt hzero htax
  have hless : ∀ shown : ℤ, (2 * 2 ^ 55 + taxUnits - 3) * cents - 2 * 2 ^ 55 * (cents + shown) =
      taxUnits * cents - 3 * cents - 2 * 2 ^ 55 * shown := fun shown => by ring
  rw [Bill.AddsUp, viewDidLoad]
  simp only [hsub]
  rw [eq_comm, totalFactor_eq, taxFactor_eq, formatted_mul_eq_iff, hless]
  refine hkeeps.trans ?_
  rw [KeepsHalf]
  omega

/-- Short of amounts of more than a hundred trillion cents, the tax on an odd multiple of a hundred
cents is the one that does not stay above its half cent. -/
theorem keepsHalf_iff {cents : ℕ} (hsmall : 600 * cents < 2 ^ 56) :
    KeepsHalf cents ↔ cents % 200 ≠ 100 := by
  have hscaled : 200 * (6124895493223875 * cents + 2 ^ 55) =
      2 ^ 56 * (17 * cents + 100) + 88 * cents := by ring
  have hsplit : 2 ^ 56 * halfUp cents + aboveHalf cents = 6124895493223875 * cents + 2 ^ 55 :=
    Nat.div_add_mod _ _
  have hlt : aboveHalf cents < 2 ^ 56 := Nat.mod_lt _ (by decide)
  have hcents : 200 * ((17 * cents + 100) / 200) + (17 * cents + 100) % 200 = 17 * cents + 100 :=
    Nat.div_add_mod _ _
  have habove : 200 * aboveHalf cents = 2 ^ 56 * ((17 * cents + 100) % 200) + 88 * cents := by
    have hrest : (17 * cents + 100) % 200 < 200 := Nat.mod_lt _ (by decide)
    rw [← hsplit, ← hcents] at hscaled
    generalize (17 * cents + 100) / 200 = whole at hscaled
    generalize (17 * cents + 100) % 200 = rest at hscaled hrest ⊢
    omega
  have hodd : (17 * cents + 100) % 200 = 0 ↔ cents % 200 = 100 := by omega
  have hpos : (17 * cents + 100) % 200 = 0 → 0 < cents := by omega
  rw [KeepsHalf, Ne, ← hodd]
  generalize (17 * cents + 100) % 200 = rest at habove hpos ⊢
  generalize aboveHalf cents = above at habove ⊢
  constructor
  · rintro hkeeps rfl
    have hcents := hpos rfl
    omega
  · intro hrest
    left
    omega

/-- Every price of the menu is a whole number of cents. -/
theorem exists_cents_of_mem {price : ℚ} (hprice : price ∈ productPrice.flatten) :
    ∃ cents : ℕ, price = cents / 100 := by
  have hwhole : ∀ price ∈ productPrice.flatten,
      (price * 100).den = 1 ∧ 0 ≤ (price * 100).num := by
    decide +kernel
  obtain ⟨hden, hnonneg⟩ := hwhole price hprice
  refine ⟨(price * 100).num.toNat, ?_⟩
  have hnum : (((price * 100).num.toNat : ℤ) : ℚ) = price * 100 := by
    rw [Int.toNat_of_nonneg hnonneg]
    exact (Rat.den_eq_one_iff _).mp hden
  rw [eq_div_iff (by norm_num), ← hnum]
  norm_cast

/-- Every name has a price of a whole number of cents. -/
theorem exists_cents_productPriceOf (name : String) :
    ∃ cents : ℕ, productPriceOf name = cents / 100 := by
  rw [productPriceOf]
  cases hlookup : (productName.flatten.zip productPrice.flatten).lookup name with
  | none => exact ⟨0, by norm_num⟩
  | some price =>
    obtain ⟨front, back, hsplit, -⟩ := List.lookup_eq_some_iff.mp hlookup
    have hmem : (name, price) ∈ productName.flatten.zip productPrice.flatten := by
      rw [hsplit]
      exact List.mem_append_right _ List.mem_cons_self
    exact exists_cents_of_mem (List.of_mem_zip hmem).2

/-- The total of a consistent cart is a whole number of cents. -/
theorem Consistent.exists_cents {app : App (Fin 25) String}
    (h : Consistent products productPriceOf app) : ∃ cents : ℕ, app.total = cents / 100 := by
  rw [h.total]
  induction app.cart with
  | nil => exact ⟨0, by norm_num⟩
  | cons name rest ih =>
    obtain ⟨cents, hcents⟩ := exists_cents_productPriceOf name
    obtain ⟨others, hothers⟩ := ih
    refine ⟨cents + others, ?_⟩
    rw [List.map_cons, List.sum_cons, hcents, hothers]
    push_cast
    ring

/-- The bill of a consistent cart. -/
theorem Consistent.addsUp_iff {app : App (Fin 25) String}
    (h : Consistent products productPriceOf app) :
    ∃ cents : ℕ, app.total = cents / 100 ∧ ((viewDidLoad app.total).AddsUp ↔ KeepsHalf cents) := by
  obtain ⟨cents, hcents⟩ := h.exists_cents
  exact ⟨cents, hcents, hcents ▸ FoodHaus.addsUp_iff cents⟩

/-- The bill of a whole number of cents adds up exactly if the tax stays above its half cent; short
of amounts of more than a hundred trillion cents, this fails for the odd multiples of a hundred
cents. -/
theorem viewDidLoad_addsUp_iff (cents : ℕ) :
    ((viewDidLoad (cents / 100)).AddsUp ↔ KeepsHalf cents) ∧
      (600 * cents < 2 ^ 56 → ((viewDidLoad (cents / 100)).AddsUp ↔ cents % 200 ≠ 100)) :=
  ⟨addsUp_iff cents, fun hsmall => (addsUp_iff cents).trans (keepsHalf_iff hsmall)⟩

/-- A sandwich for 11.95. -/
theorem viewDidLoad_addsUp_iff_reuben :
    ((viewDidLoad ((1195 : ℕ) / 100)).AddsUp ↔ KeepsHalf 1195) ∧
      ((viewDidLoad ((1195 : ℕ) / 100)).AddsUp ↔ 1195 % 200 ≠ 100) :=
  ⟨(viewDidLoad_addsUp_iff 1195).1, (viewDidLoad_addsUp_iff 1195).2 (by decide)⟩

/-- A sandwich for 9.50 and a side for 3.50, on which the tax is 1.105. -/
theorem not_addsUp_thirteen :
    viewDidLoad ((1300 : ℕ) / 100) = ⟨1300, 111, 1410⟩ ∧
      ¬ ∀ cents : ℕ, (viewDidLoad (cents / 100)).AddsUp := by
  have hbill : viewDidLoad ((1300 : ℕ) / 100) = ⟨1300, 111, 1410⟩ := by decide +kernel
  refine ⟨hbill, fun h => ?_⟩
  have hsum : Bill.AddsUp ⟨1300, 111, 1410⟩ := hbill ▸ h 1300
  change (1300 + 111 : ℤ) = 1410 at hsum
  omega

end Coursework.FoodHaus
