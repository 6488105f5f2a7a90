import Coursework.CacheSimulation.Decode
import Coursework.CacheSimulation.Sys2
import Mathlib.Tactic.Linarith
import Mathlib.Tactic.NormNum

/-!
# The set-up of a power-of-two cache

Within the range of an `int` the divisions and logarithms of the set-up are exact: the
cache has `2 ^ w` ways of `2 ^ k` blocks, and the index field has `k` digits.
-/

namespace Coursework.CacheSimulation

open Coursework.Java

/-- The product of two powers below `2 ^ 31` bounds the exponents. -/
theorem CacheGeometry.exponents {cacheSize setAssociativity : Int32} {w k : ℕ}
    (h : CacheGeometry cacheSize setAssociativity w k) : w + k < 27 := by
  by_contra hge
  have hpow : (2 : ℤ) ^ 27 ≤ 2 ^ (w + k) := pow_le_pow_right₀ (by norm_num) (by omega)
  have hfits := h.fits
  rw [mul_assoc, ← pow_add] at hfits
  omega

/-- The number of blocks of each way is computed without rounding or overflow. -/
theorem CacheGeometry.toInt_cacheBufSize {cacheSize setAssociativity : Int32} {w k : ℕ}
    (h : CacheGeometry cacheSize setAssociativity w k) :
    (cacheSize * 1024 / (blockByte * setAssociativity)).toInt = 2 ^ k := by
  have hw : (0 : ℤ) < 2 ^ w := by positivity
  have hk : (2 : ℤ) ≤ 2 ^ k := by
    calc (2 : ℤ) = 2 ^ 1 := by norm_num
      _ ≤ 2 ^ k := pow_le_pow_right₀ (by norm_num) h.index
  have hfits := h.fits
  have hrow : (16 * 2 ^ w : ℤ) < 2 ^ 31 := by nlinarith
  have hcol : (2 : ℤ) ^ k < 2 ^ 31 := by nlinarith
  have hpos : (0 : ℤ) < 16 * 2 ^ w * 2 ^ k := by positivity
  have hsize : (cacheSize * 1024).toInt = 16 * 2 ^ w * 2 ^ k := by
    rw [Int32.toInt_mul, show (1024 : Int32).toInt = 1024 by decide, h.size]
    exact bmod_of_bounds (by linarith) hfits
  have hblock : (blockByte * setAssociativity).toInt = 16 * 2 ^ w := by
    rw [Int32.toInt_mul, show blockByte.toInt = 16 by decide, h.ways]
    exact bmod_of_bounds (by linarith) hrow
  rw [Int32.toInt_div, hsize, hblock, Int.tdiv_eq_ediv_of_nonneg (by positivity),
    Int.mul_ediv_cancel_left _ (by positivity)]
  exact bmod_of_bounds (by linarith) hcol

/-- The set-up of a power-of-two cache. -/
theorem CacheGeometry.setUp_eq {cacheSize setAssociativity : Int32} {w k : ℕ}
    (h : CacheGeometry cacheSize setAssociativity w k) :
    ∃ indexLength : Int32, indexLength.toInt = k ∧
      Sys2.setUp cacheSize setAssociativity =
        .ok ⟨2 ^ w, 2 ^ k, indexLength, intLog2 blockByte⟩ := by
  have hbuf := h.toInt_cacheBufSize
  have hways := h.ways
  have hw : (0 : ℤ) < 2 ^ w := by positivity
  have hk : (0 : ℤ) < 2 ^ k := by positivity
  have hne : blockByte * setAssociativity ≠ 0 := by
    intro hzero
    rw [hzero, show cacheSize * 1024 / 0 = 0 from Int32.div_zero, Int32.toInt_zero] at hbuf
    omega
  have hnat (e : ℕ) : ((2 : ℤ) ^ e).toNat = 2 ^ e := by
    rw [← Nat.cast_ofNat, ← Nat.cast_pow, Int.toNat_natCast]
  refine ⟨_, intLog2_of_two_pow _ k hbuf, ?_⟩
  rw [Sys2.setUp, intDiv, if_neg hne, ok_bind, newArrayLength, if_pos (by omega), ok_bind,
    newArrayLength, if_pos (by omega), ok_bind, hbuf, hways, hnat, hnat, pure_eq_ok]

end Coursework.CacheSimulation
