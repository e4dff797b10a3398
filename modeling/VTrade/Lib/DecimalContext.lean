/-
# Non-negative decimals under a context of fixed precision

An arithmetic operation of a decimal context computes the exact result and
rounds it to the context's number of significant digits, ties to the even
coefficient.  A value is a fraction of natural numbers, so that the rounding is
integer arithmetic and evaluates; what it does to the value is stated over the
rationals: the result is off by at most half a unit in its last place, that is
by a relative error of half of `10 ^ (1 - precision)`.

Exponent limits are not part of this reading: a context that also bounds the
exponent agrees with it on every value that stays within its bounds.
-/

import Mathlib.Algebra.Order.Field.Basic
import Mathlib.Algebra.Order.Field.Power
import Mathlib.Data.Nat.Log
import Mathlib.Data.Rat.Cast.Order
import Mathlib.Tactic.FieldSimp
import Mathlib.Tactic.GCongr
import Mathlib.Tactic.Linarith
import Mathlib.Tactic.NormNum
import Mathlib.Tactic.Positivity
import Mathlib.Tactic.Ring

namespace DecimalContext

/-- A non-negative fraction. -/
structure Fraction where
  num : ℕ
  den : ℕ
  deriving DecidableEq

namespace Fraction

/-- The rational number a fraction stands for. -/
def value (x : Fraction) : ℚ := (x.num : ℚ) / x.den

/-- A natural number as a fraction. -/
def ofNat (n : ℕ) : Fraction := ⟨n, 1⟩

@[simp]
theorem value_ofNat (n : ℕ) : (ofNat n).value = n := by simp [value, ofNat]

theorem value_nonneg (x : Fraction) : 0 ≤ x.value := by
  unfold value
  positivity

end Fraction

/-- The nearest natural number to `n / d`, ties to the even one. -/
def roundHalfEven (n d : ℕ) : ℕ :=
  if 2 * (n % d) < d then n / d
  else if d < 2 * (n % d) then n / d + 1
  else n / d + n / d % 2

/-- Rounding to the nearest is off by at most one half. -/
theorem abs_roundHalfEven_sub_le (n : ℕ) {d : ℕ} (hd : 0 < d) :
    |(roundHalfEven n d : ℚ) - (n : ℚ) / d| ≤ 1 / 2 := by
  have hdq : (0 : ℚ) < d := by exact_mod_cast hd
  have hsplit : (n : ℚ) / d = (n / d : ℕ) + ((n % d : ℕ) : ℚ) / d := by
    have hmod : d * (n / d) + n % d = n := Nat.div_add_mod n d
    have hcast : (d : ℚ) * (n / d : ℕ) + (n % d : ℕ) = n := by exact_mod_cast hmod
    rw [← hcast]
    field_simp
  have hrest : 0 ≤ ((n % d : ℕ) : ℚ) / d := by positivity
  have hlt : ((n % d : ℕ) : ℚ) / d < 1 := by
    rw [div_lt_one hdq]
    exact_mod_cast Nat.mod_lt n hd
  rw [hsplit, abs_le]
  unfold roundHalfEven
  split
  next hlow =>
    have hhalf : ((n % d : ℕ) : ℚ) / d ≤ 1 / 2 := by
      rw [div_le_iff₀ hdq]
      have : (2 : ℚ) * (n % d : ℕ) ≤ d := by exact_mod_cast hlow.le
      linarith
    constructor <;> linarith
  next hlow =>
    have hhalf : 1 / 2 ≤ ((n % d : ℕ) : ℚ) / d := by
      rw [le_div_iff₀ hdq]
      have : (d : ℚ) ≤ 2 * (n % d : ℕ) := by exact_mod_cast not_lt.mp hlow
      linarith
    split
    next hhigh =>
      push_cast
      constructor <;> linarith
    next hhigh =>
      -- A tie: both neighbours are exactly one half away.
      have htie : ((n % d : ℕ) : ℚ) / d = 1 / 2 := by
        rw [div_eq_iff hdq.ne']
        have : (2 : ℚ) * (n % d : ℕ) = d := by
          exact_mod_cast le_antisymm (not_lt.mp hhigh) (not_lt.mp hlow)
        linarith
      rcases Nat.mod_two_eq_zero_or_one (n / d) with heven | hodd
      · rw [heven, htie]
        push_cast
        constructor <;> linarith
      · rw [hodd, htie]
        push_cast
        constructor <;> linarith

/-- Round to a multiple of a power of ten. -/
def roundAt (exponent : ℤ) (x : Fraction) : Fraction :=
  if 0 ≤ exponent then
    ⟨roundHalfEven x.num (x.den * 10 ^ exponent.toNat) * 10 ^ exponent.toNat, 1⟩
  else
    ⟨roundHalfEven (x.num * 10 ^ (-exponent).toNat) x.den, 10 ^ (-exponent).toNat⟩

theorem zpow_eq_pow_toNat {exponent : ℤ} (h : 0 ≤ exponent) :
    (10 : ℚ) ^ exponent = ((10 ^ exponent.toNat : ℕ) : ℚ) := by
  conv_lhs => rw [← Int.toNat_of_nonneg h]
  push_cast
  rw [zpow_natCast]

theorem abs_value_roundAt_sub_le (exponent : ℤ) {x : Fraction} (hden : 0 < x.den) :
    |(roundAt exponent x).value - x.value| ≤ 10 ^ exponent / 2 := by
  have hdenq : (0 : ℚ) < x.den := by exact_mod_cast hden
  unfold roundAt
  split
  next hexp =>
    have hscale : 0 < x.den * 10 ^ exponent.toNat := by positivity
    have herror := abs_roundHalfEven_sub_le x.num hscale
    rw [zpow_eq_pow_toNat hexp]
    generalize hten : (10 ^ exponent.toNat : ℕ) = ten at herror hscale ⊢
    have htenq : (0 : ℚ) < ten := by
      rw [← hten]
      positivity
    have hvalue : x.value = (x.num : ℚ) / ((x.den * ten : ℕ) : ℚ) * ten := by
      unfold Fraction.value
      push_cast
      field_simp
    rw [hvalue]
    simp only [Fraction.value, Nat.cast_one, div_one, Nat.cast_mul]
    rw [← sub_mul, abs_mul, abs_of_pos htenq]
    push_cast at herror
    nlinarith
  next hexp =>
    have herror := abs_roundHalfEven_sub_le (x.num * 10 ^ (-exponent).toNat) hden
    have hpow : (10 : ℚ) ^ exponent = ((10 ^ (-exponent).toNat : ℕ) : ℚ)⁻¹ := by
      rw [← zpow_eq_pow_toNat (by omega), ← zpow_neg, neg_neg]
    rw [hpow]
    generalize hten : (10 ^ (-exponent).toNat : ℕ) = ten at herror ⊢
    have htenq : (0 : ℚ) < ten := by
      rw [← hten]
      positivity
    have hvalue : x.value = ((x.num * ten : ℕ) : ℚ) / x.den / ten := by
      unfold Fraction.value
      push_cast
      field_simp
    rw [hvalue]
    simp only [Fraction.value]
    rw [← sub_div, abs_div, abs_of_pos htenq, div_le_iff₀ htenq]
    calc
      _ ≤ (1 : ℚ) / 2 := herror
      _ = (ten : ℚ)⁻¹ / 2 * ten := by field_simp

/-- The number of decimal digits. -/
def decimalLength (n : ℕ) : ℕ := Nat.log 10 n + 1

theorem lt_pow_decimalLength (n : ℕ) : n < 10 ^ decimalLength n :=
  Nat.lt_pow_succ_log_self (by norm_num) n

theorem pow_le_of_decimalLength {n : ℕ} (h : n ≠ 0) : 10 ^ decimalLength n ≤ 10 * n := by
  rw [decimalLength, pow_succ, mul_comm]
  exact Nat.mul_le_mul_left 10 (Nat.pow_log_le_self 10 h)

/-- Round to `precision` significant digits.  The quotient of a number of `a`
digits by one of `b` digits has `a - b` digits before the point or one more, so
the exponent of the last kept digit is one of two. -/
def round (precision : ℕ) (x : Fraction) : Fraction :=
  if x.num = 0 then ⟨0, 1⟩
  else
    let exponent : ℤ := decimalLength x.num - decimalLength x.den - precision
    if x.num * 10 ^ decimalLength x.den < x.den * 10 ^ decimalLength x.num then
      roundAt exponent x
    else
      roundAt (exponent + 1) x

/-- The relative error of one rounding. -/
def relativeError (precision : ℕ) : ℚ := 10 ^ (1 - (precision : ℤ)) / 2

theorem relativeError_pos (precision : ℕ) : 0 < relativeError precision := by
  unfold relativeError
  positivity

private theorem zpow_decimalLength_sub (a b : ℕ) (shift : ℤ) :
    (10 : ℚ) ^ ((a : ℤ) - b + shift) = 10 ^ a / 10 ^ b * 10 ^ shift := by
  rw [zpow_add₀ (by norm_num), zpow_sub₀ (by norm_num), zpow_natCast, zpow_natCast]

/-- A rounded value is off by at most half a unit in its last place. -/
theorem abs_value_round_sub_le (precision : ℕ) {x : Fraction} (hden : 0 < x.den) :
    |(round precision x).value - x.value| ≤ x.value * relativeError precision := by
  unfold round
  split
  next hzero => simp [Fraction.value, hzero]
  next hzero =>
    have hdenq : (0 : ℚ) < x.den := by exact_mod_cast hden
    have hnumq : (0 : ℚ) < x.num := by exact_mod_cast Nat.pos_of_ne_zero hzero
    have hnum : (10 : ℚ) ^ decimalLength x.num ≤ 10 * x.num := by
      exact_mod_cast pow_le_of_decimalLength hzero
    have hlen : (x.den : ℚ) ≤ 10 ^ decimalLength x.den := by
      exact_mod_cast (lt_pow_decimalLength x.den).le
    have hpow : (0 : ℚ) < 10 ^ decimalLength x.den := by positivity
    have hshift : (0 : ℚ) < 10 ^ (-(precision : ℤ)) := by positivity
    have hunit : relativeError precision = 10 * 10 ^ (-(precision : ℤ)) / 2 := by
      rw [relativeError, sub_eq_add_neg, zpow_add₀ (by norm_num), zpow_one]
    dsimp only
    split
    next hfits =>
      refine (abs_value_roundAt_sub_le _ hden).trans ?_
      rw [sub_eq_add_neg, zpow_decimalLength_sub, hunit, Fraction.value]
      have hquot : (10 : ℚ) ^ decimalLength x.num / 10 ^ decimalLength x.den ≤
          10 * (x.num / x.den) := by
        rw [div_le_iff₀ hpow]
        calc
          _ ≤ 10 * (x.num : ℚ) := hnum
          _ = 10 * (x.num / x.den) * x.den := by field_simp
          _ ≤ _ := by gcongr
      nlinarith
    next hfits =>
      refine (abs_value_roundAt_sub_le _ hden).trans ?_
      have hlarge : (x.den : ℚ) * 10 ^ decimalLength x.num ≤
          x.num * 10 ^ decimalLength x.den := by
        exact_mod_cast not_lt.mp hfits
      rw [show (decimalLength x.num : ℤ) - decimalLength x.den - precision + 1 =
        decimalLength x.num - decimalLength x.den + (1 + -(precision : ℤ)) by ring,
        zpow_decimalLength_sub, zpow_add₀ (by norm_num), zpow_one, hunit, Fraction.value]
      have hquot : (10 : ℚ) ^ decimalLength x.num / 10 ^ decimalLength x.den ≤
          x.num / x.den := by
        rw [div_le_div_iff₀ hpow hdenq]
        linarith
      nlinarith

theorem value_round_le (precision : ℕ) {x : Fraction} (hden : 0 < x.den) :
    (round precision x).value ≤ x.value * (1 + relativeError precision) := by
  have h := (abs_le.mp (abs_value_round_sub_le precision hden)).2
  linarith

theorem round_den_pos (precision : ℕ) (x : Fraction) : 0 < (round precision x).den := by
  unfold round roundAt
  dsimp only
  split_ifs <;> positivity

/-- The product of two decimals under the context. -/
def mul (precision : ℕ) (x y : Fraction) : Fraction :=
  round precision ⟨x.num * y.num, x.den * y.den⟩

/-- The quotient of two decimals under the context. -/
def div (precision : ℕ) (x y : Fraction) : Fraction :=
  round precision ⟨x.num * y.den, x.den * y.num⟩

/-- The nearest integer, ties upwards. -/
def toIntegralHalfUp (x : Fraction) : ℕ := (2 * x.num + x.den) / (2 * x.den)

/-- A value rounds past a number exactly if it is one half above it or more. -/
theorem toIntegralHalfUp_le_iff {x : Fraction} (hden : 0 < x.den) {n : ℕ} :
    toIntegralHalfUp x ≤ n ↔ x.value < n + 1 / 2 := by
  have hdenq : (0 : ℚ) < x.den := by exact_mod_cast hden
  have hscaled : x.value < n + 1 / 2 ↔ 2 * x.num + x.den < (n + 1) * (2 * x.den) := by
    rw [Fraction.value, div_lt_iff₀ hdenq, ← @Nat.cast_lt ℚ]
    push_cast
    constructor <;> intro h <;> linarith
  rw [hscaled, ← Nat.div_lt_iff_lt_mul (by omega), Nat.lt_succ_iff]
  rfl

/-- A value less than one half above a number does not round past it. -/
theorem toIntegralHalfUp_le {x : Fraction} (hden : 0 < x.den) {n : ℕ}
    (h : x.value < n + 1 / 2) : toIntegralHalfUp x ≤ n :=
  (toIntegralHalfUp_le_iff hden).mpr h

/-! ## Exact operations -/

theorem roundHalfEven_of_dvd {n d : ℕ} (h : d ∣ n) (hd : 0 < d) :
    (roundHalfEven n d : ℚ) = (n : ℚ) / d := by
  have hdq : (d : ℚ) ≠ 0 := by exact_mod_cast hd.ne'
  obtain ⟨quotient, rfl⟩ := h
  unfold roundHalfEven
  rw [Nat.mul_mod_right, if_pos (by omega), Nat.mul_div_cancel_left _ hd]
  push_cast
  field_simp

theorem value_roundAt_of_dvd {x : Fraction} (hden : 0 < x.den) {places : ℕ}
    (hdvd : x.den ∣ x.num * 10 ^ places) {exponent : ℤ} (h : exponent ≤ -places) :
    (roundAt exponent x).value = x.value := by
  have hdenq : (x.den : ℚ) ≠ 0 := by exact_mod_cast hden.ne'
  unfold roundAt
  split
  next hexp =>
    obtain rfl : exponent = 0 := by omega
    obtain rfl : places = 0 := by omega
    rw [pow_zero, mul_one] at hdvd
    simp only [Fraction.value, Int.toNat_zero, pow_zero, mul_one, Nat.cast_one, div_one]
    exact roundHalfEven_of_dvd hdvd hden
  next hexp =>
    obtain ⟨more, hmore⟩ := Nat.exists_eq_add_of_le (show places ≤ (-exponent).toNat by omega)
    have hdvd' : x.den ∣ x.num * 10 ^ (-exponent).toNat := by
      rw [hmore, pow_add, ← mul_assoc]
      exact Dvd.dvd.mul_right hdvd _
    simp only [Fraction.value]
    rw [roundHalfEven_of_dvd hdvd' hden]
    push_cast
    field_simp

/-- A value with so many decimal places that all its digits are kept is not rounded. -/
theorem value_round_of_dvd {precision places : ℕ} {x : Fraction} (hden : 0 < x.den)
    (hdvd : x.den ∣ x.num * 10 ^ places)
    (hfits : decimalLength x.num + places < precision + decimalLength x.den) :
    (round precision x).value = x.value := by
  unfold round
  split
  next hzero => simp [Fraction.value, hzero]
  next =>
    dsimp only
    split
    · exact value_roundAt_of_dvd hden hdvd (by omega)
    · exact value_roundAt_of_dvd hden hdvd (by omega)

end DecimalContext
