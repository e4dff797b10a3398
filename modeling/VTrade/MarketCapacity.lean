/-
# The capacity of a market

The agent is shown how much more of a market it may buy: the fraction of the account value that
one market may reach, less what is held.  The fraction is rounded to the nearest micro-dollar.
The check that admits a purchase compares exactly.

The two agree where the share is less than half a micro-dollar above a whole number of them, and
where so much is held that neither admits anything.
-/

import Mathlib.Tactic.Linarith
import Mathlib.Tactic.Ring
import VTrade.Budget
import VTrade.Lib.DecimalContext
import VTrade.Risk

namespace VTrade

/-- Cost-basis capacity for one market in a coherent account snapshot. -/
structure MarketCapacity where
  heldCostBasisMicros : ℤ
  pendingBuyReservedCostBasisMicros : ℤ
  marketLimitMicros : ℤ
  remainingCapacityMicros : ℤ
  deriving DecidableEq

/-- A product of decimals has 28 significant digits. -/
def shareOfAccount (accountValueMicros : ℤ) (fraction : ℚ) : DecimalContext.Fraction :=
  DecimalContext.mul 28 (.ofNat accountValueMicros.toNat) ⟨fraction.num.toNat, fraction.den⟩

/-- Calculate the executable capacity for one market. -/
def calculateMarketCapacity (accountValueMicros : ℤ)
    (maximumMarketCostBasisFraction : DecimalValue)
    (heldCostBasisMicros pendingBuyReservedCostBasisMicros : ℤ) : Except Raised MarketCapacity :=
  if accountValueMicros < 0 then .error (.valueError "account value cannot be negative")
  else
    match maximumMarketCostBasisFraction with
    | .infinity _ | .nan =>
        .error (.valueError "maximum market cost-basis fraction must be between zero and one")
    | .finite fraction =>
        if ¬ (0 < fraction ∧ fraction ≤ 1) then
          .error (.valueError "maximum market cost-basis fraction must be between zero and one")
        else if heldCostBasisMicros < 0 then
          .error (.valueError "held cost basis cannot be negative")
        else if pendingBuyReservedCostBasisMicros < 0 then
          .error (.valueError "pending BUY reserved cost basis cannot be negative")
        else
          let marketLimitMicros : ℤ :=
            DecimalContext.toIntegralHalfUp (shareOfAccount accountValueMicros fraction)
          .ok {
            heldCostBasisMicros := heldCostBasisMicros
            pendingBuyReservedCostBasisMicros := pendingBuyReservedCostBasisMicros
            marketLimitMicros := marketLimitMicros
            remainingCapacityMicros :=
              max 0 (marketLimitMicros - heldCostBasisMicros - pendingBuyReservedCostBasisMicros) }

/-- The check and the capacity of a market agree on every purchase: the check approves what is
within a positive capacity and refuses what is beyond the capacity. -/
def CapacityGates (capacity : MarketCapacity) (accountValue held numerator denominator : ℤ) :
    Prop :=
  ∀ gross, 0 ≤ gross → ∃ check,
    checkMarketConcentration accountValue held gross numerator denominator = .ok check ∧
      (0 < capacity.remainingCapacityMicros → gross ≤ capacity.remainingCapacityMicros →
        check.approved = true) ∧
      (capacity.remainingCapacityMicros < gross → check.approved = false)

/-- The share of the account, as decimals are multiplied, is nearest to the whole micro-dollars
of the exact one; or as much is held as either of them comes to. -/
def ShareRoundsDown (accountValue held numerator denominator : ℤ) : Prop :=
  let share := (shareOfAccount accountValue (numerator / denominator)).value
  let whole := accountValue * numerator / denominator
  (whole - 1 / 2 ≤ share ∧ share < whole + 1 / 2) ∨ (whole ≤ held ∧ share < held + 1 / 2)

/-- What the check approves lies within the whole micro-dollars of the exact share. -/
theorem approved_iff_le_whole {accountValue held gross numerator denominator : ℤ}
    (hdenominator : 0 < denominator) :
    (held + gross) * denominator ≤ accountValue * numerator ↔
      held + gross ≤ accountValue * numerator / denominator :=
  (Int.le_ediv_iff_mul_le hdenominator).symm

/-- The check of a purchase decides by the whole micro-dollars of the exact share. -/
theorem capacityGates_iff {capacity : MarketCapacity} {accountValue held numerator denominator : ℤ}
    (haccount : 0 ≤ accountValue) (hheld : 0 ≤ held) (hnumerator : 0 < numerator)
    (hfraction : numerator ≤ denominator) :
    CapacityGates capacity accountValue held numerator denominator ↔
      ∀ gross, 0 ≤ gross →
        (0 < capacity.remainingCapacityMicros → gross ≤ capacity.remainingCapacityMicros →
          held + gross ≤ accountValue * numerator / denominator) ∧
        (capacity.remainingCapacityMicros < gross →
          accountValue * numerator / denominator < held + gross) := by
  unfold CapacityGates
  refine forall₂_congr fun gross hgross => ?_
  obtain ⟨check, hcheck⟩ := (checkMarketConcentration_isOk_iff hheld hgross
    hnumerator hfraction).mpr haccount
  have happroved : check.approved =
      decide (held + gross ≤ accountValue * numerator / denominator) := by
    rw [checkMarketConcentration_approved hcheck]
    exact decide_eq_decide.mpr (approved_iff_le_whole (hnumerator.trans_le hfraction))
  constructor
  · rintro ⟨other, hother, hwithin, hbeyond⟩
    obtain rfl : check = other := Except.ok.inj (hcheck.symm.trans hother)
    rw [happroved] at hwithin hbeyond
    exact ⟨by simpa using hwithin, by simpa using hbeyond⟩
  · rintro ⟨hwithin, hbeyond⟩
    refine ⟨check, hcheck, ?_, ?_⟩
    · simpa [happroved] using hwithin
    · simpa [happroved] using hbeyond

/-- A limit and the exact share gate the same purchases exactly if they are the same, or neither
is above what is held. -/
theorem gates_same_iff {held limit whole : ℤ} :
    (∀ gross, 0 ≤ gross → (0 < max 0 (limit - held - 0) → gross ≤ max 0 (limit - held - 0) →
        held + gross ≤ whole) ∧ (max 0 (limit - held - 0) < gross → whole < held + gross)) ↔
      limit = whole ∨ (whole ≤ held ∧ limit ≤ held) := by
  constructor
  · intro h
    have hwithin := (h (max 0 (limit - held - 0)) (le_max_left _ _)).1
    have hbeyond := (h (max 0 (limit - held - 0) + 1) (by omega)).2 (by omega)
    by_cases hroom : held < limit
    · have := hwithin (by omega) (le_refl _)
      omega
    · omega
  · intro h gross hgross
    omega

/-- What a share is rounded to, half up. -/
theorem halfUp_le_iff {share : DecimalContext.Fraction} (hshare : 0 < share.den) {amount : ℤ}
    (hamount : 0 ≤ amount) :
    (DecimalContext.toIntegralHalfUp share : ℤ) ≤ amount ↔ share.value < amount + 1 / 2 := by
  obtain ⟨amount, rfl⟩ := Int.eq_ofNat_of_zero_le hamount
  rw [Int.ofNat_le, DecimalContext.toIntegralHalfUp_le_iff hshare]
  push_cast
  rfl

theorem halfUp_eq_iff {share : DecimalContext.Fraction} (hshare : 0 < share.den) {amount : ℤ}
    (hamount : 0 ≤ amount) :
    (DecimalContext.toIntegralHalfUp share : ℤ) = amount ↔
      amount - 1 / 2 ≤ share.value ∧ share.value < amount + 1 / 2 := by
  rw [← halfUp_le_iff hshare hamount]
  rcases hamount.eq_or_lt with rfl | hpos
  · have := share.value_nonneg
    have hbelow : ((0 : ℤ) : ℚ) - 1 / 2 ≤ share.value := by
      push_cast
      linarith
    simp only [hbelow, true_and]
    omega
  · have hbelow := halfUp_le_iff hshare (show 0 ≤ amount - 1 by omega)
    have hshift : ((amount - 1 : ℤ) : ℚ) + 1 / 2 = amount - 1 / 2 := by
      push_cast
      ring
    rw [hshift] at hbelow
    rw [← not_lt, ← hbelow]
    omega

/-- Where the fraction is a proper one, the capacity is calculated, and it agrees with the check
exactly if the share of the account is rounded down or as much is held. -/
theorem capacity_gates_iff {accountValue held numerator denominator : ℤ}
    (haccount : 0 ≤ accountValue) (hheld : 0 ≤ held) (hnumerator : 0 < numerator)
    (hfraction : numerator ≤ denominator) :
    ∃ capacity, calculateMarketCapacity accountValue (.finite (numerator / denominator)) held 0 =
        .ok capacity ∧
      (CapacityGates capacity accountValue held numerator denominator ↔
        ShareRoundsDown accountValue held numerator denominator) := by
  have hdenominator : 0 < denominator := hnumerator.trans_le hfraction
  have hproper : (0 : ℚ) < numerator / denominator ∧ (numerator : ℚ) / denominator ≤ 1 := by
    have hq : (0 : ℚ) < denominator := by exact_mod_cast hdenominator
    constructor
    · exact div_pos (by exact_mod_cast hnumerator) hq
    · rw [div_le_one hq]
      exact_mod_cast hfraction
  unfold calculateMarketCapacity
  rw [if_neg (not_lt.mpr haccount)]
  dsimp only
  rw [if_neg (not_not.mpr hproper), if_neg (not_lt.mpr hheld), if_neg (lt_irrefl 0)]
  refine ⟨_, rfl, ?_⟩
  rw [capacityGates_iff haccount hheld hnumerator hfraction]
  unfold ShareRoundsDown
  dsimp only
  have hshare : 0 < (shareOfAccount accountValue (numerator / denominator)).den :=
    DecimalContext.round_den_pos 28 _
  generalize shareOfAccount accountValue (numerator / denominator) = share at hshare ⊢
  have hwhole : 0 ≤ accountValue * numerator / denominator :=
    Int.ediv_nonneg (mul_nonneg haccount hnumerator.le) hdenominator.le
  rw [gates_same_iff, halfUp_eq_iff hshare hwhole, halfUp_le_iff hshare hheld]

theorem capacity_gates_iff_account :
    ∃ capacity, calculateMarketCapacity 1000000010 (.finite ((15 : ℤ) / (100 : ℤ))) 0 0 =
        .ok capacity ∧
      (CapacityGates capacity 1000000010 0 15 100 ↔ ShareRoundsDown 1000000010 0 15 100) :=
  capacity_gates_iff (by decide) (by decide) (by decide) (by decide)

/-- The capacity of 15 in 100 of 1000.000010 dollars is half a micro-dollar above the share, and
a purchase of it is refused. -/
theorem capacity_refused :
    ∃ capacity, calculateMarketCapacity 1000000010 (.finite ((15 : ℤ) / (100 : ℤ))) 0 0 =
        .ok capacity ∧ capacity.remainingCapacityMicros = 150000002 ∧
      ¬ CapacityGates capacity 1000000010 0 15 100 := by
  refine ⟨⟨0, 0, 150000002, 150000002⟩, by decide +kernel, rfl, fun h => ?_⟩
  obtain ⟨check, hcheck, hwithin, -⟩ := h 150000002 (by decide)
  have happroved := checkMarketConcentration_approved hcheck
  rw [hwithin (by decide) (le_refl _)] at happroved
  exact absurd happroved (by decide)

/-- The share is exact where the fraction has some decimal places and the digits of the product
are kept. -/
theorem shareOfAccount_exact {accountValue : ℤ} (haccount : 0 ≤ accountValue) {fraction : ℚ}
    (hfraction : 0 ≤ fraction) {places : ℕ} (hdecimal : fraction.den ∣ 10 ^ places)
    (hfits : DecimalContext.decimalLength (accountValue.toNat * fraction.num.toNat) + places <
      28 + DecimalContext.decimalLength fraction.den) :
    (shareOfAccount accountValue fraction).value = accountValue * fraction := by
  unfold shareOfAccount DecimalContext.mul
  rw [DecimalContext.value_round_of_dvd
    (by simpa [DecimalContext.Fraction.ofNat] using fraction.pos)
    (by simpa [DecimalContext.Fraction.ofNat] using Dvd.dvd.mul_left hdecimal _)
    (by simpa [DecimalContext.Fraction.ofNat] using hfits)]
  have hnum : ((fraction.num.toNat : ℤ) : ℚ) = fraction.num := by
    rw [Int.toNat_of_nonneg (Rat.num_nonneg.mpr hfraction)]
  have haccount' : ((accountValue.toNat : ℤ) : ℚ) = accountValue := by
    rw [Int.toNat_of_nonneg haccount]
  conv_rhs => rw [← Rat.num_div_den fraction, ← hnum, ← haccount']
  simp only [DecimalContext.Fraction.value, DecimalContext.Fraction.ofNat, one_mul]
  push_cast
  ring

/-- Where the share is exact, it is rounded down if what is left of it is below one half. -/
theorem shareRoundsDown_iff_of_exact {accountValue held numerator denominator : ℤ}
    (hdenominator : 0 < denominator)
    (hexact : (shareOfAccount accountValue (numerator / denominator)).value =
      (accountValue * numerator : ℤ) / denominator) :
    ShareRoundsDown accountValue held numerator denominator ↔
      2 * (accountValue * numerator % denominator) < denominator ∨
        accountValue * numerator < held * denominator := by
  have hq : (0 : ℚ) < denominator := by exact_mod_cast hdenominator
  have hsplit := Int.emod_add_mul_ediv (accountValue * numerator) denominator
  have hrest := Int.emod_nonneg (accountValue * numerator) hdenominator.ne'
  have hless := Int.emod_lt_of_pos (accountValue * numerator) hdenominator
  unfold ShareRoundsDown
  rw [hexact]
  generalize accountValue * numerator = product at *
  generalize product / denominator = whole at *
  generalize product % denominator = rest at *
  have hhalf : ∀ amount : ℤ, (product : ℚ) / denominator < amount + 1 / 2 ↔
      2 * product < (2 * amount + 1) * denominator := by
    intro amount
    rw [div_lt_iff₀ hq, ← @Int.cast_lt ℚ]
    push_cast
    constructor <;> intro h <;> linarith
  have habove : (whole : ℚ) - 1 / 2 ≤ (product : ℚ) / denominator := by
    rw [le_div_iff₀ hq, ← hsplit]
    have hrestq : (0 : ℚ) ≤ rest := by exact_mod_cast hrest
    push_cast
    linarith
  simp only [habove, true_and, hhalf]
  subst hsplit
  constructor
  · rintro (hlow | ⟨hle, hbelow⟩)
    · left
      linarith
    · rcases hle.eq_or_lt with rfl | hlt
      · left
        linarith
      · right
        nlinarith
  · rintro (hlow | hbelow)
    · left
      linarith
    · right
      have hlt : whole < held := by nlinarith
      exact ⟨hlt.le, by nlinarith⟩

/-- With the default fraction, and an account of any size that occurs, the capacity is right
exactly if the share does not end in half a micro-dollar or more, or as much is held. -/
theorem shareRoundsDown_default_iff {accountValue held : ℤ} (haccount : 0 ≤ accountValue)
    (hsize : accountValue < 10 ^ 26) :
    ShareRoundsDown accountValue held 15 100 ↔
      accountValue * 15 % 100 < 50 ∨ accountValue * 15 < held * 100 := by
  have hvalue : (((15 : ℤ) : ℚ) / ((100 : ℤ) : ℚ)) = 3 / 20 := by norm_num
  have hnum : (3 / 20 : ℚ).num = 3 := by decide +kernel
  have hden : (3 / 20 : ℚ).den = 20 := by decide +kernel
  have hdigits : DecimalContext.decimalLength (accountValue.toNat * 3) ≤ 27 := by
    unfold DecimalContext.decimalLength
    have hlog := Nat.log_lt_of_lt_pow' (show 27 ≠ 0 by decide)
      (show accountValue.toNat * 3 < 10 ^ 27 by omega)
    omega
  have htwenty : DecimalContext.decimalLength 20 = 2 := by decide +kernel
  have hexact := shareOfAccount_exact haccount (show (0 : ℚ) ≤ 3 / 20 by norm_num)
    (show (3 / 20 : ℚ).den ∣ 10 ^ 2 by rw [hden]; decide)
    (by
      rw [hnum, hden, htwenty]
      exact Nat.add_lt_add_right (Nat.lt_succ_of_le hdigits) 2)
  rw [shareRoundsDown_iff_of_exact (by decide)]
  · constructor <;> intro h <;> omega
  · rw [hvalue, hexact]
    push_cast
    ring

end VTrade
