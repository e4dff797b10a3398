/-
# Exact fees

The fee of a fill is quadratic in the price and kept as a fraction until it is
rounded: fee and position cost together go up to a whole cent, and the balance
change then down to one.  What that last step takes beyond the fee is collected
in an accumulator, and given back as a rebate once it makes a cent.

The accumulator is a remainder below one cent before every fill of an order, so
the calculation of an order never raises.
-/

import Mathlib.Tactic.Positivity
import Mathlib.Tactic.Ring
import VTrade.Domain.Execution

namespace VTrade

def centMicros : ℤ := 10000

/-- The raw fee in micro-dollars, as a fraction:
`M * R * (units / 100) * (p / 1e6) * (1 - p / 1e6) * 1e6`. -/
def rawFee (policy : FeePolicySnapshot) (contractUnits priceMicros : ℤ) : ℤ × ℤ :=
  (policy.resolvedMultiplier.1 * policy.rate.1 * contractUnits * priceMicros *
      (1000000 - priceMicros),
    policy.resolvedMultiplier.2 * policy.rate.2 * 100 * 1000000)

/-- The fee that rounds fee and position cost together up to a cent. -/
def tradeFee (policy : FeePolicySnapshot) (gross numerator denominator : ℤ) : ℤ :=
  let totalBeforeRoundingCeil := (gross * denominator + numerator + denominator - 1) / denominator
  if policy.waiver ∨ numerator = 0 then 0
  else (totalBeforeRoundingCeil + centMicros - 1) / centMicros * centMicros - gross

namespace ExactFeeCalculator

def calculate (contractUnits priceMicros : ℤ) (policy : FeePolicySnapshot) (action : Side)
    (accumulatorBeforeMicros : ℤ) : Except Raised FeeCalculation :=
  if contractUnits ≤ 0 then .error (.valueError "fee quantity must be positive")
  else if ¬ (0 ≤ priceMicros ∧ priceMicros ≤ 1000000) then
    .error (.valueError "fee price is outside the binary range")
  else if accumulatorBeforeMicros < 0 ∨ accumulatorBeforeMicros ≥ centMicros then
    .error (.valueError "fee accumulator must be a sub-cent remainder")
  else do
    let gross ← grossCashMicros contractUnits priceMicros
    let (numerator, denominator) := rawFee policy contractUnits priceMicros
    let rawMicrosCeil := if numerator ≠ 0 then (numerator + denominator - 1) / denominator else 0
    let tradeFee := tradeFee policy gross numerator denominator
    if policy.waiver = false ∧ tradeFee < rawMicrosCeil then
      .error (.valueError "fee rounding understated the official fee")
    else
      let revenue := if action = .sell then gross else -gross
      let balanceChange := revenue - tradeFee
      let postedBalanceChange := balanceChange / centMicros * centMicros
      let roundingFee := balanceChange - postedBalanceChange
      let accumulated := accumulatorBeforeMicros + roundingFee
      let rebate := min (accumulated / centMicros * centMicros) (tradeFee + roundingFee)
      let after := accumulated - rebate
      let netFee := tradeFee + roundingFee - rebate
      if netFee < 0 then .error (.valueError "fee calculation produced a negative net fee")
      else
        .ok {
          grossMicros := gross
          tradeFeeRawNanos := if numerator ≠ 0 then numerator * 1000 / denominator else 0
          tradeFeeMicros := tradeFee
          roundingFeeMicros := roundingFee
          rebateMicros := rebate
          netFeeMicros := netFee
          postedBalanceChangeMicros := postedBalanceChange + rebate
          accumulatorBeforeMicros := accumulatorBeforeMicros
          accumulatorAfterMicros := after
          priceMicros := priceMicros
          contractUnits := contractUnits
          participantRole := policy.participantRole
          policyFingerprint := policy.fingerprint }

/-- The calculations of the fills of an order, each from the accumulator that the
last one left. -/
def calculateFillsFrom (policy : FeePolicySnapshot) (action : Side) :
    ℤ → List (ℤ × ℤ) → Except Raised (List FeeCalculation)
  | _, [] => .ok []
  | accumulator, (contractUnits, priceMicros) :: rest => do
      let calculation ← calculate contractUnits priceMicros policy action accumulator
      let calculations ← calculateFillsFrom policy action calculation.accumulatorAfterMicros rest
      .ok (calculation :: calculations)

def calculateFills (fills : List (ℤ × ℤ)) (policy : FeePolicySnapshot) (action : Side) :
    Except Raised (List FeeCalculation) :=
  calculateFillsFrom policy action 0 fills

end ExactFeeCalculator

/-- A fill that a fee can be calculated for. -/
def Chargeable (fill : ℤ × ℤ) : Prop := 0 < fill.1 ∧ 0 ≤ fill.2 ∧ fill.2 ≤ 1000000

theorem rawFee_bounds (policy : FeePolicySnapshot) {contractUnits priceMicros : ℤ}
    (h : Chargeable (contractUnits, priceMicros)) :
    0 ≤ (rawFee policy contractUnits priceMicros).1 ∧
      0 < (rawFee policy contractUnits priceMicros).2 := by
  obtain ⟨hunits, hprice, hprice'⟩ := h
  obtain ⟨hmultiplier, hmultiplier'⟩ := policy.resolvedMultiplier_valid
  obtain ⟨hrate, hrate'⟩ := policy.rate_pos
  have hrest : 0 ≤ 1000000 - priceMicros := by
    simp only at hprice'
    omega
  constructor
  · unfold rawFee
    simp only at hunits hprice ⊢
    positivity
  · unfold rawFee
    positivity

/-- The rounded fee is at least the raw one, and that is not negative. -/
theorem le_tradeFee {policy : FeePolicySnapshot} (gross : ℤ) {numerator denominator : ℤ}
    (hnumerator : 0 ≤ numerator) (hdenominator : 0 < denominator) (hwaiver : policy.waiver = false)
    (hnonzero : numerator ≠ 0) :
    (numerator + denominator - 1) / denominator ≤ tradeFee policy gross numerator denominator ∧
      0 ≤ tradeFee policy gross numerator denominator := by
  have htotal : (gross * denominator + numerator + denominator - 1) / denominator =
      gross + (numerator + denominator - 1) / denominator := by
    rw [show gross * denominator + numerator + denominator - 1 =
      (numerator + denominator - 1) + denominator * gross by ring,
      Int.add_mul_ediv_left _ _ hdenominator.ne', add_comm]
  have hraw : 0 ≤ (numerator + denominator - 1) / denominator :=
    Int.ediv_nonneg (by omega) hdenominator.le
  unfold tradeFee
  rw [if_neg (by simp [hwaiver, hnonzero]), htotal]
  unfold centMicros
  omega

theorem tradeFee_nonneg (policy : FeePolicySnapshot) (gross : ℤ) {numerator denominator : ℤ}
    (hnumerator : 0 ≤ numerator) (hdenominator : 0 < denominator) :
    0 ≤ tradeFee policy gross numerator denominator := by
  by_cases hfree : policy.waiver = true ∨ numerator = 0
  · unfold tradeFee
    rw [if_pos (by simpa using hfree)]
  · rw [not_or] at hfree
    exact (le_tradeFee gross hnumerator hdenominator (by simpa using hfree.1) hfree.2).2

/-- What a calculated fee is like. -/
structure FeeSound (contractUnits priceMicros : ℤ) (calculation : FeeCalculation) : Prop where
  gross_eq : grossCashMicros contractUnits priceMicros = .ok calculation.grossMicros
  gross_nonneg : 0 ≤ calculation.grossMicros
  tradeFee_nonneg : 0 ≤ calculation.tradeFeeMicros
  roundingFee_nonneg : 0 ≤ calculation.roundingFeeMicros
  rebate_nonneg : 0 ≤ calculation.rebateMicros
  netFee_nonneg : 0 ≤ calculation.netFeeMicros
  after_nonneg : 0 ≤ calculation.accumulatorAfterMicros
  after_lt : calculation.accumulatorAfterMicros < centMicros

/-- A quantity has a gross value at a price of the binary range. -/
theorem grossCashMicros_isOk {contractUnits priceMicros : ℤ}
    (h : Chargeable (contractUnits, priceMicros)) :
    ∃ gross, grossCashMicros contractUnits priceMicros = .ok gross ∧ 0 ≤ gross := by
  obtain ⟨hunits, hprice, hprice'⟩ := h
  simp only at hunits hprice hprice'
  have hnonneg : 0 ≤ contractUnits * priceMicros / 100 :=
    Int.ediv_nonneg (mul_nonneg hunits.le hprice) (by norm_num)
  unfold grossCashMicros
  rw [if_neg (not_le.mpr hunits), if_neg (not_not.mpr ⟨hprice, hprice'⟩)]
  simp only
  split
  · exact ⟨_, rfl, by omega⟩
  · exact ⟨_, rfl, hnonneg⟩

namespace ExactFeeCalculator

/-- From a remainder below one cent a fee is calculated, and leaves one. -/
theorem calculate_isOk {contractUnits priceMicros accumulator : ℤ} (policy : FeePolicySnapshot)
    (action : Side) (h : Chargeable (contractUnits, priceMicros)) (hnonneg : 0 ≤ accumulator)
    (hlt : accumulator < centMicros) :
    ∃ calculation, calculate contractUnits priceMicros policy action accumulator =
      .ok calculation ∧ FeeSound contractUnits priceMicros calculation := by
  obtain ⟨gross, hgross, hgross'⟩ := grossCashMicros_isOk h
  obtain ⟨hnumerator, hdenominator⟩ := rawFee_bounds policy h
  obtain ⟨hunits, hprice, hprice'⟩ := h
  have htrade := tradeFee_nonneg policy gross hnumerator hdenominator
  unfold calculate
  rw [if_neg (not_le.mpr hunits), if_neg (not_not.mpr ⟨hprice, hprice'⟩), if_neg (by omega),
    hgross]
  simp only [bind, Except.bind]
  generalize hraw : rawFee policy contractUnits priceMicros = raw at *
  obtain ⟨numerator, denominator⟩ := raw
  simp only at hnumerator hdenominator htrade ⊢
  rw [if_neg]
  · generalize htradeFee : tradeFee policy gross numerator denominator = fee at *
    generalize hchange : (if action = .sell then gross else -gross) - fee = change
    unfold centMicros at *
    rw [if_neg (by omega)]
    exact ⟨_, rfl, ⟨hgross, hgross', htrade, by simp only; omega, by simp only; omega,
      by simp only; omega, by simp only; omega, by simp only [centMicros]; omega⟩⟩
  · rintro ⟨hwaiver, hunderstated⟩
    by_cases hzero : numerator = 0
    · rw [if_neg (not_not.mpr hzero)] at hunderstated
      omega
    · rw [if_pos hzero] at hunderstated
      have hle := (le_tradeFee gross hnumerator hdenominator hwaiver hzero).1
      omega

/-- A net fee is made up of the trade fee and the rounding fee less the rebate. -/
theorem calculate_netFee {contractUnits priceMicros accumulator : ℤ}
    {policy : FeePolicySnapshot} {action : Side} {calculation : FeeCalculation}
    (h : calculate contractUnits priceMicros policy action accumulator = .ok calculation) :
    calculation.netFeeMicros = calculation.tradeFeeMicros + calculation.roundingFeeMicros -
      calculation.rebateMicros := by
  unfold calculate at h
  iterate 3 obtain ⟨-, h⟩ := Checks.ite_error_eq_ok.mp h
  obtain ⟨gross, -, h⟩ := Checks.bind_eq_ok.mp h
  obtain ⟨-, h⟩ := Checks.ite_error_eq_ok.mp h
  obtain ⟨-, h⟩ := Checks.ite_error_eq_ok.mp h
  cases h
  rfl

theorem calculateFills_netFee {fills : List (ℤ × ℤ)} {policy : FeePolicySnapshot} {action : Side}
    {calculations : List FeeCalculation}
    (h : calculateFills fills policy action = .ok calculations) :
    ∀ calculation ∈ calculations, calculation.netFeeMicros =
      calculation.tradeFeeMicros + calculation.roundingFeeMicros - calculation.rebateMicros := by
  unfold calculateFills at h
  generalize (0 : ℤ) = accumulator at h
  induction fills generalizing accumulator calculations with
  | nil =>
      cases h
      simp
  | cons fill rest ih =>
      obtain ⟨first, hfirst, h⟩ := Checks.bind_eq_ok.mp h
      obtain ⟨later, hlater, h⟩ := Checks.bind_eq_ok.mp h
      cases h
      rw [List.forall_mem_cons]
      exact ⟨calculate_netFee hfirst, ih _ hlater⟩

theorem calculateFillsFrom_isOk (policy : FeePolicySnapshot) (action : Side)
    {fills : List (ℤ × ℤ)} {accumulator : ℤ} (h : ∀ fill ∈ fills, Chargeable fill)
    (hnonneg : 0 ≤ accumulator) (hlt : accumulator < centMicros) :
    ∃ calculations, calculateFillsFrom policy action accumulator fills = .ok calculations ∧
      List.Forall₂ (fun fill calculation => FeeSound fill.1 fill.2 calculation) fills
        calculations := by
  induction fills generalizing accumulator with
  | nil => exact ⟨[], rfl, .nil⟩
  | cons fill rest ih =>
      obtain ⟨contractUnits, priceMicros⟩ := fill
      obtain ⟨calculation, hfirst, hsound⟩ := calculate_isOk policy action
        (h _ List.mem_cons_self) hnonneg hlt
      obtain ⟨calculations, hrest, hsounds⟩ := ih
        (fun other hmem => h other (List.mem_cons_of_mem _ hmem)) hsound.after_nonneg
        hsound.after_lt
      refine ⟨calculation :: calculations, ?_, .cons hsound hsounds⟩
      rw [calculateFillsFrom, hfirst]
      simp only [bind, Except.bind, hrest]

/-- The fees of an order are calculated, one for each of its fills. -/
theorem calculateFills_isOk (policy : FeePolicySnapshot) (action : Side) {fills : List (ℤ × ℤ)}
    (h : ∀ fill ∈ fills, Chargeable fill) :
    ∃ calculations, calculateFills fills policy action = .ok calculations ∧
      List.Forall₂ (fun fill calculation => FeeSound fill.1 fill.2 calculation) fills
        calculations :=
  calculateFillsFrom_isOk policy action h (le_refl 0) (by decide)

end ExactFeeCalculator

end VTrade
