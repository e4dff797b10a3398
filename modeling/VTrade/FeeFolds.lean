/-
# The fees of the fills of an order

From a remainder below a cent the fees of any fills are calculated, each from the remainder that
the one before leaves.  No fee falls short of the exact one, no net fee is negative, and what
the remainder gains is paid on top of the trade fees.

What a fill posts to the balance is a whole number of cents unless its rebate is cut: a rebate
gives back no more than the fee of its own fill, and that may be less than the cent which the
remainder has come to.
-/

import Mathlib.Tactic.Linarith
import VTrade.FillAcceptance
import VTrade.Lib.Carry
import VTrade.Lib.Runs

namespace VTrade

/-! ## One fill -/

/-- The gross value of a fill, rounded to the nearest micro-dollar. -/
def grossMicros (fill : ℤ × ℤ) : ℤ :=
  if fill.1 * fill.2 % 100 ≥ 50 then fill.1 * fill.2 / 100 + 1 else fill.1 * fill.2 / 100

theorem grossCashMicros_eq {fill : ℤ × ℤ} (h : Chargeable fill) :
    grossCashMicros fill.1 fill.2 = .ok (grossMicros fill) := by
  obtain ⟨hunits, hprice, hprice'⟩ := h
  unfold grossCashMicros grossMicros
  rw [if_neg (not_le.mpr hunits), if_neg (not_not.mpr ⟨hprice, hprice'⟩)]
  simp only
  split <;> rfl

/-- The trade fee of a fill. -/
def chargedFee (policy : FeePolicySnapshot) (fill : ℤ × ℤ) : ℤ :=
  tradeFee policy (grossMicros fill) (rawFee policy fill.1 fill.2).1 (rawFee policy fill.1 fill.2).2

/-- What a fill brings in before fees. -/
def signedGross (action : Side) (fill : ℤ × ℤ) : ℤ :=
  if action = .sell then grossMicros fill else -grossMicros fill

/-- What the balance change of a fill is above a whole cent. -/
def residue (policy : FeePolicySnapshot) (action : Side) (fill : ℤ × ℤ) : ℤ :=
  Carry.lack centMicros (chargedFee policy fill - signedGross action fill)

theorem centMicros_pos : 0 < centMicros := by decide

/-- What the calculation for a fill says, from a remainder. -/
structure Calculated (policy : FeePolicySnapshot) (action : Side) (accumulator : ℤ)
    (fill : ℤ × ℤ) (calculation : FeeCalculation) : Prop where
  gross : calculation.grossMicros = grossMicros fill
  trade : calculation.tradeFeeMicros = chargedFee policy fill
  rounding : calculation.roundingFeeMicros = residue policy action fill
  rebate : calculation.rebateMicros =
    min ((accumulator + residue policy action fill) / centMicros * centMicros)
      (chargedFee policy fill + residue policy action fill)
  net : calculation.netFeeMicros = calculation.tradeFeeMicros + calculation.roundingFeeMicros -
    calculation.rebateMicros
  after : calculation.accumulatorAfterMicros =
    accumulator + calculation.roundingFeeMicros - calculation.rebateMicros
  posted : calculation.postedBalanceChangeMicros =
    signedGross action fill - calculation.netFeeMicros

theorem chargedFee_nonneg (policy : FeePolicySnapshot) {fill : ℤ × ℤ} (h : Chargeable fill) :
    0 ≤ chargedFee policy fill := by
  obtain ⟨hnumerator, hdenominator⟩ := rawFee_bounds policy h
  exact tradeFee_nonneg policy _ hnumerator hdenominator

/-- The trade fee is at least the exact one, unless it is waived. -/
theorem exactFee_le_chargedFee {policy : FeePolicySnapshot} {fill : ℤ × ℤ} (h : Chargeable fill)
    (hwaiver : policy.waiver = false) :
    ((rawFee policy fill.1 fill.2).1 : ℚ) / (rawFee policy fill.1 fill.2).2 ≤
      chargedFee policy fill := by
  obtain ⟨hnumerator, hdenominator⟩ := rawFee_bounds policy h
  unfold chargedFee
  generalize (rawFee policy fill.1 fill.2).1 = numerator at *
  generalize (rawFee policy fill.1 fill.2).2 = denominator at *
  by_cases hzero : numerator = 0
  · have hnone : tradeFee policy (grossMicros fill) numerator denominator = 0 := by
      simp [tradeFee, hzero]
    rw [hnone, hzero]
    simp
  · have hle := (le_tradeFee (grossMicros fill) hnumerator hdenominator hwaiver hzero).1
    generalize tradeFee policy (grossMicros fill) numerator denominator = fee at hle
    have hceiling : numerator ≤ fee * denominator := by
      have hdiv := Int.lt_mul_ediv_self_add (x := numerator + denominator - 1) hdenominator
      have hmul := mul_le_mul_of_nonneg_left hle hdenominator.le
      rw [mul_comm fee]
      omega
    rw [div_le_iff₀ (by exact_mod_cast hdenominator)]
    exact_mod_cast hceiling

theorem chargedFee_of_waiver {policy : FeePolicySnapshot} (hwaiver : policy.waiver = true)
    (fill : ℤ × ℤ) : chargedFee policy fill = 0 := by
  simp [chargedFee, tradeFee, hwaiver]

namespace ExactFeeCalculator

theorem calculate_spec {policy : FeePolicySnapshot} {action : Side} {accumulator : ℤ}
    {fill : ℤ × ℤ} (hfill : Chargeable fill) {calculation : FeeCalculation}
    (h : calculate fill.1 fill.2 policy action accumulator = .ok calculation) :
    Calculated policy action accumulator fill calculation := by
  unfold calculate at h
  iterate 3 obtain ⟨-, h⟩ := Checks.ite_error_eq_ok.mp h
  rw [grossCashMicros_eq hfill] at h
  obtain ⟨gross, hgross, h⟩ := Checks.bind_eq_ok.mp h
  cases hgross
  obtain ⟨-, h⟩ := Checks.ite_error_eq_ok.mp h
  obtain ⟨-, h⟩ := Checks.ite_error_eq_ok.mp h
  cases h
  have hresidue : (if action = .sell then grossMicros fill else -grossMicros fill) -
        tradeFee policy (grossMicros fill) (rawFee policy fill.1 fill.2).1
          (rawFee policy fill.1 fill.2).2 -
      ((if action = .sell then grossMicros fill else -grossMicros fill) -
        tradeFee policy (grossMicros fill) (rawFee policy fill.1 fill.2).1
          (rawFee policy fill.1 fill.2).2) / centMicros * centMicros =
      residue policy action fill := by
    unfold residue Carry.lack
    rw [neg_sub, mul_comm]
    exact (Int.emod_def _ _).symm
  constructor
  · rfl
  · rfl
  · exact hresidue
  · exact congrArg (fun rounding => min ((accumulator + rounding) / centMicros * centMicros)
      (chargedFee policy fill + rounding)) hresidue
  · rfl
  · rfl
  · dsimp only [signedGross]
    ring

end ExactFeeCalculator

/-! ## The fills of an order -/

/-- The remainder after some calculations. -/
def finalAccumulator (accumulator : ℤ) (calculations : List FeeCalculation) : ℤ :=
  calculations.getLast?.elim accumulator FeeCalculation.accumulatorAfterMicros

theorem finalAccumulator_cons (accumulator : ℤ) (calculation : FeeCalculation)
    (rest : List FeeCalculation) : finalAccumulator accumulator (calculation :: rest) =
      finalAccumulator calculation.accumulatorAfterMicros rest := by
  unfold finalAccumulator
  rw [List.getLast?_cons]
  cases rest.getLast? with
  | none => rfl
  | some last => rfl

namespace ExactFeeCalculator

variable (policy : FeePolicySnapshot) (action : Side)

/-- The fees of the fills after the first are those from the remainder that it leaves. -/
theorem calculateFillsFrom_cons {fill : ℤ × ℤ} {rest : List (ℤ × ℤ)} {accumulator : ℤ}
    {calculations : List FeeCalculation} {policy : FeePolicySnapshot} {action : Side}
    (h : calculateFillsFrom policy action accumulator (fill :: rest) = .ok calculations) :
    ∃ calculation later, calculations = calculation :: later ∧
      calculate fill.1 fill.2 policy action accumulator = .ok calculation ∧
      calculateFillsFrom policy action calculation.accumulatorAfterMicros rest = .ok later := by
  obtain ⟨calculation, hfirst, h⟩ := Checks.bind_eq_ok.mp h
  obtain ⟨later, hlater, h⟩ := Checks.bind_eq_ok.mp h
  cases h
  exact ⟨calculation, later, rfl, hfirst, hlater⟩

/-- All net fees together are the trade fees and what the remainder has gained. -/
theorem sum_netFee {fills : List (ℤ × ℤ)} (hfills : ∀ fill ∈ fills, Chargeable fill)
    {accumulator : ℤ} {calculations : List FeeCalculation} {policy : FeePolicySnapshot}
    {action : Side} (h : calculateFillsFrom policy action accumulator fills = .ok calculations) :
    (calculations.map FeeCalculation.netFeeMicros).sum =
      (calculations.map FeeCalculation.tradeFeeMicros).sum +
        finalAccumulator accumulator calculations - accumulator := by
  induction fills generalizing accumulator calculations with
  | nil =>
      cases h
      simp [finalAccumulator]
  | cons fill rest ih =>
      rw [List.forall_mem_cons] at hfills
      obtain ⟨calculation, later, rfl, hfirst, hlater⟩ := calculateFillsFrom_cons h
      have hspec := calculate_spec hfills.1 hfirst
      have hnet := hspec.net
      have hafter := hspec.after
      have hrest := ih hfills.2 hlater
      rw [finalAccumulator_cons, List.map_cons, List.sum_cons, List.map_cons, List.sum_cons]
      omega

/-- What the calculations for some fills say, one after the other. -/
inductive CalculatedFrom (policy : FeePolicySnapshot) (action : Side) :
    ℤ → List (ℤ × ℤ) → List FeeCalculation → Prop
  | done {accumulator : ℤ} : CalculatedFrom policy action accumulator [] []
  | fill {accumulator : ℤ} {fill : ℤ × ℤ} {rest : List (ℤ × ℤ)} {calculation : FeeCalculation}
      {later : List FeeCalculation} (nonneg : 0 ≤ accumulator) (lt : accumulator < centMicros)
      (chargeable : Chargeable fill)
      (calculated : Calculated policy action accumulator fill calculation)
      (sound : FeeSound fill.1 fill.2 calculation)
      (h : CalculatedFrom policy action calculation.accumulatorAfterMicros rest later) :
      CalculatedFrom policy action accumulator (fill :: rest) (calculation :: later)

/-- From a remainder below a cent the fees of any fills are calculated. -/
theorem calculateFillsFrom_calculated {fills : List (ℤ × ℤ)}
    (hfills : ∀ fill ∈ fills, Chargeable fill) {accumulator : ℤ} (hnonneg : 0 ≤ accumulator)
    (hlt : accumulator < centMicros) :
    ∃ calculations, calculateFillsFrom policy action accumulator fills = .ok calculations ∧
      CalculatedFrom policy action accumulator fills calculations := by
  induction fills generalizing accumulator with
  | nil => exact ⟨[], rfl, .done⟩
  | cons fill rest ih =>
      rw [List.forall_mem_cons] at hfills
      obtain ⟨calculation, hfirst, hsound⟩ := calculate_isOk policy action hfills.1 hnonneg hlt
      obtain ⟨later, hlater, hcalculated⟩ := ih hfills.2 hsound.after_nonneg hsound.after_lt
      have hspec := calculate_spec hfills.1 hfirst
      refine ⟨calculation :: later, ?_, .fill hnonneg hlt hfills.1 hspec hsound hcalculated⟩
      exact Checks.bind_eq_ok.mpr ⟨calculation, hfirst,
        Checks.bind_eq_ok.mpr ⟨later, hlater, rfl⟩⟩

end ExactFeeCalculator

/-- What the fees of a fill have to be: the remainder stays below a cent, the trade fee is not
less than the exact fee unless it is waived, the net fee is not negative, and the balance changes
by the gross value less the net fee. -/
structure FairlyCharged (policy : FeePolicySnapshot) (action : Side) (fill : ℤ × ℤ)
    (calculation : FeeCalculation) : Prop where
  after_nonneg : 0 ≤ calculation.accumulatorAfterMicros
  after_lt : calculation.accumulatorAfterMicros < centMicros
  exact_le : policy.waiver = false → ((rawFee policy fill.1 fill.2).1 : ℚ) /
    (rawFee policy fill.1 fill.2).2 ≤ calculation.tradeFeeMicros
  waived : policy.waiver = true → calculation.tradeFeeMicros = 0
  net_nonneg : 0 ≤ calculation.netFeeMicros
  posted : calculation.postedBalanceChangeMicros =
    signedGross action fill - calculation.netFeeMicros

namespace ExactFeeCalculator

theorem CalculatedFrom.fairlyCharged {policy : FeePolicySnapshot} {action : Side} {accumulator : ℤ}
    {fills : List (ℤ × ℤ)} {calculations : List FeeCalculation}
    (h : CalculatedFrom policy action accumulator fills calculations) :
    List.Forall₂ (FairlyCharged policy action) fills calculations := by
  induction h with
  | done => exact .nil
  | fill _ _ chargeable calculated sound _ ih =>
      refine .cons ⟨sound.after_nonneg, sound.after_lt, fun hwaiver => ?_, fun hwaiver => ?_,
        sound.netFee_nonneg, calculated.posted⟩ ih
      · rw [calculated.trade]
        exact exactFee_le_chargedFee chargeable hwaiver
      · rw [calculated.trade]
        exact chargedFee_of_waiver hwaiver _

/-- The fees of any fills are calculated, from any remainder below a cent; every fill is charged
fairly, and all net fees together are the trade fees and what the remainder has gained. -/
theorem fills_fairlyCharged (policy : FeePolicySnapshot) (action : Side) {accumulator : ℤ}
    (hnonneg : 0 ≤ accumulator) (hlt : accumulator < centMicros) {fills : List (ℤ × ℤ)}
    (hne : fills ≠ []) (hfills : ∀ fill ∈ fills, Chargeable fill) :
    ∃ calculations, calculateFillsFrom policy action accumulator fills = .ok calculations ∧
      calculations ≠ [] ∧ List.Forall₂ (FairlyCharged policy action) fills calculations ∧
      (calculations.map FeeCalculation.netFeeMicros).sum =
        (calculations.map FeeCalculation.tradeFeeMicros).sum +
          finalAccumulator accumulator calculations - accumulator := by
  obtain ⟨calculations, hcalculations, hspec⟩ :=
    calculateFillsFrom_calculated policy action hfills hnonneg hlt
  refine ⟨calculations, hcalculations, ?_, hspec.fairlyCharged, sum_netFee hfills hcalculations⟩
  rintro rfl
  cases hspec
  exact hne rfl

/-- Two fills of a sale with fees, and one that takes the remainder on. -/
theorem fills_fairlyCharged_sale :
    ∃ calculations, calculateFillsFrom (Sample.feePolicy false) .sell 9000
        [(100, 455000), (50, 460000)] = .ok calculations ∧ calculations ≠ [] ∧
      List.Forall₂ (FairlyCharged (Sample.feePolicy false) .sell) [(100, 455000), (50, 460000)]
        calculations ∧
      (calculations.map FeeCalculation.netFeeMicros).sum =
        (calculations.map FeeCalculation.tradeFeeMicros).sum +
          finalAccumulator 9000 calculations - 9000 :=
  fills_fairlyCharged (Sample.feePolicy false) .sell (by decide) (by decide) (by decide)
    (by simp [Chargeable])

end ExactFeeCalculator

/-! ## Whole cents -/

/-- The policy takes a fee for a fill. -/
def Charged (policy : FeePolicySnapshot) (fill : ℤ × ℤ) : Prop :=
  policy.waiver = false ∧ (rawFee policy fill.1 fill.2).1 ≠ 0

instance (policy : FeePolicySnapshot) (fill : ℤ × ℤ) : Decidable (Charged policy fill) :=
  inferInstanceAs (Decidable (_ ∧ _))

/-- What a fill adds to the remainder.  The fee of a purchase leaves nothing over. -/
def leftover (policy : FeePolicySnapshot) (action : Side) (fill : ℤ × ℤ) : ℤ :=
  if Charged policy fill then if action = .sell then 2 * grossMicros fill % centMicros else 0
  else signedGross action fill % centMicros

/-- A sale that charges no less than a cent: the gross value is in the lower half of its cent, or
the raw fee takes it into the next one. -/
def ChargesCent (policy : FeePolicySnapshot) (action : Side) (fill : ℤ × ℤ) : Prop :=
  Charged policy fill ∧ action = .sell ∧
    (2 * (grossMicros fill % centMicros) < centMicros ∨
      (centMicros - grossMicros fill % centMicros) * (rawFee policy fill.1 fill.2).2 <
        (rawFee policy fill.1 fill.2).1)

/-- From a remainder, a fill does not come to a cent, or its fee covers the cent. -/
def RebatesCents (policy : FeePolicySnapshot) (action : Side) (carried : ℤ) (fill : ℤ × ℤ) :
    Prop :=
  carried + leftover policy action fill < centMicros ∨ ChargesCent policy action fill

/-- The total that is rounded up to a cent. -/
theorem chargedFee_of_charged {policy : FeePolicySnapshot} {fill : ℤ × ℤ} (h : Chargeable fill)
    (hcharged : Charged policy fill) :
    ∃ raw, chargedFee policy fill =
        (grossMicros fill + raw + centMicros - 1) / centMicros * centMicros - grossMicros fill ∧
      0 < raw ∧ ∀ amount, amount < raw ↔
        amount * (rawFee policy fill.1 fill.2).2 < (rawFee policy fill.1 fill.2).1 := by
  obtain ⟨hnumerator, hdenominator⟩ := rawFee_bounds policy h
  obtain ⟨hwaiver, hnonzero⟩ := hcharged
  unfold chargedFee
  generalize (rawFee policy fill.1 fill.2).1 = numerator at *
  generalize (rawFee policy fill.1 fill.2).2 = denominator at *
  have hlt : ∀ amount, amount < (numerator + denominator - 1) / denominator ↔
      amount * denominator < numerator := by
    intro amount
    rw [Int.lt_iff_add_one_le, Int.le_ediv_iff_mul_le hdenominator, add_mul]
    omega
  refine ⟨(numerator + denominator - 1) / denominator, ?_, ?_, hlt⟩
  · have htotal : (grossMicros fill * denominator + numerator + denominator - 1) / denominator =
        grossMicros fill + (numerator + denominator - 1) / denominator := by
      rw [show grossMicros fill * denominator + numerator + denominator - 1 =
        (numerator + denominator - 1) + denominator * grossMicros fill by ring,
        Int.add_mul_ediv_left _ _ hdenominator.ne', add_comm]
    unfold tradeFee
    rw [if_neg (by simp [hwaiver, hnonzero]), htotal]
  · rw [hlt, zero_mul]
    omega

theorem chargedFee_of_not_charged {policy : FeePolicySnapshot} {fill : ℤ × ℤ}
    (hcharged : ¬ Charged policy fill) : chargedFee policy fill = 0 := by
  unfold chargedFee tradeFee
  rw [if_pos]
  by_contra hnone
  rw [not_or] at hnone
  exact hcharged ⟨by simpa using hnone.1, hnone.2⟩

/-- What the balance change of a fill is above a whole cent, from its gross value. -/
theorem residue_eq_leftover {policy : FeePolicySnapshot} {fill : ℤ × ℤ} (h : Chargeable fill)
    (action : Side) : residue policy action fill = leftover policy action fill := by
  unfold residue leftover Carry.lack
  by_cases hcharged : Charged policy fill
  · obtain ⟨raw, hfee, -, -⟩ := chargedFee_of_charged h hcharged
    rw [if_pos hcharged, hfee]
    unfold signedGross centMicros
    cases action with
    | buy =>
        rw [if_neg (by decide), if_neg (by decide)]
        omega
    | sell =>
        rw [if_pos rfl, if_pos rfl]
        omega
  · rw [if_neg hcharged, chargedFee_of_not_charged hcharged, zero_sub, neg_neg]

/-- A fee covers a cent which the remainder comes to exactly if it is that of such a sale. -/
theorem cent_le_iff_chargesCent {policy : FeePolicySnapshot} {fill : ℤ × ℤ} (h : Chargeable fill)
    {action : Side} (hleft : 0 < leftover policy action fill) :
    centMicros ≤ chargedFee policy fill + leftover policy action fill ↔
      ChargesCent policy action fill := by
  unfold ChargesCent
  by_cases hcharged : Charged policy fill
  · obtain ⟨raw, hfee, hraw, hlt⟩ := chargedFee_of_charged h hcharged
    rw [← hlt, hfee]
    unfold leftover at hleft ⊢
    rw [if_pos hcharged] at hleft ⊢
    cases action with
    | buy => simp at hleft
    | sell =>
        simp only [hcharged, true_and, if_true]
        unfold centMicros
        omega
  · have hlt : leftover policy action fill < centMicros := by
      unfold leftover
      rw [if_neg hcharged]
      exact Int.emod_lt_of_pos _ centMicros_pos
    rw [chargedFee_of_not_charged hcharged]
    simp only [hcharged, false_and, iff_false]
    omega

/-- One fill posts a whole number of cents unless its rebate is cut, and then the remainder after
it is what is left of a cent. -/
theorem Calculated.posted_iff {policy : FeePolicySnapshot} {action : Side} {accumulator : ℤ}
    {fill : ℤ × ℤ} {calculation : FeeCalculation}
    (h : Calculated policy action accumulator fill calculation) (hfill : Chargeable fill)
    (hnonneg : 0 ≤ accumulator) (hlt : accumulator < centMicros) :
    (centMicros ∣ calculation.postedBalanceChangeMicros ↔
        RebatesCents policy action accumulator fill) ∧
      (RebatesCents policy action accumulator fill → calculation.accumulatorAfterMicros =
        (accumulator + leftover policy action fill) % centMicros) := by
  obtain ⟨-, htrade, hrounding, hrebate, hnet, hafter, hposted⟩ := h
  have hcents := @Carry.add_lack centMicros
    (chargedFee policy fill - signedGross action fill)
  have hadded := Carry.lack_nonneg centMicros_pos
    (chargedFee policy fill - signedGross action fill)
  have hless := Carry.lack_lt centMicros_pos (chargedFee policy fill - signedGross action fill)
  rw [show Carry.lack centMicros (chargedFee policy fill - signedGross action fill) =
    leftover policy action fill from residue_eq_leftover hfill action] at hcents hadded hless
  rw [residue_eq_leftover hfill] at hrounding hrebate
  have hcovers : 0 < leftover policy action fill → _ := cent_le_iff_chargesCent hfill
  have hfee := chargedFee_nonneg policy hfill
  unfold RebatesCents
  generalize ChargesCent policy action fill = covers at hcovers ⊢
  generalize leftover policy action fill = added at *
  generalize chargedFee policy fill = fee at *
  generalize signedGross action fill = gross at *
  generalize -(-(fee - gross) / centMicros) = cents at hcents
  unfold centMicros at *
  by_cases hcovered : covers
  · simp only [hcovered, or_true, iff_true, true_imp_iff] at hcovers ⊢
    omega
  · simp only [hcovered, or_false, iff_false] at hcovers ⊢
    omega

namespace ExactFeeCalculator

theorem CalculatedFrom.aligned_iff {policy : FeePolicySnapshot} {action : Side} {start : ℤ}
    {accumulator : ℤ} {fills : List (ℤ × ℤ)} {calculations : List FeeCalculation}
    (h : CalculatedFrom policy action accumulator fills calculations) {seen : List (ℤ × ℤ)}
    (hcarried : accumulator = (start + (seen.map (leftover policy action)).sum) % centMicros) :
    (∀ calculation ∈ calculations, centMicros ∣ calculation.postedBalanceChangeMicros) ↔
      Runs.EachFrom (fun before fill => RebatesCents policy action
        ((start + (before.map (leftover policy action)).sum) % centMicros) fill) seen fills := by
  induction h generalizing seen with
  | done => simp [Runs.EachFrom]
  | @fill accumulator fill rest calculation later hnonneg hlt chargeable calculated _ _ ih =>
      obtain ⟨hposted, hafter⟩ := calculated.posted_iff chargeable hnonneg hlt
      rw [List.forall_mem_cons, Runs.EachFrom, ← hcarried, hposted]
      refine and_congr_right fun hcents => ih ?_
      rw [hafter hcents, hcarried, Int.emod_add_emod, List.map_append, List.sum_append,
        List.map_singleton, List.sum_singleton, add_assoc]

/-- Every fill posts a whole number of cents exactly if none whose fee is below a cent comes to a
cent with what the remainder has gathered before it. -/
theorem fills_aligned_iff (policy : FeePolicySnapshot) (action : Side) {accumulator : ℤ}
    (hnonneg : 0 ≤ accumulator) (hlt : accumulator < centMicros) {fills : List (ℤ × ℤ)}
    (hfills : ∀ fill ∈ fills, Chargeable fill) :
    ∃ calculations, calculateFillsFrom policy action accumulator fills = .ok calculations ∧
      ((∀ calculation ∈ calculations, centMicros ∣ calculation.postedBalanceChangeMicros) ↔
        Runs.Each (fun before fill => RebatesCents policy action
            ((accumulator + (before.map (leftover policy action)).sum) % centMicros) fill)
          fills) := by
  obtain ⟨calculations, hcalculations, hspec⟩ :=
    calculateFillsFrom_calculated policy action hfills hnonneg hlt
  refine ⟨calculations, hcalculations, ?_⟩
  rw [Runs.each_iff_eachFrom]
  apply hspec.aligned_iff
  rw [List.map_nil, List.sum_nil, add_zero, Int.emod_eq_of_lt hnonneg hlt]

theorem fills_aligned_iff_waived :
    ∃ calculations, calculateFillsFrom (Sample.feePolicy true) .sell 0
        [(50, 510000), (50, 490000)] = .ok calculations ∧
      ((∀ calculation ∈ calculations, centMicros ∣ calculation.postedBalanceChangeMicros) ↔
        Runs.Each (fun before fill => RebatesCents (Sample.feePolicy true) .sell
          ((0 + (before.map (leftover (Sample.feePolicy true) .sell)).sum) % centMicros) fill)
          [(50, 510000), (50, 490000)]) :=
  fills_aligned_iff (Sample.feePolicy true) .sell (by decide) (by decide)
    (by simp [Chargeable])

/-- Two half contracts are sold without a fee, each for half a cent more than whole cents.  The
second brings the remainder to a cent but may not give it back. -/
theorem rebate_cut_of_half_cents :
    ∃ calculations, calculateFills [(50, 510000), (50, 490000)] (Sample.feePolicy true) .sell =
        .ok calculations ∧
      calculations.map FeeCalculation.postedBalanceChangeMicros = [250000, 245000] ∧
      ¬ ∀ calculation ∈ calculations, centMicros ∣ calculation.postedBalanceChangeMicros := by
  refine ⟨_, rfl, by decide, by decide⟩

end ExactFeeCalculator

end VTrade
