/-
# Orders, fee policies and fills

The vocabulary shared by paper execution, accounting and persistence.  An order
request, a fee policy and a fill carry what their constructors check; the fill
is built by the broker, so its checks are also a function that may raise.

Digests are taken of canonical encodings, and nothing here depends on how: the
functions from what is encoded to the digest are kept abstract in `Digests`.
-/

import VTrade.Domain.Types

namespace VTrade

inductive OrderAmountType
  | cash
  | contracts
  deriving DecidableEq

inductive TimeInForce
  | ioc
  | fok
  deriving DecidableEq

inductive OrderState
  | rejected
  | pending
  | partiallyFilled
  | filled
  | cancelled
  deriving DecidableEq

inductive ReconciliationState
  | notRequired
  | required
  | resolved
  | conflict
  deriving DecidableEq

/-- Internal evidence about whether an order reached a venue boundary. -/
inductive SubmissionState
  | notSubmitted
  | unknown
  | submitted
  deriving DecidableEq

inductive FeeParticipantRole
  | maker
  | taker
  deriving DecidableEq

inductive SemanticExecutionError
  | idempotencyConflict
  | invalidRequest
  | invalidContext
  | marketNotTradeable
  | staleBook
  | insufficientLiquidity
  | haircutEvidenceInsufficient
  | priceLimit
  | insufficientCash
  | insufficientContracts
  | concentrationLimit
  | missingFeePolicy
  | unsupportedFeePolicy
  | invalidFeePolicy
  | reconciliationRequired
  | conflictingEvidence
  | finalizationRequired
  deriving DecidableEq

/-- A lowercase SHA-256 digest in hexadecimal. -/
structure Sha256 where
  hex : String
  length_eq : hex.toList.length = 64
  lowercase : hex.toList.all (fun c => "0123456789abcdef".toList.contains c) = true
  deriving DecidableEq

/-- The only request shape visible above the execution boundary. -/
structure OrderRequest where
  agentId : String
  marketRef : MarketKey
  outcome : OutcomeSide
  action : Side
  amount : ℤ
  amountType : OrderAmountType
  idempotencyKey : String
  limitPriceMicros : Option ℤ
  timeInForce : TimeInForce
  frozenContextId : Option String
  frozenCutoff : Option Instant
  createdAt : Instant
  agentId_nonblank : Text.isBlank agentId = false
  key_nonblank : Text.isBlank idempotencyKey = false
  key_length : idempotencyKey.toList.length ≤ 512
  amount_pos : 0 < amount
  limit_range : ∀ price ∈ limitPriceMicros, 0 ≤ price ∧ price ≤ 1000000
  context_nonblank : ∀ contextId ∈ frozenContextId, Text.isBlank contextId = false

/-- What identifies an order besides its key and the moment of its creation. -/
structure OrderPayload where
  agentId : String
  marketRef : String
  outcome : OutcomeSide
  action : Side
  amountType : OrderAmountType
  amount : ℤ
  limitPriceMicros : Option ℤ
  timeInForce : TimeInForce
  frozenContextId : Option String
  frozenCutoff : Option Instant
  deriving DecidableEq

namespace OrderRequest

def contractUnits (request : OrderRequest) : Option ℤ :=
  if request.amountType = .contracts then some request.amount else none

def cashAmountMicros (request : OrderRequest) : Option ℤ :=
  if request.amountType = .cash then some request.amount else none

/-- The position the order is about. -/
def positionKey (request : OrderRequest) : PositionKey := (request.marketRef, request.outcome)

def canonicalPayload (request : OrderRequest) : OrderPayload where
  agentId := request.agentId
  marketRef := request.marketRef.canonical
  outcome := request.outcome
  action := request.action
  amountType := request.amountType
  amount := request.amount
  limitPriceMicros := request.limitPriceMicros
  timeInForce := request.timeInForce
  frozenContextId := request.frozenContextId
  frozenCutoff := request.frozenCutoff

end OrderRequest

/-- Immutable exact fee inputs selected for one execution as-of time.  The
fingerprint is the digest of the whole snapshot. -/
structure FeePolicySnapshot where
  participantRole : FeeParticipantRole
  seriesMultiplierNumerator : ℤ
  seriesMultiplierDenominator : ℤ
  eventOverride : Option (ℤ × ℤ)
  eventOverrideCleared : Bool
  rateOverride : Option (ℤ × ℤ)
  waiver : Bool
  asOf : Option Instant
  cutoff : Option Instant
  feeType : String
  fingerprint : Sha256
  evidenceReferences : List (List (String × String))
  series_numerator : 0 ≤ seriesMultiplierNumerator
  series_denominator : 0 < seriesMultiplierDenominator
  override_valid : ∀ multiplier ∈ eventOverride, 0 ≤ multiplier.1 ∧ 0 < multiplier.2
  override_cleared : eventOverrideCleared = true → eventOverride = none
  rate_valid : ∀ rate ∈ rateOverride, 0 < rate.1 ∧ 0 < rate.2
  feeType_nonblank : Text.isBlank feeType = false
  asOf_le_cutoff : ∀ asOf' ∈ asOf, ∀ cutoff' ∈ cutoff, asOf' ≤ cutoff'

namespace FeePolicySnapshot

def resolvedMultiplier (policy : FeePolicySnapshot) : ℤ × ℤ :=
  policy.eventOverride.getD (policy.seriesMultiplierNumerator, policy.seriesMultiplierDenominator)

def rate (policy : FeePolicySnapshot) : ℤ × ℤ :=
  policy.rateOverride.getD (if policy.participantRole = .maker then (175, 10000) else (7, 100))

theorem resolvedMultiplier_valid (policy : FeePolicySnapshot) :
    0 ≤ policy.resolvedMultiplier.1 ∧ 0 < policy.resolvedMultiplier.2 := by
  unfold resolvedMultiplier
  cases h : policy.eventOverride with
  | none => exact ⟨policy.series_numerator, policy.series_denominator⟩
  | some multiplier => exact policy.override_valid multiplier h

theorem rate_pos (policy : FeePolicySnapshot) : 0 < policy.rate.1 ∧ 0 < policy.rate.2 := by
  unfold rate
  cases h : policy.rateOverride with
  | none =>
      simp only [Option.getD_none]
      split_ifs <;> decide
  | some rate => exact policy.rate_valid rate h

end FeePolicySnapshot

structure FeeCalculation where
  grossMicros : ℤ
  tradeFeeRawNanos : ℤ
  tradeFeeMicros : ℤ
  roundingFeeMicros : ℤ
  rebateMicros : ℤ
  netFeeMicros : ℤ
  postedBalanceChangeMicros : ℤ
  accumulatorBeforeMicros : ℤ
  accumulatorAfterMicros : ℤ
  priceMicros : ℤ
  contractUnits : ℤ
  participantRole : FeeParticipantRole
  policyFingerprint : Sha256
  deriving DecidableEq

structure EconomicFillFields where
  fillId : String
  contractUnits : ℤ
  priceMicros : ℤ
  grossCashMicros : ℤ
  feeMicros : ℤ
  netCashDeltaMicros : ℤ
  filledAt : Instant
  frozenContextId : Option String
  executionContextId : Option String
  authoritative : Bool
  estimatedFeeMicros : Option ℤ
  tradeFeeMicros : ℤ
  roundingFeeMicros : ℤ
  rebateMicros : ℤ
  feePolicyFingerprint : Option Sha256
  deriving DecidableEq

def EconomicFillFields.postInit (fill : EconomicFillFields) : Except Raised Unit :=
  Checks.raiseFirst [
    (Text.isBlank fill.fillId, .valueError "fill_id must be a non-empty string"),
    (fill.contractUnits ≤ 0, .valueError "fill contract units must be positive"),
    (¬ (0 ≤ fill.priceMicros ∧ fill.priceMicros ≤ 1000000),
      .valueError "fill price is outside the binary range"),
    (fill.grossCashMicros < 0 ∨ fill.feeMicros < 0,
      .valueError "fill money values cannot be negative"),
    (fill.estimatedFeeMicros.any (· < 0), .valueError "estimated fill fee cannot be negative"),
    (fill.tradeFeeMicros < 0, .valueError "trade_fee_micros cannot be negative"),
    (fill.roundingFeeMicros < 0, .valueError "rounding_fee_micros cannot be negative"),
    (fill.rebateMicros < 0, .valueError "rebate_micros cannot be negative")]

/-- A confirmed fill.  Its fingerprint is the digest of its fields. -/
structure EconomicFill extends EconomicFillFields where
  fingerprint : Sha256
  valid : toEconomicFillFields.postInit = .ok ()
  deriving DecidableEq

namespace EconomicFill

def make (fields : EconomicFillFields) (fingerprint : Sha256) : Except Raised EconomicFill :=
  Checks.build fields.postInit fun h => ⟨fields, fingerprint, h⟩

theorem make_eq_ok {fields : EconomicFillFields} (h : fields.postInit = .ok ())
    (fingerprint : Sha256) : make fields fingerprint = .ok ⟨fields, fingerprint, h⟩ :=
  Checks.build_eq_ok h _

theorem postInit_eq_ok_iff {fields : EconomicFillFields} :
    fields.postInit = .ok () ↔ Text.isBlank fields.fillId = false ∧ 0 < fields.contractUnits ∧
      (0 ≤ fields.priceMicros ∧ fields.priceMicros ≤ 1000000) ∧
      (0 ≤ fields.grossCashMicros ∧ 0 ≤ fields.feeMicros) ∧
      (∀ fee ∈ fields.estimatedFeeMicros, 0 ≤ fee) ∧ 0 ≤ fields.tradeFeeMicros ∧
      0 ≤ fields.roundingFeeMicros ∧ 0 ≤ fields.rebateMicros := by
  have hestimated : fields.estimatedFeeMicros.any (· < 0) = false ↔
      ∀ fee ∈ fields.estimatedFeeMicros, 0 ≤ fee := by
    cases fields.estimatedFeeMicros <;> simp
  simp only [EconomicFillFields.postInit, Checks.raiseFirst_cons_eq_ok, Checks.raiseFirst_nil,
    decide_eq_false_iff_not, not_or, not_lt, not_le, not_not, and_true, hestimated]

theorem contractUnits_pos (fill : EconomicFill) : 0 < fill.contractUnits :=
  (postInit_eq_ok_iff.mp fill.valid).2.1

theorem grossCashMicros_nonneg (fill : EconomicFill) : 0 ≤ fill.grossCashMicros :=
  (postInit_eq_ok_iff.mp fill.valid).2.2.2.1.1

theorem feeMicros_nonneg (fill : EconomicFill) : 0 ≤ fill.feeMicros :=
  (postInit_eq_ok_iff.mp fill.valid).2.2.2.1.2

end EconomicFill

/-- What tells the evidence of one settlement from another's. -/
structure SettlementPayload where
  settlementId : String
  marketRef : String
  outcome : OutcomeSide
  resolutionId : String
  settlementTs : Instant
  contractUnits : ℤ
  grossPayoutMicros : ℤ
  entryFeesDeductedMicros : ℤ
  realizedPnlMicros : ℤ
  deriving DecidableEq

/-- The digests the program takes of operations, orders, fills and settlements. -/
structure Digests where
  operation : String → String → Sha256
  order : OrderPayload → Sha256
  fill : EconomicFillFields → Sha256
  settlement : SettlementPayload → Sha256

namespace Digests

variable (digests : Digests)

/-- The first half of the digest of the agent and the idempotency key. -/
def operationUuid (agentId idempotencyKey : String) : String :=
  String.ofList ((digests.operation agentId idempotencyKey).hex.toList.take 32)

def fingerprint (request : OrderRequest) : Sha256 := digests.order request.canonicalPayload

/-- An operation identifier has digits. -/
theorem operationUuid_not_isBlank (agentId idempotencyKey : String) :
    Text.isBlank (digests.operationUuid agentId idempotencyKey) = false := by
  have hall : "0123456789abcdef".toList.all (fun digit => !Text.isSpace digit) = true := by decide
  have hdigits : ∀ digit ∈ "0123456789abcdef".toList, Text.isSpace digit = false := by
    intro digit hmem
    simpa using List.all_eq_true.mp hall digit hmem
  unfold operationUuid
  obtain ⟨hex, hlength, hlowercase⟩ := digests.operation agentId idempotencyKey
  cases hhex : hex.toList with
  | nil =>
      rw [hhex] at hlength
      simp at hlength
  | cons first rest =>
      rw [hhex, List.all_cons, Bool.and_eq_true, List.contains_iff_mem] at hlowercase
      simp [Text.isBlank, hdigits first hlowercase.1]

end Digests

/-- Convert hundredths of a contract at a micro-dollar price exactly.  The
numerator is rounded half-up only when a sub-micro-dollar product is
mathematically unavoidable. -/
def grossCashMicros (contractUnits priceMicros : ℤ) : Except Raised ℤ :=
  if contractUnits ≤ 0 then .error (.valueError "contract units must be positive")
  else if ¬ (0 ≤ priceMicros ∧ priceMicros ≤ 1000000) then
    .error (.valueError "price must be in the binary range")
  else
    let numerator := contractUnits * priceMicros
    if numerator % 100 ≥ 50 then .ok (numerator / 100 + 1) else .ok (numerator / 100)

end VTrade
