/-
# Order results

What the broker returns for an order, and what the repository persists: the
state the order ended in, how its units are accounted for, its fills and the
portfolio around them.  The result checks its own conservation when it is built.
-/

import VTrade.Liquidity
import VTrade.Portfolio
import VTrade.Risk

namespace VTrade

def SemanticExecutionError.value : SemanticExecutionError → String
  | idempotencyConflict => "IDEMPOTENCY_CONFLICT"
  | invalidRequest => "INVALID_REQUEST"
  | invalidContext => "INVALID_CONTEXT"
  | marketNotTradeable => "MARKET_NOT_TRADEABLE"
  | staleBook => "STALE_BOOK"
  | insufficientLiquidity => "INSUFFICIENT_LIQUIDITY"
  | haircutEvidenceInsufficient => "HAIRCUT_EVIDENCE_INSUFFICIENT"
  | priceLimit => "PRICE_LIMIT"
  | insufficientCash => "INSUFFICIENT_CASH"
  | insufficientContracts => "INSUFFICIENT_CONTRACTS"
  | concentrationLimit => "CONCENTRATION_LIMIT"
  | missingFeePolicy => "MISSING_FEE_POLICY"
  | unsupportedFeePolicy => "UNSUPPORTED_FEE_POLICY"
  | invalidFeePolicy => "INVALID_FEE_POLICY"
  | reconciliationRequired => "RECONCILIATION_REQUIRED"
  | conflictingEvidence => "CONFLICTING_EVIDENCE"
  | finalizationRequired => "FINALIZATION_REQUIRED"

/-- A value of the reconciliation evidence. -/
inductive EvidenceValue
  | text (value : String)
  | flag (value : Bool)
  deriving DecidableEq

structure OrderResultFields where
  request : OrderRequest
  operationId : String
  state : OrderState
  reconciliationState : ReconciliationState
  requestedUnits : ℤ
  filledUnits : ℤ
  remainingUnits : ℤ
  cancelledUnits : ℤ
  fills : List EconomicFill := []
  grossCashDeltaMicros : ℤ := 0
  feeMicros : ℤ := 0
  netCashDeltaMicros : ℤ := 0
  frozenContextId : Option String := none
  executionContextId : Option String := none
  submittedAt : Instant
  updatedAt : Instant
  errorCode : Option SemanticExecutionError := none
  message : Option String := none
  submissionState : Option SubmissionState := none
  reconciliationEvidence : List (String × EvidenceValue) := []
  portfolioBefore : Option ContractPortfolio := none
  portfolioAfter : Option ContractPortfolio := none
  ledgerEntries : List LedgerEntry := []
  liquidityAudit : Option HaircutAudit := none
  feeCalculations : List FeeCalculation := []
  riskCheck : Option ConcentrationCheck := none
  feePolicyFingerprint : Option Sha256 := none
  feePolicyEvidenceReferences : List (List (String × String)) := []

def OrderResultFields.postInit (result : OrderResultFields) : Except Raised Unit :=
  let contracts := decide (result.request.amountType = .contracts)
  Checks.raiseFirst [
    (Text.isBlank result.operationId, .valueError "operation_id must be a non-empty string"),
    (result.requestedUnits < 0, .valueError "requested_units cannot be negative"),
    (result.filledUnits < 0, .valueError "filled_units cannot be negative"),
    (result.remainingUnits < 0, .valueError "remaining_units cannot be negative"),
    (result.cancelledUnits < 0, .valueError "cancelled_units cannot be negative"),
    (contracts && result.requestedUnits ≠ result.request.amount,
      .valueError "requested units do not match the contract request"),
    (contracts && result.filledUnits + result.remainingUnits + result.cancelledUnits ≠
        result.requestedUnits,
      .valueError "order quantity accounting is not conserved"),
    (result.filledUnits ≠ (result.fills.map fun fill => fill.contractUnits).sum,
      .valueError "filled units do not match economic fills"),
    (result.feeMicros < 0, .valueError "aggregate fee cannot be negative"),
    (result.netCashDeltaMicros ≠ result.grossCashDeltaMicros - result.feeMicros,
      .valueError "net cash delta must equal gross delta less fee"),
    (result.state = .filled && contracts && result.filledUnits ≠ result.requestedUnits,
      .valueError "filled order must satisfy the complete contract request"),
    (result.state = .partiallyFilled ∧ result.filledUnits ≤ 0,
      .valueError "partially filled order must contain a fill"),
    (result.state = .rejected ∧ result.fills ≠ [],
      .valueError "rejected order cannot contain fills"),
    (result.updatedAt < result.submittedAt,
      .valueError "order update cannot predate submission")]

structure OrderResult extends OrderResultFields where
  valid : toOrderResultFields.postInit = .ok ()

namespace OrderResult

def make (fields : OrderResultFields) : Except Raised OrderResult :=
  Checks.build fields.postInit fun h => ⟨fields, h⟩

theorem make_eq_ok_iff {fields : OrderResultFields} {result : OrderResult} :
    make fields = .ok result ↔ result.toOrderResultFields = fields :=
  Checks.build_fields_eq_ok_iff OrderResultFields.postInit mk toOrderResultFields (fun _ _ => rfl)
    fun result => ⟨result.valid, rfl⟩

theorem make_eq_ok {fields : OrderResultFields} (h : fields.postInit = .ok ()) :
    make fields = .ok ⟨fields, h⟩ := Checks.build_eq_ok h _

/-- The checks of a result, one by one. -/
structure Accounts (result : OrderResultFields) : Prop where
  operation : Text.isBlank result.operationId = false
  requested_nonneg : 0 ≤ result.requestedUnits
  filled_nonneg : 0 ≤ result.filledUnits
  remaining_nonneg : 0 ≤ result.remainingUnits
  cancelled_nonneg : 0 ≤ result.cancelledUnits
  requested : result.request.amountType = .contracts →
    result.requestedUnits = result.request.amount
  conserved : result.request.amountType = .contracts →
    result.filledUnits + result.remainingUnits + result.cancelledUnits = result.requestedUnits
  filled : result.filledUnits = (result.fills.map fun fill => fill.contractUnits).sum
  fee_nonneg : 0 ≤ result.feeMicros
  net : result.netCashDeltaMicros = result.grossCashDeltaMicros - result.feeMicros
  complete : result.state = .filled → result.request.amountType = .contracts →
    result.filledUnits = result.requestedUnits
  partly : result.state = .partiallyFilled → 0 < result.filledUnits
  refused : result.state = .rejected → result.fills = []
  ordered : result.submittedAt ≤ result.updatedAt

theorem postInit_eq_ok_iff {fields : OrderResultFields} :
    fields.postInit = .ok () ↔ Accounts fields := by
  simp only [OrderResultFields.postInit, Checks.raiseFirst_cons_eq_ok, Checks.raiseFirst_nil,
    decide_eq_false_iff_not, Bool.and_eq_false_imp, Bool.and_eq_true, decide_eq_true_eq, not_lt,
    not_not, not_and, not_le, and_true, ne_eq]
  constructor
  · rintro ⟨h1, h2, h3, h4, h5, h6, h7, h8, h9, h10, h11, h12, h13, h14⟩
    exact ⟨h1, h2, h3, h4, h5, h6, h7, h8, h9, h10, fun hfilled hcontracts =>
      h11 ⟨hfilled, hcontracts⟩, h12, h13, h14⟩
  · rintro ⟨h1, h2, h3, h4, h5, h6, h7, h8, h9, h10, h11, h12, h13, h14⟩
    exact ⟨h1, h2, h3, h4, h5, h6, h7, h8, h9, h10, fun h => h11 h.1 h.2, h12, h13, h14⟩

theorem accounts (result : OrderResult) : Accounts result.toOrderResultFields :=
  postInit_eq_ok_iff.mp result.valid

end OrderResult

end VTrade
