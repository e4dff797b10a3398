/-
# The paper broker

Executes an order against the levels that the haircut leaves of a refreshed book:
plan fills level by level, trim a purchase to the cash there is, check it, book
it and build the result.  An order that fails a check on the way gets a rejected
result; an exception of the steps in between leaves `execute` only where the
source does not catch it.

The broker remembers the result of every idempotency key, and the agents whose
orders wait for reconciliation.
-/

import VTrade.Fees
import VTrade.OrderResult

namespace VTrade

structure PlannedFill where
  levelIndex : ℤ
  priceMicros : ℤ
  contractUnits : ℤ
  deriving DecidableEq

/-- Deterministic paper adapter over one refreshed canonical context. -/
structure BinaryPaperBroker where
  maximumMarketConcentrationNumerator : ℤ
  maximumMarketConcentrationDenominator : ℤ
  /-- In microseconds. -/
  maximumBookAge : ℤ
  numerator_pos : 0 < maximumMarketConcentrationNumerator
  denominator_pos : 0 < maximumMarketConcentrationDenominator
  fraction_le : maximumMarketConcentrationNumerator ≤ maximumMarketConcentrationDenominator
  age_nonneg : 0 ≤ maximumBookAge

/-- The keyword arguments of `execute`. -/
structure ExecutionArguments where
  context : Option MarketContext
  portfolio : ContractPortfolio
  feePolicy : Option FeePolicySnapshot
  frozenContextId : Option String
  executionContextId : Option String
  now : Datetime
  pending : Bool
  accountValueMicros : Option ℤ
  valuationContexts : Option ValuationContexts

/-- The account value that a purchase is measured by: the one that is given, or the
portfolio's. -/
def ExecutionArguments.accountValue (arguments : ExecutionArguments) : Except Raised ℤ :=
  match arguments.accountValueMicros with
  | some accountValue => .ok accountValue
  | none => arguments.portfolio.accountValueMicros arguments.valuationContexts

/-! ## Rejections -/

/-- What a rejected result says. -/
structure Rejection where
  code : SemanticExecutionError
  message : Option String := none
  liquidityAudit : Option HaircutAudit := none
  riskCheck : Option ConcentrationCheck := none
  /-- Whether the rejection is for the fee policy and says that nothing was submitted. -/
  feePolicyFailure : Bool := false

/-- What ends an order before its fills: a rejected result or an exception. -/
inductive Interruption
  | rejected (rejection : Rejection)
  | raised (error : Raised)

/-- Reject when a condition holds. -/
def rejectIf (condition : Bool) (rejection : Rejection) : Except Interruption Unit :=
  if condition then .error (.rejected rejection) else .ok ()

/-- Turn the exceptions that are caught into rejections. -/
def rejecting {α : Type} (caught : Raised → Bool) (rejection : Raised → Rejection) :
    Except Raised α → Except Interruption α
  | .ok value => .ok value
  | .error error =>
      if caught error then .error (.rejected (rejection error)) else .error (.raised error)

/-- An exception that is not caught. -/
def uncaught {α : Type} : Except Raised α → Except Interruption α
  | .ok value => .ok value
  | .error error => .error (.raised error)

def rejected (request : OrderRequest) (portfolio : ContractPortfolio) (now : Datetime)
    (operationId : String) (rejection : Rejection) : Except Raised OrderResult :=
  OrderResult.make {
    request := request
    operationId := operationId
    state := .rejected
    reconciliationState := .notRequired
    requestedUnits := request.contractUnits.getD 0
    filledUnits := 0
    remainingUnits := request.contractUnits.getD 0
    cancelledUnits := 0
    submittedAt := request.createdAt
    updatedAt := now.instant
    errorCode := some rejection.code
    message := rejection.message
    submissionState := if rejection.feePolicyFailure then some .notSubmitted else none
    reconciliationEvidence :=
      if rejection.feePolicyFailure then
        [("submission_state", .text "NOT_SUBMITTED"), ("venue_submission_occurred", .flag false),
          ("fee_policy_failure", .text rejection.code.value)]
      else []
    portfolioBefore := some portfolio
    portfolioAfter := some portfolio
    liquidityAudit := rejection.liquidityAudit
    riskCheck := rejection.riskCheck }

/-- A text that is given and not empty. -/
def truthy (text : Option String) : Option String := text.filter (· ≠ "")

def pendingResult (request : OrderRequest) (portfolio : ContractPortfolio) (now : Datetime)
    (operationId : String) (frozenContextId : Option String) : Except Raised OrderResult :=
  OrderResult.make {
    request := request
    operationId := operationId
    state := .pending
    reconciliationState := .required
    requestedUnits := request.contractUnits.getD 0
    filledUnits := 0
    remainingUnits := request.contractUnits.getD 0
    cancelledUnits := 0
    frozenContextId := truthy frozenContextId <|> request.frozenContextId
    submittedAt := request.createdAt
    updatedAt := now.instant
    errorCode := some .reconciliationRequired
    submissionState := some .notSubmitted
    reconciliationEvidence :=
      [("submission_state", .text "NOT_SUBMITTED"), ("venue_submission_occurred", .flag false)]
    portfolioBefore := some portfolio
    portfolioAfter := some portfolio }

/-! ## Planning -/

/-- A level on the wrong side of the order's limit. -/
def beyondLimit (request : OrderRequest) (level : CanonicalLevel) : Bool :=
  request.limitPriceMicros.any fun limitPrice =>
    if request.action = .buy then limitPrice < level.price else level.price < limitPrice

/-- The quantity an order takes of a level. -/
def levelQuantity (request : OrderRequest) (remaining : Option ℤ) (cashRemaining : ℤ)
    (level : CanonicalLevel) : ℤ :=
  let quantity := remaining.elim level.quantity (min level.quantity)
  if request.amountType = .cash then
    min quantity (if level.price = 0 then quantity else cashRemaining * 100 / level.price)
  else quantity

/-- The cash that an order for cash spends on a level. -/
def spentOnLevel (request : OrderRequest) (quantity : ℤ) (level : CanonicalLevel) :
    Except Raised ℤ :=
  if request.amountType = .cash then grossCashMicros quantity level.price else .ok 0

/-- The loop of `_plan` over the levels from an index on. -/
def planLevels (request : OrderRequest) : ℕ → Option ℤ → ℤ → List CanonicalLevel →
    Except Raised (List PlannedFill)
  | _, _, _, [] => .ok []
  | index, remaining, cashRemaining, level :: rest =>
      let quantity := levelQuantity request remaining cashRemaining level
      if beyondLimit request level ∨ quantity ≤ 0 then
        planLevels request (index + 1) remaining cashRemaining rest
      else do
        let spent ← spentOnLevel request quantity level
        let item := ⟨index + 1, level.price, quantity⟩
        let remaining := remaining.map (· - quantity)
        if remaining = some 0 then .ok [item]
        else do
          let later ← planLevels request (index + 1) remaining (cashRemaining - spent) rest
          .ok (item :: later)

/-- The units an order is for: what it asks for, and of a sale no more than is owned. -/
def planTarget (request : OrderRequest) (position : Option ContractPosition) : Option ℤ :=
  match request.action, position with
  | .sell, some position =>
      some (request.contractUnits.elim position.contractUnits (min · position.contractUnits))
  | _, _ => request.contractUnits

def plan (request : OrderRequest) (levels : List CanonicalLevel)
    (position : Option ContractPosition) : Except Raised (List PlannedFill) :=
  planLevels request 0 (planTarget request position) (request.cashAmountMicros.getD 0) levels

/-! ## The cash budget -/

def plannedUnits (planned : List PlannedFill) : ℤ :=
  (planned.map fun item => item.contractUnits).sum

def calculatePlanned (request : OrderRequest) (policy : FeePolicySnapshot)
    (planned : List PlannedFill) : Except Raised (List FeeCalculation) :=
  ExactFeeCalculator.calculateFills
    (planned.map fun item => (item.contractUnits, item.priceMicros)) policy request.action

def totalCost (calculations : List FeeCalculation) : ℤ :=
  (calculations.map fun calculation => calculation.grossMicros + calculation.netFeeMicros).sum

def grossTotal (calculations : List FeeCalculation) : ℤ :=
  (calculations.map fun calculation => calculation.grossMicros).sum

def feeTotal (calculations : List FeeCalculation) : ℤ :=
  (calculations.map fun calculation => calculation.netFeeMicros).sum

/-- The fill with fewer units, or no fill when none are left. -/
def PlannedFill.resized (original : PlannedFill) (contractUnits : ℤ) : List PlannedFill :=
  if contractUnits ≠ 0 then [{ original with contractUnits := contractUnits }] else []

/-- The binary search for the largest number of units that is within the budget. -/
def bisect (budget : ℤ) (cost : ℤ → Except Raised ℤ) (low high : ℤ) (best : Option ℤ) :
    Except Raised (Option ℤ) :=
  if low ≤ high then do
    let middle := (low + high) / 2
    let total ← cost middle
    if total ≤ budget then bisect budget cost (middle + 1) high (some middle)
    else bisect budget cost low (middle - 1) best
  else .ok best
termination_by (high + 1 - low).toNat
decreasing_by
  all_goals omega

/-- Resize the fills of a plan, the last one first; `kept` are those done. -/
def trimFrom (request : OrderRequest) (policy : FeePolicySnapshot) (budget : ℤ) :
    List PlannedFill → List PlannedFill → Except Raised (List PlannedFill)
  | [], kept => .ok kept
  | original :: front, kept => do
      let best ← bisect budget
        (fun middle => (calculatePlanned request policy
          (front.reverse ++ original.resized middle ++ kept)).map totalCost)
        0 original.contractUnits none
      trimFrom request policy budget front (best.elim kept (original.resized · ++ kept))

def fitCashBudget (request : OrderRequest) (portfolio : ContractPortfolio)
    (planned : List PlannedFill) (policy : FeePolicySnapshot) :
    Except Raised (List PlannedFill × List FeeCalculation) := do
  let calculations ← calculatePlanned request policy planned
  if request.action ≠ .buy ∨ totalCost calculations ≤ portfolio.cashMicros then
    .ok (planned, calculations)
  else
    let items ← trimFrom request policy portfolio.cashMicros planned.reverse []
    let final := items.filter fun item => item.contractUnits ≠ 0
    let calculations ← calculatePlanned request policy final
    .ok (final, calculations)

namespace BinaryPaperBroker

variable (broker : BinaryPaperBroker)

/-! ## Checks -/

def validateContext (request : OrderRequest) (context : MarketContext) (now : Datetime) :
    Except Raised Unit :=
  let book := context.orderBook
  if context.market.key ≠ request.marketRef then
    .error (.valueError "execution market does not match market_ref")
  else if context.market.tradeable = false then
    .error (.valueError "market is not active and tradeable")
  else if book.cutoff < book.observedAt then
    .error (.valueError "order book is newer than its cutoff")
  else if request.frozenCutoff.any (book.cutoff < ·) then
    .error (.valueError "execution context predates the frozen decision cutoff")
  else if now.instant < book.observedAt then
    .error (.valueError "execution cannot precede the book observation")
  else if now.instant - book.observedAt > broker.maximumBookAge then
    .error (.valueError "execution order book is stale")
  else
    match request.limitPriceMicros with
    | none => .ok ()
    | some limitPrice => (context.market.priceGrid.require limitPrice "limit_price").map fun _ => ()

/-- The code of a context that does not validate. -/
def contextErrorCode (error : Raised) : SemanticExecutionError :=
  match error with
  | .liquidityEvidenceError _ => .haircutEvidenceInsufficient
  | _ => if Text.contains error.message.toLower "stale" then .staleBook else .invalidContext

/-- The fee policy, when it is one that authorizes this execution. -/
def checkFeePolicy (feePolicy : Option FeePolicySnapshot) (now : Datetime) :
    Except Interruption FeePolicySnapshot :=
  match feePolicy with
  | none => .error (.rejected { code := .missingFeePolicy, feePolicyFailure := true })
  | some policy => do
      rejectIf (policy.feeType ≠ "quadratic" ∨ policy.participantRole ≠ .taker) {
        code := .unsupportedFeePolicy
        message := some "active IOC/FOK execution requires a quadratic TAKER fee policy"
        feePolicyFailure := true }
      rejectIf (policy.asOf.all (now.instant < ·) ∨ policy.cutoff.all (now.instant < ·)) {
        code := .invalidFeePolicy
        message := some "fee policy is missing a valid order-time cutoff"
        feePolicyFailure := true }
      .ok policy

/-- Whether a fill-or-kill order is filled completely. -/
def fokComplete (request : OrderRequest) (planned : List PlannedFill) : Except Raised Bool :=
  match request.contractUnits with
  | some requestedUnits => .ok (plannedUnits planned = requestedUnits)
  | none => do
      let gross ← planned.mapM fun item => grossCashMicros item.contractUnits item.priceMicros
      .ok (gross.sum = request.cashAmountMicros.getD 0)

def checkFillOrKill (request : OrderRequest) (planned : List PlannedFill)
    (haircut : HaircutAudit) : Except Interruption Unit :=
  if request.timeInForce = .fok then do
    let complete ← uncaught (fokComplete request planned)
    rejectIf (¬ complete) {
      code := if request.limitPriceMicros.isSome ∧ plannedUnits planned = 0 then .priceLimit
        else .insufficientLiquidity
      liquidityAudit := some haircut }
  else .ok ()

/-- The checks of a purchase: it is funded and leaves the market within its limit. -/
def checkPurchase (request : OrderRequest) (arguments : ExecutionArguments)
    (haircut : HaircutAudit) (calculations : List FeeCalculation) :
    Except Interruption (Option ConcentrationCheck) :=
  match request.action with
  | .sell => .ok none
  | .buy => do
      let portfolio := arguments.portfolio
      rejectIf (grossTotal calculations + feeTotal calculations > portfolio.cashMicros) {
        code := .insufficientCash
        liquidityAudit := some haircut }
      let accountValue ← rejecting Raised.isValueError
        (fun error => { code := .invalidContext, message := some error.message })
        arguments.accountValue
      let concentration ← uncaught (checkMarketConcentration accountValue
        (portfolio.marketCostBasisMicros request.marketRef) (grossTotal calculations)
        broker.maximumMarketConcentrationNumerator broker.maximumMarketConcentrationDenominator)
      rejectIf (¬ concentration.approved) {
        code := .concentrationLimit
        riskCheck := some concentration }
      .ok (some concentration)

/-! ## Execution -/

end BinaryPaperBroker

/-- An order with the fills planned for it and their fees. -/
structure PlannedOrder where
  policy : FeePolicySnapshot
  haircut : HaircutAudit
  planned : List PlannedFill
  calculations : List FeeCalculation

/-- An order that has passed every check before its fills. -/
structure PreparedOrder extends PlannedOrder where
  concentration : Option ConcentrationCheck
  frozenContextId : String
  executionContextId : String

def PreparedOrder.filledUnits (prepared : PreparedOrder) : ℤ := plannedUnits prepared.planned

def PreparedOrder.requestedUnits (prepared : PreparedOrder) (request : OrderRequest) : ℤ :=
  request.contractUnits.getD prepared.filledUnits

/-- `{item.level_index: item.contract_units for item in planned}`. -/
def consumedByLevel (planned : List PlannedFill) : List (ℤ × ℤ) :=
  planned.foldl (fun consumed item =>
    KeyedList.upsert Prod.fst (item.levelIndex, item.contractUnits) consumed) []

namespace BinaryPaperBroker

variable (broker : BinaryPaperBroker) (digests : Digests)

/-- Everything `execute` does on a context up to the checks of a purchase. -/
def planOrder (request : OrderRequest) (arguments : ExecutionArguments) (context : MarketContext) :
    Except Interruption PlannedOrder := do
  let portfolio := arguments.portfolio
  rejecting Raised.isValueError
    (fun error => { code := contextErrorCode error, message := some error.message })
    (broker.validateContext request context arguments.now)
  let policy ← checkFeePolicy arguments.feePolicy arguments.now
  let (levels, haircut) ← rejecting Raised.isLiquidityEvidenceError
    (fun error => { code := .haircutEvidenceInsufficient, message := some error.message })
    (applyBestLevelHaircut context.orderBook request.outcome request.action)
  let position := portfolio.position request.positionKey
  rejectIf (request.action = .sell ∧ position = none) { code := .insufficientContracts }
  let planned ← uncaught (plan request levels position)
  rejectIf (planned = []) {
    code := if request.limitPriceMicros.isSome then .priceLimit else .insufficientLiquidity
    liquidityAudit := some haircut }
  let (planned, calculations) ← uncaught (fitCashBudget request portfolio planned policy)
  checkFillOrKill request planned haircut
  rejectIf (request.contractUnits.isSome ∧ request.action = .sell ∧
      position.all fun position => position.contractUnits < plannedUnits planned)
    { code := .insufficientContracts }
  .ok ⟨policy, haircut, planned, calculations⟩

/-- Everything `execute` does on a context before it builds fills. -/
def prepare (request : OrderRequest) (arguments : ExecutionArguments) (context : MarketContext) :
    Except Interruption PreparedOrder := do
  let order ← broker.planOrder request arguments context
  let concentration ← broker.checkPurchase request arguments order.haircut order.calculations
  .ok {
    toPlannedOrder := order
    concentration := concentration
    frozenContextId := ((truthy arguments.frozenContextId <|> truthy request.frozenContextId).getD
      context.market.snapshotId)
    executionContextId := (truthy arguments.executionContextId).getD
      context.orderBook.snapshotId }

/-- The fill of one planned item. -/
def fillFields (request : OrderRequest) (now : Datetime) (operationId : String)
    (prepared : PreparedOrder) (index : ℕ) (item : PlannedFill) (calculation : FeeCalculation) :
    EconomicFillFields where
  fillId := operationId ++ ":" ++ toString index
  contractUnits := item.contractUnits
  priceMicros := item.priceMicros
  grossCashMicros := calculation.grossMicros
  feeMicros := calculation.netFeeMicros
  netCashDeltaMicros :=
    if request.action = .buy then -calculation.grossMicros - calculation.netFeeMicros
    else calculation.grossMicros - calculation.netFeeMicros
  filledAt := now.instant
  frozenContextId := some prepared.frozenContextId
  executionContextId := some prepared.executionContextId
  authoritative := true
  estimatedFeeMicros := some calculation.netFeeMicros
  tradeFeeMicros := calculation.tradeFeeMicros
  roundingFeeMicros := calculation.roundingFeeMicros
  rebateMicros := calculation.rebateMicros
  feePolicyFingerprint := some calculation.policyFingerprint

/-- The fills of planned items and their fee calculations, from an index on. -/
def brokerFills (request : OrderRequest) (now : Datetime) (operationId : String)
    (prepared : PreparedOrder) : ℕ → List PlannedFill → List FeeCalculation →
    Except Raised (List EconomicFill)
  | _, [], [] => .ok []
  | index, item :: planned, calculation :: calculations => do
      let fields := fillFields request now operationId prepared index item calculation
      let fill ← EconomicFill.make fields (digests.fill fields)
      let fills ← brokerFills request now operationId prepared (index + 1) planned calculations
      .ok (fill :: fills)
  | _, _, _ => .error (.valueError "zip() arguments have different lengths")

/-- Book the fills of a prepared order and build its result. -/
def finish (request : OrderRequest) (arguments : ExecutionArguments) (operationId : String)
    (prepared : PreparedOrder) : Except Raised OrderResult := do
  let portfolio := arguments.portfolio
  let now := arguments.now
  let fills ← brokerFills digests request now operationId prepared 0 prepared.planned
    prepared.calculations
  match applyOrderFills portfolio request fills operationId now with
  | .error error =>
      if error.isValueError then
        rejected request portfolio now operationId {
          code := if Text.contains error.message "cash" then .insufficientCash
            else .insufficientContracts
          message := some error.message }
      else .error error
  | .ok (updatedPortfolio, ledgerEntry, _) => do
      let requestedUnits := prepared.requestedUnits request
      let audit ← prepared.haircut.afterFills (consumedByLevel prepared.planned) requestedUnits
      let cancelledUnits := max 0 (requestedUnits - prepared.filledUnits)
      let grossDelta := (fills.map fun fill =>
        if request.action = .sell then fill.grossCashMicros else -fill.grossCashMicros).sum
      OrderResult.make {
        request := request
        operationId := operationId
        state := if cancelledUnits = 0 then .filled else .partiallyFilled
        reconciliationState := .notRequired
        requestedUnits := requestedUnits
        filledUnits := prepared.filledUnits
        remainingUnits := cancelledUnits
        cancelledUnits := cancelledUnits
        fills := fills
        grossCashDeltaMicros := grossDelta
        feeMicros := feeTotal prepared.calculations
        netCashDeltaMicros := grossDelta - feeTotal prepared.calculations
        frozenContextId := some prepared.frozenContextId
        executionContextId := some prepared.executionContextId
        submittedAt := request.createdAt
        updatedAt := now.instant
        portfolioBefore := some portfolio
        portfolioAfter := some updatedPortfolio
        ledgerEntries := [ledgerEntry]
        liquidityAudit := some audit
        feeCalculations := prepared.calculations
        riskCheck := prepared.concentration
        feePolicyFingerprint := some prepared.policy.fingerprint
        feePolicyEvidenceReferences := prepared.policy.evidenceReferences }

/-- The result of an order on a context. -/
def executeContext (request : OrderRequest) (arguments : ExecutionArguments)
    (context : MarketContext) (operationId : String) : Except Raised OrderResult :=
  match broker.prepare request arguments context with
  | .error (.rejected rejection) =>
      rejected request arguments.portfolio arguments.now operationId rejection
  | .error (.raised error) => .error error
  | .ok prepared => finish digests request arguments operationId prepared

end BinaryPaperBroker

/-- The results by agent and idempotency key, and the agents that wait for
reconciliation. -/
structure BrokerState where
  results : List ((String × String) × OrderResult)
  blockedAgents : List String

namespace BrokerState

def empty : BrokerState := ⟨[], []⟩

/-- The remembered result of an order. -/
def result (state : BrokerState) (key : String × String) : Option OrderResult :=
  (KeyedList.lookup Prod.fst key state.results).map Prod.snd

/-- Remember the result of an order, unless it raised. -/
def remember (state : BrokerState) (key : String × String) (result : Except Raised OrderResult) :
    BrokerState × Except Raised OrderResult :=
  match result with
  | .ok result =>
      ({ state with results := KeyedList.upsert Prod.fst (key, result) state.results }, .ok result)
  | .error error => (state, .error error)

def block (state : BrokerState) (agentId : String) : BrokerState :=
  { state with blockedAgents := state.blockedAgents.insert agentId }

end BrokerState

namespace BinaryPaperBroker

variable (broker : BinaryPaperBroker) (digests : Digests)

/-- Execute an order, or return the result it already has. -/
def execute (state : BrokerState) (request : OrderRequest) (arguments : ExecutionArguments) :
    BrokerState × Except Raised OrderResult :=
  let portfolio := arguments.portfolio
  let now := arguments.now
  let key := (request.agentId, request.idempotencyKey)
  if now.isAware = false then
    (state, .error (.valueError "execution time must be timezone-aware"))
  else
    match state.result key with
    | some existing =>
        if digests.fingerprint existing.request = digests.fingerprint request then
          (state, .ok existing)
        else
          (state, rejected request portfolio now existing.operationId
            { code := .idempotencyConflict })
    | none =>
        let operationId := digests.operationUuid request.agentId request.idempotencyKey
        if request.agentId ∈ state.blockedAgents ∨ portfolio.reconciliationBlocked then
          state.remember key (rejected request portfolio now operationId
            { code := .reconciliationRequired })
        else
          match arguments.pending, arguments.context with
          | false, some context =>
              state.remember key
                (broker.executeContext digests request arguments context operationId)
          | _, _ =>
              match pendingResult request portfolio now operationId arguments.frozenContextId with
              | .ok result =>
                  ((state.remember key (.ok result)).1.block request.agentId, .ok result)
              | .error error => (state, .error error)

/-- Note what reconciliation has found about an operation. -/
def reconcile (state : BrokerState) (operationId : String)
    (reconciliation : ReconciliationState) : BrokerState × Except Raised OrderResult :=
  match state.results.find? fun row => row.2.operationId = operationId with
  | none => (state, .error (.valueError "unknown order operation"))
  | some (_, target) =>
      let key := (target.request.agentId, target.request.idempotencyKey)
      match reconciliation with
      | .conflict =>
          (state.block target.request.agentId).remember key (OrderResult.make {
            target.toOrderResultFields with
            reconciliationState := .conflict
            errorCode := some .conflictingEvidence
            updatedAt := max target.updatedAt target.submittedAt })
      | .resolved =>
          { state with
            blockedAgents := state.blockedAgents.erase target.request.agentId }.remember key
            (OrderResult.make {
              target.toOrderResultFields with
              state := .cancelled
              reconciliationState := .resolved
              remainingUnits := 0
              cancelledUnits := target.requestedUnits - target.filledUnits
              updatedAt := max target.updatedAt target.submittedAt })
      | reconciliation =>
          state.remember key (OrderResult.make {
            target.toOrderResultFields with
            reconciliationState := reconciliation })

end BinaryPaperBroker

end VTrade
