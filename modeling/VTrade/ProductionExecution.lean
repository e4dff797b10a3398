/-
# Executing a reserved order

What the runtime does with an order between its reservation and its record: it loads
the portfolio, refreshes the market, validates what it gets and hands the order to the
broker, or makes a result of its own when the refresh fails.  All of it happens in
memory, after the reservation is committed and before the result is.
-/

import VTrade.BrokerRuns
import VTrade.Reservation

namespace VTrade

/-- A call of `submit_and_execute`: a request with the claim of its cycle, and the
frozen contexts by market. -/
structure Submission where
  request : OrderRequest
  agentId : String
  cycleId : String
  cutoff : Instant
  contexts : List (MarketKey × MarketContext)
  /-- The creation of the request as it is printed. -/
  createdAt : Datetime
  createdAt_eq : createdAt.instant = request.createdAt
  createdAt_aware : createdAt.isAware = true

/-- A fresh execution context could not be obtained at the venue boundary. -/
structure FreshExecutionContextError where
  message : String
  retryable : Bool
  errorCode : Option String := none
  deriving DecidableEq

/-- What asking the provider for a fresh context comes to. -/
inductive ProviderAnswer
  | context (context : FreshContext)
  /-- Something that is not a market context. -/
  | other
  | typeError
  /-- The deadline has passed before there is an answer. -/
  | late
  | refused (error : FreshExecutionContextError)
  | raised (error : Raised)

/-- The answer, or the one without a deadline when the provider does not take one. -/
def ProviderAnswer.orAlone : ProviderAnswer → ProviderAnswer → ProviderAnswer
  | .typeError, .typeError => .refused
      ⟨"fresh execution context provider has an invalid signature", false, none⟩
  | .typeError, alone => alone
  | answer, _ => answer

/-- What the provider, the clock and the stored fee policies give while an order is
executed. -/
structure ExecutionEnvironment where
  /-- The clock before the refresh. -/
  started : Datetime
  /-- What the provider answers with a deadline, and without one. -/
  provider : Option (ProviderAnswer × ProviderAnswer)
  /-- The clock after the refresh. -/
  refreshed : Datetime
  /-- The clock when a result is made of a refresh that has failed. -/
  failed : Datetime
  /-- What `_fee_policy` reads. -/
  feePolicy : Except Raised (Option FeePolicyEvidence)

/-- What a refresh raises. -/
inductive RefreshError
  | context (error : FreshExecutionContextError)
  | raised (error : Raised)

/-- What a refresh and its validation come to. -/
inductive RefreshOutcome
  | fresh (context : FreshContext) (executionCutoff : Datetime)
  | refused (error : FreshExecutionContextError)
  | unreachable (error : Raised)
  | invalid (context : Option FreshContext) (executionCutoff : Datetime) (error : Raised)
  | raised (error : Raised)

/-- What is persisted for an order. -/
structure Decision where
  result : OrderResult
  evidence : OrderEvidence

/-- `type(exc).__name__`, as far as errors are told apart. -/
def Raised.typeName : Raised → String
  | valueError _ => "ValueError"
  | liquidityEvidenceError _ => "LiquidityEvidenceError"
  | settlementBlockedError _ => "SettlementBlockedError"
  | indexError _ => "IndexError"
  | runtimeError _ => "RuntimeError"
  | databaseError _ => "DatabaseError"
  | typeError _ => "TypeError"
  | osError _ => "OSError"
  | contextRefreshError _ => "SemanticContextRefreshError"

namespace SemanticExecutionError

def all : List SemanticExecutionError :=
  [idempotencyConflict, invalidRequest, invalidContext, marketNotTradeable, staleBook,
    insufficientLiquidity, haircutEvidenceInsufficient, priceLimit, insufficientCash,
    insufficientContracts, concentrationLimit, missingFeePolicy, unsupportedFeePolicy,
    invalidFeePolicy, reconciliationRequired, conflictingEvidence, finalizationRequired]

/-- `SemanticExecutionError(value)`. -/
def ofValue (value : String) : Option SemanticExecutionError :=
  all.find? fun code => code.value = value

end SemanticExecutionError

/-- `_context_error_code`. -/
def refreshErrorCode (message : String) : SemanticExecutionError :=
  let lowered := message.toLower
  if Text.contains lowered "stale" then .staleBook
  else if Text.contains lowered "tradeable" ∨ Text.contains lowered "active" then
    .marketNotTradeable
  else .invalidContext

def FreshExecutionContextError.code (error : FreshExecutionContextError) :
    SemanticExecutionError :=
  match truthy error.errorCode with
  | some value => (SemanticExecutionError.ofValue value).getD .invalidContext
  | none => refreshErrorCode error.message

/-! ## The refresh -/

namespace ExecutionEnvironment

/-- `_refresh_execution_context`. -/
def refreshExecutionContext (environment : ExecutionEnvironment) :
    Except RefreshError FreshContext :=
  match environment.provider with
  | none => .error (.context ⟨"fresh execution context provider is unavailable", false, none⟩)
  | some (answer, alone) =>
      match answer.orAlone alone with
      | .context context => .ok context
      | .other => .error (.context
          ⟨"fresh execution context provider returned an invalid context", false, none⟩)
      | .late => .error (.context
          ⟨"fresh execution context refresh exceeded its ten-second deadline", true, none⟩)
      | .refused error => .error (.context error)
      | .raised error => .error (.raised error)
      | .typeError => .error (.raised (.typeError "provider"))

/-- The fee policy to execute with: the fresh one, or a stored one when the market does
not say what became of its own. -/
def executionPolicy (environment : ExecutionEnvironment) (context : FreshContext) :
    Except Raised (Option FeePolicyEvidence) :=
  match context.feePolicyEvidence, context.market.feePolicyStatus with
  | none, none => environment.feePolicy
  | policy, _ => .ok policy

end ExecutionEnvironment

namespace Submission

variable (call : Submission)

def key : String × String := (call.request.agentId, call.request.idempotencyKey)

/-- `_execution_now` for the clock and the creation of the request. -/
def executionNow (clock : Datetime) : Except Raised Datetime :=
  if clock.isAware = false then
    .error (.runtimeError "semantic runtime timestamps must be timezone-aware")
  else if clock.instant < call.createdAt.instant then .ok call.createdAt
  else .ok clock

/-- The checks before the order is reserved. -/
def check : Except Raised Unit :=
  Checks.raiseFirst [
    (call.request.agentId ≠ call.agentId,
      .runtimeError "semantic order agent does not own the cycle"),
    (call.request.frozenCutoff ≠ some call.cutoff ∨ call.request.createdAt < call.cutoff,
      .runtimeError "semantic order must retain the immutable cycle cutoff")]

/-- `_validate_fresh_context`. -/
def validateFreshContext (maximumBookAge : ℤ) (context : FreshContext)
    (executionCutoff : Instant) : Except Raised Unit :=
  Checks.raiseFirst [
    (context.market.key ≠ call.request.marketRef,
      .valueError "fresh execution market differs from market_ref"),
    (context.market.tradeable = false,
      .valueError "fresh execution market is not active and tradeable"),
    (context.outcomeEligible call.request.outcome = false,
      .valueError "fresh execution outcome is not eligible"),
    (call.request.frozenCutoff.any (context.orderBook.cutoff < ·),
      .valueError "fresh execution context predates the frozen decision cutoff"),
    (executionCutoff < context.marketObservedAt,
      .valueError "fresh market metadata is from the future"),
    (context.marketSourceUpdatedAt.any (executionCutoff < ·),
      .valueError "fresh market metadata timestamp is from the future"),
    (context.marketSourceUpdatedAt.any (context.marketObservedAt < ·),
      .valueError "fresh market metadata timestamp postdates its observation"),
    (executionCutoff < context.orderBook.observedAt,
      .valueError "fresh execution order book is from the future"),
    (executionCutoff < context.orderBook.cutoff,
      .valueError "fresh execution order book cutoff is from the future"),
    (context.bookSourceTimestamp.any (executionCutoff < ·),
      .valueError "fresh order book timestamp is from the future"),
    (context.bookSourceTimestamp.any (context.orderBook.observedAt < ·),
      .valueError "fresh order book timestamp postdates its observation"),
    (min maximumBookAge 300000000 < executionCutoff - context.orderBook.observedAt,
      .valueError "fresh execution order book is stale")]

/-- `_persistable_fresh_context`: whether a context that is refused can be recorded. -/
def persistable (executionCutoff : Instant) (context : FreshContext) : Bool :=
  context.market.key = call.request.marketRef ∧
    ¬ call.request.frozenCutoff.any (context.orderBook.cutoff < ·) ∧
    context.marketObservedAt ≤ executionCutoff ∧
    ¬ context.marketSourceUpdatedAt.any (fun updatedAt =>
      executionCutoff < updatedAt ∨ context.marketObservedAt < updatedAt) ∧
    context.orderBook.observedAt ≤ executionCutoff ∧
    context.orderBook.cutoff ≤ executionCutoff ∧
    ¬ context.bookSourceTimestamp.any (fun timestamp =>
      executionCutoff < timestamp ∨ context.orderBook.observedAt < timestamp)

/-- Refresh the context of the order and validate it. -/
def refresh (maximumBookAge : ℤ) (environment : ExecutionEnvironment) : RefreshOutcome :=
  match call.executionNow environment.started with
  | .error error => .raised error
  | .ok started =>
      match environment.refreshExecutionContext with
      | .error (.context error) => .refused error
      | .error (.raised (.osError message)) => .unreachable (.osError message)
      | .error (.raised error) =>
          if error.isValueError then .invalid none started error else .raised error
      | .ok context =>
          match call.executionNow environment.refreshed with
          | .error error => .raised error
          | .ok executionCutoff =>
              match call.validateFreshContext maximumBookAge context executionCutoff.instant with
              | .error error => .invalid (some context) executionCutoff error
              | .ok () => .fresh context executionCutoff

/-! ## Results of failed refreshes -/

/-- The evidence that a refresh failed and nothing was submitted. -/
def refreshFailureEvidence (failureType : String) : List (String × EvidenceValue) :=
  [("submission_state", .text "NOT_SUBMITTED"), ("venue_submission_occurred", .flag false),
    ("refresh_failure", .flag true), ("failure_type", .text failureType)]

/-- `_pending_refresh_result`. -/
def pendingRefreshResult (portfolio : ContractPortfolio) (now : Datetime)
    (failureType operationId : String) : Except Raised OrderResult := do
  let result ← pendingResult call.request portfolio now operationId call.request.frozenContextId
  OrderResult.make { result.toOrderResultFields with
    reconciliationEvidence := refreshFailureEvidence failureType }

/-- The rejection of an order whose refresh failed. -/
def rejectedRefreshResult (portfolio : ContractPortfolio) (now : Datetime)
    (code : SemanticExecutionError) (message failureType operationId : String) :
    Except Raised OrderResult := do
  let result ← rejected call.request portfolio now operationId {
    code := code
    message := some message }
  OrderResult.make { result.toOrderResultFields with
    frozenContextId := call.request.frozenContextId
    submissionState := some .notSubmitted
    reconciliationEvidence := refreshFailureEvidence failureType }

/-- `_refresh_failure_result`. -/
def refreshFailureResult (portfolio : ContractPortfolio) (now : Datetime)
    (error : FreshExecutionContextError) (operationId : String) : Except Raised OrderResult :=
  if error.retryable then
    call.pendingRefreshResult portfolio now "FreshExecutionContextError" operationId
  else
    call.rejectedRefreshResult portfolio now error.code error.message
      "FreshExecutionContextError" operationId

/-- The decision on a context that is not valid.  A context that can be recorded is, under
the operation that was reserved. -/
def invalidDecision (portfolio : ContractPortfolio) (executionCutoff : Datetime)
    (context : Option FreshContext) (error : Raised) (operationId reservedId : String) :
    Except Raised Decision := do
  let persisted := context.filter (call.persistable executionCutoff.instant)
  let result ← call.rejectedRefreshResult portfolio executionCutoff
    (refreshErrorCode error.message) error.message error.typeName operationId
  let recorded ← OrderResult.make { result.toOrderResultFields with
    executionContextId := persisted.map fun _ => reservedId }
  .ok ⟨recorded, ⟨none, persisted, none, persisted.map fun _ => executionCutoff.instant⟩⟩

/-! ## The broker -/

/-- The frozen contexts, as positions are valued with them. -/
def valuationContexts : ValuationContexts where
  byKey marketRef := (KeyedList.lookup Prod.fst marketRef call.contexts).map Prod.snd
  byRef _ := none

/-- Whether the portfolio holds positions and there are frozen contexts for all of them. -/
def hasContexts (portfolio : ContractPortfolio) : Bool :=
  portfolio.positions ≠ [] ∧ ∀ position ∈ portfolio.positions,
    position.marketRef ∈ call.contexts.map Prod.fst

/-- The account value that the broker is given. -/
def accountValue (portfolio : ContractPortfolio) : Except Raised (Option ℤ) :=
  if call.hasContexts portfolio then
    (portfolio.accountValueMicros (some call.valuationContexts)).map some
  else .ok none

/-- The code of an order without a fee policy. -/
def feePolicyErrorCode : Option FeePolicyStatus → SemanticExecutionError
  | some .unsupported => .unsupportedFeePolicy
  | some .invalid => .invalidFeePolicy
  | _ => .missingFeePolicy

def executionArguments (context : FreshContext) (executionCutoff : Datetime)
    (policy : FeePolicyEvidence) (portfolio : ContractPortfolio) (accountValue : Option ℤ)
    (reservedId : String) : ExecutionArguments where
  context := some context.toMarketContext
  portfolio := portfolio
  feePolicy := some policy.toFeePolicySnapshot
  frozenContextId := some (call.request.frozenContextId.getD call.cycleId)
  executionContextId := some reservedId
  now := executionCutoff
  pending := false
  accountValueMicros := accountValue
  valuationContexts := some call.valuationContexts

/-- A result under the contexts that it is recorded with. -/
def contextualized (reservedId : String) (result : OrderResult) : Except Raised OrderResult :=
  OrderResult.make { result.toOrderResultFields with
    frozenContextId := some (call.request.frozenContextId.getD call.cycleId)
    executionContextId := some reservedId }

end Submission

/-- Execute a tool order through the binary paper contract and clean ledger. -/
structure ProductionSemanticOrderExecutor where
  broker : BinaryPaperBroker

namespace ProductionSemanticOrderExecutor

variable (executor : ProductionSemanticOrderExecutor) (digests : Digests)

/-- The decision on a fresh context: the broker's, or a rejection without a fee policy. -/
def decideFresh (state : BrokerState) (call : Submission) (portfolio : ContractPortfolio)
    (environment : ExecutionEnvironment) (context : FreshContext) (executionCutoff : Datetime)
    (reservedId : String) : BrokerState × Except Raised Decision :=
  match environment.executionPolicy context with
  | .error error => (state, .error error)
  | .ok none =>
      (state, do
        let result ← rejected call.request portfolio executionCutoff
          (digests.operationUuid call.request.agentId call.request.idempotencyKey) {
            code := Submission.feePolicyErrorCode context.market.feePolicyStatus
            message := some "fresh execution fee policy is unavailable"
            feePolicyFailure := true }
        let recorded ← call.contextualized reservedId result
        .ok ⟨recorded, .none⟩)
  | .ok (some policy) =>
      match call.accountValue portfolio with
      | .error error => (state, .error error)
      | .ok accountValue =>
          let (next, result) := executor.broker.execute digests state call.request
            (call.executionArguments context executionCutoff policy portfolio accountValue
              reservedId)
          (next, do
            let result ← result
            let recorded ← call.contextualized reservedId result
            .ok ⟨recorded,
              ⟨none, some context, some policy, some executionCutoff.instant⟩⟩)

/-- What is persisted for an order that was reserved. -/
def decide (state : BrokerState) (call : Submission) (portfolio : ContractPortfolio)
    (environment : ExecutionEnvironment) (reservedId : String) :
    BrokerState × Except Raised Decision :=
  let operationId := digests.operationUuid call.request.agentId call.request.idempotencyKey
  match call.refresh executor.broker.maximumBookAge environment with
  | .fresh context executionCutoff =>
      executor.decideFresh digests state call portfolio environment context executionCutoff
        reservedId
  | .refused error =>
      (state, do
        let now ← call.executionNow environment.failed
        let result ← call.refreshFailureResult portfolio now error operationId
        .ok ⟨result, .none⟩)
  | .unreachable error =>
      (state, do
        let now ← call.executionNow environment.failed
        let result ← call.pendingRefreshResult portfolio now error.typeName operationId
        .ok ⟨result, .none⟩)
  | .invalid context executionCutoff error =>
      (state, call.invalidDecision portfolio executionCutoff context error operationId reservedId)
  | .raised error => (state, .error error)

/-! ## What a decision accounts for -/

end ProductionSemanticOrderExecutor

/-- Changing what a result says about its contexts and its submission leaves it accounted
for. -/
theorem OrderResultFields.AccountedOn.annotated {portfolio : ContractPortfolio}
    {first second : OrderResultFields} (h : first.AccountedOn portfolio)
    (hrequest : second.request = first.request)
    (hoperationId : second.operationId = first.operationId) (hfills : second.fills = first.fills)
    (hbefore : second.portfolioBefore = first.portfolioBefore)
    (hafter : second.portfolioAfter = first.portfolioAfter)
    (hentries : second.ledgerEntries = first.ledgerEntries) : second.AccountedOn portfolio := by
  cases h with
  | unfilled hnone hbefore' hafter' hentries' =>
      exact .unfilled (hfills.trans hnone) (hbefore.trans hbefore') (hafter.trans hafter')
        (hentries.trans hentries')
  | filled booked hbefore' hafter' hentries' =>
      rw [← hrequest, ← hoperationId, ← hfills] at booked
      exact .filled booked (hbefore.trans hbefore') (hafter.trans hafter')
        (hentries.trans hentries')

/-- A decision is on the request of its call, and accounts for the portfolio it was made
on. -/
structure Decision.Decides (call : Submission) (portfolio : ContractPortfolio)
    (decision : Decision) : Prop where
  request : decision.result.request = call.request
  accounted : decision.result.AccountedOn portfolio

namespace Submission

variable {call : Submission} {portfolio : ContractPortfolio} {now : Datetime}
  {operationId reservedId : String}

theorem pendingRefreshResult_accountedOn {failureType : String} {result : OrderResult}
    (h : call.pendingRefreshResult portfolio now failureType operationId = .ok result) :
    result.request = call.request ∧ result.AccountedOn portfolio := by
  obtain ⟨pending, hpending, h⟩ := Checks.bind_eq_ok.mp h
  obtain ⟨hrequest, haccounted⟩ := pendingResult_accountedOn hpending
  rw [OrderResult.make_eq_ok_iff.mp h]
  exact ⟨hrequest, haccounted.annotated rfl rfl rfl rfl rfl rfl⟩

theorem rejectedRefreshResult_accountedOn {code : SemanticExecutionError}
    {message failureType : String} {result : OrderResult}
    (h : call.rejectedRefreshResult portfolio now code message failureType operationId =
      .ok result) :
    result.request = call.request ∧ result.AccountedOn portfolio := by
  obtain ⟨rejection, hrejection, h⟩ := Checks.bind_eq_ok.mp h
  obtain ⟨hrequest, haccounted⟩ := rejected_accountedOn hrejection
  rw [OrderResult.make_eq_ok_iff.mp h]
  exact ⟨hrequest, haccounted.annotated rfl rfl rfl rfl rfl rfl⟩

theorem refreshFailureResult_accountedOn {error : FreshExecutionContextError}
    {result : OrderResult}
    (h : call.refreshFailureResult portfolio now error operationId = .ok result) :
    result.request = call.request ∧ result.AccountedOn portfolio := by
  unfold refreshFailureResult at h
  split at h
  · exact pendingRefreshResult_accountedOn h
  · exact rejectedRefreshResult_accountedOn h

theorem invalidDecision_decides {context : Option FreshContext} {error : Raised}
    {decision : Decision}
    (h : call.invalidDecision portfolio now context error operationId reservedId =
      .ok decision) : decision.Decides call portfolio := by
  obtain ⟨result, hresult, h⟩ := Checks.bind_eq_ok.mp h
  obtain ⟨recorded, hrecorded, h⟩ := Checks.bind_eq_ok.mp h
  cases h
  obtain ⟨hrequest, haccounted⟩ := rejectedRefreshResult_accountedOn hresult
  have hfields := OrderResult.make_eq_ok_iff.mp hrecorded
  constructor
  · rw [hfields]
    exact hrequest
  · rw [hfields]
    exact haccounted.annotated rfl rfl rfl rfl rfl rfl

/-- A result is accounted for under the contexts that it is recorded with. -/
theorem contextualized_decides {result recorded : OrderResult} {evidence : OrderEvidence}
    (h : call.contextualized reservedId result = .ok recorded)
    (hresult : result.request = call.request ∧ result.AccountedOn portfolio) :
    (Decision.mk recorded evidence).Decides call portfolio := by
  have hfields := OrderResult.make_eq_ok_iff.mp h
  constructor
  · rw [hfields]
    exact hresult.1
  · rw [hfields]
    exact hresult.2.annotated rfl rfl rfl rfl rfl rfl

end Submission

namespace ProductionSemanticOrderExecutor

variable {executor : ProductionSemanticOrderExecutor} {digests : Digests} {state : BrokerState}
  {call : Submission} {portfolio : ContractPortfolio} {environment : ExecutionEnvironment}
  {reservedId : String} {decision : Decision}

/-- A decision on a fresh context under a key that the broker does not know. -/
theorem decideFresh_decides {context : FreshContext} {executionCutoff : Datetime}
    (hnew : state.result call.key = none)
    (h : (executor.decideFresh digests state call portfolio environment context executionCutoff
      reservedId).2 = .ok decision) : decision.Decides call portfolio := by
  unfold decideFresh at h
  split at h
  · cases h
  · obtain ⟨result, hresult, h⟩ := Checks.bind_eq_ok.mp h
    obtain ⟨recorded, hrecorded, h⟩ := Checks.bind_eq_ok.mp h
    cases h
    exact Submission.contextualized_decides hrecorded (rejected_accountedOn hresult)
  · split at h
    · cases h
    · obtain ⟨result, hresult, h⟩ := Checks.bind_eq_ok.mp h
      obtain ⟨recorded, hrecorded, h⟩ := Checks.bind_eq_ok.mp h
      cases h
      exact Submission.contextualized_decides hrecorded
        (executor.broker.execute_accountedOn digests hnew hresult)

/-- Every decision under a key that the broker does not know accounts for the portfolio
it was made on. -/
theorem decide_decides (hnew : state.result call.key = none)
    (h : (executor.decide digests state call portfolio environment reservedId).2 =
      .ok decision) : decision.Decides call portfolio := by
  unfold decide at h
  dsimp only at h
  split at h
  · exact decideFresh_decides hnew h
  · obtain ⟨now, -, h⟩ := Checks.bind_eq_ok.mp h
    obtain ⟨result, hresult, h⟩ := Checks.bind_eq_ok.mp h
    cases h
    obtain ⟨hrequest, haccounted⟩ := Submission.refreshFailureResult_accountedOn hresult
    exact ⟨hrequest, haccounted⟩
  · obtain ⟨now, -, h⟩ := Checks.bind_eq_ok.mp h
    obtain ⟨result, hresult, h⟩ := Checks.bind_eq_ok.mp h
    cases h
    obtain ⟨hrequest, haccounted⟩ := Submission.pendingRefreshResult_accountedOn hresult
    exact ⟨hrequest, haccounted⟩
  · exact Submission.invalidDecision_decides h
  · cases h

/-- The broker learns of the key that is decided on only. -/
theorem result_decide {key : String × String} (hkey : key ≠ call.key)
    (hnew : state.result call.key = none) :
    (executor.decide digests state call portfolio environment reservedId).1.result key =
      state.result key := by
  unfold decide
  dsimp only
  split
  case h_1 context executionCutoff hrefresh =>
    unfold decideFresh
    split
    · rfl
    · rfl
    next policy hpolicy =>
      split
      · rfl
      next accountValue hvalue =>
        have hstored {stored : OrderResult} (hrequest : stored.request = call.request) :
            (state.store stored).result key = state.result key := by
          apply BrokerState.result_store_of_ne
          intro hequal
          rw [OrderResultFields.requestKey, hrequest] at hequal
          exact hkey hequal
        dsimp only
        rcases executor.broker.execute_new digests (call.executionArguments context
            executionCutoff policy portfolio accountValue reservedId) hnew with
          ⟨hstate, -⟩ | ⟨stored, -, hrequest, ⟨-, hstate⟩ | ⟨-, hstate⟩⟩
        · rw [hstate]
        · rw [hstate]
          exact hstored hrequest
        · rw [hstate]
          exact hstored hrequest
  all_goals rfl

end ProductionSemanticOrderExecutor

end VTrade
