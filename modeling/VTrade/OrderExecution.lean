/-
# Submitting orders

The executor refreshes the market of an order and hands it to the broker with the
fresh context, or as pending when the refresh fails.  When the refreshed context
does not fit the decision, it answers with a rejection of its own.

That answer comes before the broker is asked, also when the broker has executed the
order before, and the broker never learns of it.  A request gets one result as long
as its submissions reach the broker.
-/

import VTrade.BrokerRuns

namespace VTrade

/-- Immutable context used to make an order decision. -/
structure FrozenDecisionContext where
  contextId : String
  marketContext : MarketContext
  cutoff : Instant
  contextId_ne_empty : contextId ≠ ""
  same_cutoff : marketContext.orderBook.cutoff = cutoff

/-- Context obtained immediately before a paper fill. -/
structure RefreshedExecutionContext where
  contextId : String
  marketContext : MarketContext
  refreshedAt : Instant
  contextId_ne_empty : contextId ≠ ""
  observed_le_refreshed : marketContext.orderBook.observedAt ≤ refreshedAt

/-- What a decision was made on: a frozen decision, or a market context alone. -/
inductive FrozenContext
  | decision (context : FrozenDecisionContext)
  | market (context : MarketContext)

/-- What a refresher returns. -/
inductive RefreshedContext
  | execution (context : RefreshedExecutionContext)
  | market (context : MarketContext)

/-- A call of `submit`, with what the refresher, the fee policy and the clocks give
while it runs. -/
structure SubmitCall where
  request : OrderRequest
  frozenContext : FrozenContext
  portfolio : ContractPortfolio
  /-- What the refresher makes of the request and the frozen decision. -/
  refresh : Except Raised RefreshedContext
  /-- What it makes of the request alone, when it does not take two arguments. -/
  refreshAlone : Except Raised RefreshedContext
  /-- The clock when the refresh is done. -/
  finished : Datetime
  /-- The microseconds that the refresh took. -/
  waited : ℤ
  feePolicy : Except Raised (Option FeePolicySnapshot)
  /-- The clock when the broker is called. -/
  executedAt : Datetime

/-- `_aware`. -/
def Datetime.requireAware (value : Datetime) : Except Raised Datetime :=
  if value.isAware then .ok value else .error (.valueError "timestamp must be timezone-aware")

/-- The errors after which an order is kept pending. -/
def Raised.isRefreshFailure : Raised → Bool
  | contextRefreshError _ | osError _ => true
  | _ => false

namespace SubmitCall

variable (call : SubmitCall)

def key : String × String := (call.request.agentId, call.request.idempotencyKey)

def frozen : FrozenDecisionContext :=
  match call.frozenContext with
  | .decision context => context
  | .market context => {
      contextId := (truthy call.request.frozenContextId).getD "frozen-context"
      marketContext := context
      cutoff := context.orderBook.cutoff
      contextId_ne_empty := by
        cases h : call.request.frozenContextId with
        | none => simp [truthy]
        | some contextId =>
            by_cases hempty : contextId = ""
            · simp [truthy, Option.filter, hempty]
            · simp [truthy, Option.filter, hempty]
      same_cutoff := rfl }

def callRefresh : Except Raised RefreshedContext :=
  match call.refresh with
  | .error (.typeError _) =>
      match call.refreshAlone with
      | .error (.typeError _) =>
          .error (.contextRefreshError "context refresher has an invalid signature")
      | refreshed => refreshed
  | refreshed => refreshed

/-- The context to execute on: the one that the refresher has made, or a new one. -/
def execution (finished : Datetime) : RefreshedContext → Except Raised RefreshedExecutionContext
  | .execution context => .ok context
  | .market context =>
      if h : context.orderBook.observedAt ≤ finished.instant then
        .ok {
          contextId := "execution:" ++ call.request.idempotencyKey
          marketContext := context
          refreshedAt := finished.instant
          contextId_ne_empty := fun hempty => by
            have hlist := congrArg String.toList hempty
            simp at hlist
          observed_le_refreshed := h }
      else .error (.valueError "execution book cannot be observed in the future")

def validatePair (execution : RefreshedExecutionContext) (now : Datetime) : Except Raised Unit :=
  Checks.raiseFirst [
    (execution.marketContext.market.key ≠ call.request.marketRef,
      .valueError "refreshed market differs from market_ref"),
    (execution.marketContext.orderBook.cutoff < call.frozen.cutoff,
      .valueError "refreshed context is older than the frozen decision"),
    (now.instant < execution.marketContext.orderBook.observedAt,
      .valueError "refreshed order book is from the future")]

end SubmitCall

/-- What a submission comes to: a call of the broker, or a rejection without one. -/
inductive SubmitRoute
  | broker (arguments : ExecutionArguments)
  | rejected (message : String)

/-- Orchestrates frozen decisions and refreshed paper execution contexts. -/
structure SemanticOrderExecutor where
  broker : BinaryPaperBroker
  /-- In microseconds. -/
  maximumWait : ℤ
  wait_nonneg : 0 ≤ maximumWait

namespace SemanticOrderExecutor

variable (executor : SemanticOrderExecutor) (digests : Digests)

/-- The refresh, its validation and the fee policy. -/
def refreshed (call : SubmitCall) :
    Except Raised (RefreshedExecutionContext × Option FeePolicySnapshot) := do
  let context ← call.callRefresh
  let finished ← call.finished.requireAware
  Checks.raiseFirst [(executor.maximumWait < call.waited,
    .contextRefreshError "execution context refresh exceeded its bound")]
  let execution ← call.execution finished context
  call.validatePair execution finished
  let policy ← call.feePolicy
  .ok (execution, policy)

def route (call : SubmitCall) : Except Raised SubmitRoute :=
  match executor.refreshed call with
  | .ok (execution, policy) => do
      let now ← call.executedAt.requireAware
      .ok (.broker {
        context := some execution.marketContext
        portfolio := call.portfolio
        feePolicy := policy
        frozenContextId := some call.frozen.contextId
        executionContextId := some execution.contextId
        now := now
        pending := false
        accountValueMicros := none
        valuationContexts := none })
  | .error error =>
      if error.isRefreshFailure then do
        let now ← call.executedAt.requireAware
        .ok (.broker {
          context := none
          portfolio := call.portfolio
          feePolicy := none
          frozenContextId := some call.frozen.contextId
          executionContextId := none
          now := now
          pending := true
          accountValueMicros := none
          valuationContexts := none })
      else if error.isValueError then .ok (.rejected error.message)
      else .error error

end SemanticOrderExecutor

/-- `_rejected_without_submission`: the broker does not get to know of it. -/
def rejectedWithoutSubmission (digests : Digests) (request : OrderRequest)
    (portfolio : ContractPortfolio) (message : String) : Except Raised OrderResult :=
  OrderResult.make {
    request := request
    operationId := digests.operationUuid request.agentId request.idempotencyKey
    state := .rejected
    reconciliationState := .notRequired
    requestedUnits := request.contractUnits.getD 0
    filledUnits := 0
    remainingUnits := request.contractUnits.getD 0
    cancelledUnits := 0
    submittedAt := request.createdAt
    updatedAt := request.createdAt
    errorCode := some .invalidContext
    message := some message
    portfolioBefore := some portfolio
    portfolioAfter := some portfolio }

namespace SemanticOrderExecutor

variable (executor : SemanticOrderExecutor) (digests : Digests)

def submit (state : BrokerState) (call : SubmitCall) : BrokerState × Except Raised OrderResult :=
  match executor.route call with
  | .ok (.broker arguments) => executor.broker.execute digests state call.request arguments
  | .ok (.rejected message) =>
      (state, rejectedWithoutSubmission digests call.request call.portfolio message)
  | .error error => (state, .error error)

/-- The state of a new broker after a run of submissions. -/
def after (calls : List SubmitCall) : BrokerState :=
  Runs.final (executor.submit digests) .empty calls

/-- The submission reaches the broker. -/
def Reaches (call : SubmitCall) : Prop := ∃ arguments, executor.route call = .ok (.broker arguments)

/-- Two submissions of one request. -/
def SameRequest (first later : SubmitCall) : Prop :=
  first.key = later.key ∧ digests.fingerprint first.request = digests.fingerprint later.request

/-- Two submissions of a request get one result: both reach the broker, where no other
request has used their key before; or both are rejected without it for one reason and
are the same in all that the rejection shows. -/
def Agree (before : List SubmitCall) (first later : SubmitCall) : Prop :=
  (executor.Reaches first ∧ executor.Reaches later ∧
    ∀ other ∈ before, executor.Reaches other → other.key = first.key →
      digests.fingerprint other.request = digests.fingerprint first.request) ∨
    ∃ message, executor.route first = .ok (.rejected message) ∧
      executor.route later = .ok (.rejected message) ∧
      first.request = later.request ∧ first.portfolio = later.portfolio

theorem route_broker_aware {call : SubmitCall} {arguments : ExecutionArguments}
    (h : executor.route call = .ok (.broker arguments)) : arguments.now.isAware = true := by
  have haware {now : Datetime} (hnow : call.executedAt.requireAware = .ok now) :
      now.isAware = true := by
    unfold Datetime.requireAware at hnow
    split at hnow
    next haware =>
      cases hnow
      exact haware
    next => cases hnow
  unfold route at h
  split at h
  · obtain ⟨now, hnow, h⟩ := Checks.bind_eq_ok.mp h
    cases h
    exact haware hnow
  · split at h
    · obtain ⟨now, hnow, h⟩ := Checks.bind_eq_ok.mp h
      cases h
      exact haware hnow
    · split at h
      · cases h
      · cases h

/-- Submissions never change a result that the broker has. -/
theorem result_submit {state : BrokerState} {key : String × String} {result : OrderResult}
    (h : state.result key = some result) (call : SubmitCall) :
    (executor.submit digests state call).1.result key = some result := by
  unfold submit
  split
  next arguments hroute =>
    cases hown : state.result call.key with
    | some existing =>
        rw [(executor.broker.execute_known digests arguments hown).1]
        exact h
    | none =>
        have hstored {stored : OrderResult} (hrequest : stored.request = call.request) :
            (state.store stored).result key = some result := by
          rw [BrokerState.result_store_of_ne state fun hkey => ?_, h]
          rw [hkey, OrderResultFields.requestKey, hrequest] at h
          exact absurd (hown.symm.trans h) (by simp)
        rcases executor.broker.execute_new digests arguments hown with
          ⟨hstate, -⟩ | ⟨stored, -, hrequest, ⟨-, hstate⟩ | ⟨-, hstate⟩⟩
        · rw [hstate]
          exact h
        · rw [hstate]
          exact hstored hrequest
        · rw [hstate]
          exact hstored hrequest
  · exact h
  · exact h

theorem result_final {state : BrokerState} {key : String × String} {result : OrderResult}
    (h : state.result key = some result) (calls : List SubmitCall) :
    (Runs.final (executor.submit digests) state calls).result key = some result :=
  Runs.final_invariant (executor.submit digests)
    (fun _ state => state.result key = some result) h
    (fun _ _ call h => executor.result_submit digests h call) calls

/-- A result that the broker has is of a submission that has reached it. -/
theorem result_reached (calls : List SubmitCall) {key : String × String} {result : OrderResult}
    (h : (executor.after digests calls).result key = some result) :
    ∃ call ∈ calls, executor.Reaches call ∧ call.key = key ∧ result.request = call.request := by
  induction calls using List.reverseRecOn with
  | nil => cases h
  | append_singleton calls call ih =>
      have hold (hold : (executor.after digests calls).result key = some result) :
          ∃ earlier ∈ calls ++ [call], executor.Reaches earlier ∧ earlier.key = key ∧
            result.request = earlier.request := by
        obtain ⟨earlier, hmem, hearlier⟩ := ih hold
        exact ⟨earlier, List.mem_append_left _ hmem, hearlier⟩
      rw [after, Runs.final_concat] at h
      change (executor.submit digests (executor.after digests calls) call).1.result key =
        some result at h
      unfold submit at h
      split at h
      next arguments hroute =>
        cases hown : (executor.after digests calls).result call.key with
        | some existing =>
            rw [(executor.broker.execute_known digests arguments hown).1] at h
            exact hold h
        | none =>
            have hstored {stored : OrderResult} (hrequest : stored.request = call.request)
                (h : ((executor.after digests calls).store stored).result key = some result) :
                ∃ earlier ∈ calls ++ [call], executor.Reaches earlier ∧ earlier.key = key ∧
                  result.request = earlier.request := by
              by_cases hkey : key = stored.requestKey
              · subst hkey
                rw [BrokerState.result_store_self] at h
                cases h
                refine ⟨call, List.mem_append_right _ (List.mem_singleton.mpr rfl),
                  ⟨arguments, hroute⟩, ?_, hrequest⟩
                rw [OrderResultFields.requestKey, hrequest]
                rfl
              · rw [BrokerState.result_store_of_ne _ hkey] at h
                exact hold h
            rcases executor.broker.execute_new digests arguments hown with
              ⟨hstate, -⟩ | ⟨stored, -, hrequest, ⟨-, hstate⟩ | ⟨-, hstate⟩⟩
            · rw [hstate] at h
              exact hold h
            · rw [hstate] at h
              exact hstored hrequest h
            · rw [hstate] at h
              exact hstored hrequest h
      · exact hold h
      · exact hold h

/-- A submission that reaches the broker leaves its result there, when no other
request has used its key before. -/
theorem submit_stores {before : List SubmitCall} {first : SubmitCall} {result : OrderResult}
    (hreaches : executor.Reaches first)
    (hown : ∀ other ∈ before, executor.Reaches other → other.key = first.key →
      digests.fingerprint other.request = digests.fingerprint first.request)
    (h : (executor.submit digests (executor.after digests before) first).2 = .ok result) :
    (executor.submit digests (executor.after digests before) first).1.result first.key =
        some result ∧
      digests.fingerprint result.request = digests.fingerprint first.request := by
  obtain ⟨arguments, hroute⟩ := hreaches
  have hsubmit : executor.submit digests (executor.after digests before) first =
      executor.broker.execute digests (executor.after digests before) first.request arguments := by
    rw [submit, hroute]
  rw [hsubmit] at h ⊢
  cases hresult : (executor.after digests before).result first.key with
  | none =>
      rcases executor.broker.execute_new digests arguments hresult with
        ⟨-, error, herror⟩ | ⟨stored, hok, hrequest, hstate⟩
      · rw [herror] at h
        cases h
      · rw [hok] at h
        cases h
        have hkey : first.key = result.requestKey := by
          rw [OrderResultFields.requestKey, hrequest]
          rfl
        rw [hkey, hrequest]
        refine ⟨?_, rfl⟩
        rcases hstate with ⟨-, hstate⟩ | ⟨-, hstate⟩
        · rw [hstate]
          exact BrokerState.result_store_self _ _
        · rw [hstate]
          exact BrokerState.result_store_self _ _
  | some existing =>
      obtain ⟨earlier, hmem, hreaches, hkey, hrequest⟩ :=
        executor.result_reached digests before hresult
      have hequal : digests.fingerprint existing.request = digests.fingerprint first.request := by
        rw [hrequest]
        exact hown earlier hmem hreaches hkey
      obtain ⟨hstate, hcase⟩ := executor.broker.execute_known digests arguments hresult
      rcases hcase with ⟨hnaive, -⟩ | ⟨-, -, hsame⟩ | ⟨-, hdiffers, -⟩
      · rw [executor.route_broker_aware hroute] at hnaive
        cases hnaive
      · rw [hsame] at h
        cases h
        rw [hstate]
        exact ⟨hresult, hequal⟩
      · exact absurd hequal hdiffers

/-- In a run in which a submission that does not raise agrees with any later one of its
request, every submission of a request returns the result that an earlier one of it has
returned. -/
theorem submit_returns_first (calls : List SubmitCall)
    (hagree : ∀ before first between later rest,
      calls = before ++ first :: between ++ later :: rest → SameRequest digests first later →
      (∃ route, executor.route first = .ok route) → executor.Agree digests before first later) :
    ∀ before first between later rest result,
      calls = before ++ first :: between ++ later :: rest → SameRequest digests first later →
      (executor.submit digests (executor.after digests before) first).2 = .ok result →
      (executor.submit digests (executor.after digests (before ++ first :: between)) later).2 =
        .ok result := by
  intro before first between later rest result hcalls hsame hfirst
  have hroutes : ∃ route, executor.route first = .ok route := by
    cases hroute : executor.route first with
    | ok route => exact ⟨route, rfl⟩
    | error error =>
        rw [submit, hroute] at hfirst
        cases hfirst
  rcases hagree before first between later rest hcalls hsame hroutes with
    ⟨hreaches, ⟨arguments, hroute⟩, hown⟩ | ⟨message, hroute, hroute', hrequest, hportfolio⟩
  · obtain ⟨hstored, hequal⟩ := executor.submit_stores digests hreaches hown hfirst
    have hknown : (executor.after digests (before ++ first :: between)).result later.key =
        some result := by
      rw [after, Runs.final_append, Runs.final_cons, ← hsame.1]
      exact executor.result_final digests hstored between
    rw [submit, hroute]
    dsimp only
    obtain ⟨-, hcase⟩ := executor.broker.execute_known digests arguments hknown
    rcases hcase with ⟨hnaive, -⟩ | ⟨-, -, hreturned⟩ | ⟨-, hdiffers, -⟩
    · rw [executor.route_broker_aware hroute] at hnaive
      cases hnaive
    · exact hreturned
    · exact absurd (hequal.trans hsame.2) hdiffers
  · rw [submit, hroute] at hfirst
    rw [submit, hroute', ← hrequest, ← hportfolio]
    exact hfirst

end SemanticOrderExecutor

namespace Sample

def executor : SemanticOrderExecutor := ⟨broker, 10000000, by decide⟩

/-- A submission of the purchase, with the clock at a moment when the refresh is done. -/
def submission (finished : Datetime) : SubmitCall where
  request := purchase
  frozenContext := .market context
  portfolio := portfolio
  refresh := .ok (.market context)
  refreshAlone := .ok (.market context)
  finished := finished
  waited := 0
  feePolicy := .ok (some (feePolicy false))
  executedAt := moment

/-- A year before the sample's moment. -/
def earlier : Datetime := { moment with year := 2025, date_valid := by decide }

end Sample

/-- A purchase that is submitted twice gets one result. -/
theorem submit_returns_first_purchase :
    ∃ result, (Sample.executor.submit Sample.digests .empty (Sample.submission Sample.moment)).2 =
        .ok result ∧
      (Sample.executor.submit Sample.digests
        (Sample.executor.after Sample.digests [Sample.submission Sample.moment])
        (Sample.submission Sample.moment)).2 = .ok result := by
  obtain ⟨result, hresult, -⟩ := Checks.exists_ok_of_any
    (Sample.executor.submit Sample.digests .empty (Sample.submission Sample.moment)).2
    (fun result => result.state = .filled) (by decide +kernel)
  have hreaches : Sample.executor.Reaches (Sample.submission Sample.moment) := ⟨_, rfl⟩
  refine ⟨result, hresult, Sample.executor.submit_returns_first Sample.digests
    [Sample.submission Sample.moment, Sample.submission Sample.moment]
    (fun before first between later rest hcalls hsame _ => ?_) [] _ [] _ [] result rfl ⟨rfl, rfl⟩
    hresult⟩
  have hmem : ∀ call ∈ before ++ first :: between ++ later :: rest,
      call = Sample.submission Sample.moment := by
    rw [← hcalls]
    simp
  refine Or.inl ⟨?_, ?_, fun other hother _ _ => ?_⟩
  · rw [hmem first (by simp)]
    exact hreaches
  · rw [hmem later (by simp)]
    exact hreaches
  · rw [hmem other (by simp [hother]), hmem first (by simp)]

set_option maxRecDepth 10000 in
/-- A filled purchase that is submitted again, with a refresh that is done before the
book was observed, is reported as rejected. -/
theorem submit_rejects_filled :
    ((Sample.executor.submit Sample.digests .empty (Sample.submission Sample.moment)).2.toOption.any
        fun result => result.state = .filled) = true ∧
      ((Sample.executor.submit Sample.digests
        (Sample.executor.after Sample.digests [Sample.submission Sample.moment])
        (Sample.submission Sample.earlier)).2.toOption.any
          fun result => result.state = .rejected ∧
            result.message = some "execution book cannot be observed in the future") = true := by
  decide +kernel

end VTrade
