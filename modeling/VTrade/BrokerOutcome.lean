/-
# What an execution comes to

An execution that does not get to its fills is rejected, and one whose fills
accounting refuses is rejected too.  What remains of an order for contracts is
counted twice in its result, once as remaining and once as cancelled, so the
result of a partial fill is refused by its own check and `execute` raises.
Every result that the broker holds fills nothing or everything.
-/

import VTrade.FillAcceptance

namespace VTrade

/-! ## What accounting raises -/

theorem ContractPortfolio.make_raisesOnly (fields : ContractPortfolioFields) :
    RaisesValueError (ContractPortfolio.make fields) :=
  Checks.raisesOnly_build (Checks.raisesOnly_raiseFirst (by simp [Raised.isValueError]))

theorem replacePosition_raisesOnly (portfolio : ContractPortfolio) (position : ContractPosition)
    (cashMicros realizedPnlMicros : ℤ) :
    RaisesValueError (replacePosition portfolio position cashMicros realizedPnlMicros) :=
  ContractPortfolio.make_raisesOnly _

theorem proRata_raisesOnly (total part whole : ℤ) :
    RaisesValueError (proRata total part whole) :=
  Checks.raisesOnly_ite (Checks.raisesOnly_error rfl)
    (Checks.raisesOnly_ite (Checks.raisesOnly_ok _) (Checks.raisesOnly_ok _))

theorem ContractPosition.make_raisesOnly (fields : ContractPositionFields) :
    RaisesValueError (ContractPosition.make fields) :=
  Checks.raisesOnly_build (Checks.raisesOnly_raiseFirst (by simp [Raised.isValueError]))

theorem applyFill_raisesOnly (request : OrderRequest) (loop : FillLoop) (fill : EconomicFill) :
    RaisesValueError (applyFill request loop fill) := by
  unfold applyFill
  cases request.action with
  | buy =>
      refine Checks.raisesOnly_bind (ContractPosition.make_raisesOnly _) fun updated _ => ?_
      refine Checks.raisesOnly_ite (Checks.raisesOnly_error rfl) ?_
      refine Checks.raisesOnly_bind (replacePosition_raisesOnly _ _ _ _) fun working _ => ?_
      exact Checks.raisesOnly_ite (Checks.raisesOnly_error rfl) (Checks.raisesOnly_ok _)
  | sell =>
      unfold applySellFill
      simp only
      split
      · exact Checks.raisesOnly_error rfl
      · refine Checks.raisesOnly_ite (Checks.raisesOnly_error rfl) ?_
        refine Checks.raisesOnly_bind (proRata_raisesOnly _ _ _) fun removedBasis _ => ?_
        refine Checks.raisesOnly_bind (proRata_raisesOnly _ _ _) fun removedFees _ => ?_
        refine Checks.raisesOnly_bind (ContractPosition.make_raisesOnly _) fun updated _ => ?_
        refine Checks.raisesOnly_ite (Checks.raisesOnly_error rfl) ?_
        refine Checks.raisesOnly_bind (replacePosition_raisesOnly _ _ _ _) fun working _ => ?_
        exact Checks.raisesOnly_ite (Checks.raisesOnly_error rfl) (Checks.raisesOnly_ok _)

theorem Posting.make_raisesOnly (fields : PostingFields) :
    RaisesValueError (Posting.make fields) :=
  Checks.raisesOnly_build (Checks.raisesOnly_raiseFirst (by simp [Raised.isValueError]))

theorem LedgerEntry.make_raisesOnly (id agentId idempotencyKey eventType : String)
    (occurredAt : Datetime) (postings : List Posting) :
    RaisesValueError (LedgerEntry.make id agentId idempotencyKey eventType occurredAt postings) := by
  unfold LedgerEntry.make
  repeat' split
  · exact Checks.raisesOnly_error rfl
  · exact Checks.raisesOnly_error rfl
  · exact Checks.raisesOnly_error rfl
  · exact Checks.raisesOnly_ok _

/-- Accounting raises value errors and nothing else. -/
theorem applyOrderFills_raisesOnly (portfolio : ContractPortfolio) (request : OrderRequest)
    (fills : List EconomicFill) (operationId : String) (occurredAt : Datetime) :
    RaisesValueError (applyOrderFills portfolio request fills operationId occurredAt) := by
  refine Checks.raisesOnly_ite (Checks.raisesOnly_error rfl) (Checks.raisesOnly_ite
    (Checks.raisesOnly_error rfl) (Checks.raisesOnly_ite (Checks.raisesOnly_error rfl) ?_))
  refine Checks.raisesOnly_bind (Checks.raisesOnly_foldlM (applyFill_raisesOnly request))
    fun loop _ => ?_
  refine Checks.raisesOnly_bind (Checks.raisesOnly_mapM Posting.make_raisesOnly) fun _ _ => ?_
  refine Checks.raisesOnly_bind (LedgerEntry.make_raisesOnly _ _ _ _ _ _) fun entry _ => ?_
  exact Checks.raisesOnly_bind (ContractPortfolio.make_raisesOnly _) fun _ _ =>
    Checks.raisesOnly_ok _

/-! ## Results without fills -/

theorem OrderRequest.contractUnits_getD_nonneg (request : OrderRequest) :
    0 ≤ request.contractUnits.getD 0 := by
  unfold contractUnits
  split
  · exact request.amount_pos.le
  · exact le_refl 0

theorem OrderRequest.contractUnits_of_contracts {request : OrderRequest}
    (h : request.amountType = .contracts) : request.contractUnits = some request.amount :=
  if_pos h

/-- What a result without fills is like: all that the order asks for remains. -/
structure OrderResultFields.Unfilled (result : OrderResultFields) : Prop where
  requested : result.requestedUnits = result.request.contractUnits.getD 0
  filled : result.filledUnits = 0
  remaining : result.remainingUnits = result.requestedUnits
  cancelled : result.cancelledUnits = 0
  fills : result.fills = []
  money : result.grossCashDeltaMicros = 0 ∧ result.feeMicros = 0 ∧ result.netCashDeltaMicros = 0
  state : result.state = .rejected ∨ result.state = .pending

/-- A result without fills passes its checks when it is named and not submitted later
than it is updated. -/
theorem OrderResultFields.Unfilled.postInit {result : OrderResultFields} (h : result.Unfilled)
    (hoperation : Text.isBlank result.operationId = false)
    (hordered : result.submittedAt ≤ result.updatedAt) : result.postInit = .ok () := by
  have hunits := result.request.contractUnits_getD_nonneg
  rw [← h.requested] at hunits
  obtain ⟨hgross, hfee, hnet⟩ := h.money
  rw [OrderResult.postInit_eq_ok_iff]
  constructor
  case operation => exact hoperation
  case requested_nonneg => exact hunits
  case filled_nonneg => exact h.filled.ge
  case remaining_nonneg => exact h.remaining ▸ hunits
  case cancelled_nonneg => exact h.cancelled.ge
  case requested =>
    intro hcontracts
    rw [h.requested, OrderRequest.contractUnits_of_contracts hcontracts, Option.getD_some]
  case conserved =>
    intro _
    rw [h.filled, h.remaining, h.cancelled, zero_add, add_zero]
  case filled => rw [h.filled, h.fills, List.map_nil, List.sum_nil]
  case fee_nonneg => exact hfee.ge
  case net => rw [hgross, hfee, hnet, sub_zero]
  case complete => rcases h.state with hstate | hstate <;> simp [hstate]
  case partly => rcases h.state with hstate | hstate <;> simp [hstate]
  case refused => exact fun _ => h.fills
  case ordered => exact hordered

/-- A rejection is a result that fills nothing. -/
theorem rejected_isOk {request : OrderRequest} (portfolio : ContractPortfolio) {now : Datetime}
    {operationId : String} (rejection : Rejection) (hoperation : Text.isBlank operationId = false)
    (hcreated : request.createdAt ≤ now.instant) :
    ∃ result, rejected request portfolio now operationId rejection = .ok result :=
  ⟨_, OrderResult.make_eq_ok (OrderResultFields.Unfilled.postInit
    ⟨rfl, rfl, rfl, rfl, rfl, ⟨rfl, rfl, rfl⟩, Or.inl rfl⟩ hoperation hcreated)⟩

/-- An order that is kept pending fills nothing. -/
theorem pendingResult_isOk {request : OrderRequest} (portfolio : ContractPortfolio)
    {now : Datetime} {operationId : String} (frozenContextId : Option String)
    (hoperation : Text.isBlank operationId = false) (hcreated : request.createdAt ≤ now.instant) :
    ∃ result, pendingResult request portfolio now operationId frozenContextId = .ok result :=
  ⟨_, OrderResult.make_eq_ok (OrderResultFields.Unfilled.postInit
    ⟨rfl, rfl, rfl, rfl, rfl, ⟨rfl, rfl, rfl⟩, Or.inr rfl⟩ hoperation hcreated)⟩

/-! ## All or nothing -/

/-- A result fills nothing or everything. -/
def OrderResultFields.AllOrNothing (result : OrderResultFields) : Prop :=
  result.filledUnits = 0 ∨ result.filledUnits = result.requestedUnits

theorem rejected_allOrNothing {request : OrderRequest} {portfolio : ContractPortfolio}
    {now : Datetime} {operationId : String} {rejection : Rejection} {result : OrderResult}
    (h : rejected request portfolio now operationId rejection = .ok result) :
    result.AllOrNothing := by
  unfold OrderResultFields.AllOrNothing
  rw [OrderResult.make_eq_ok_iff.mp h]
  exact Or.inl rfl

theorem pendingResult_allOrNothing {request : OrderRequest} {portfolio : ContractPortfolio}
    {now : Datetime} {operationId : String} {frozenContextId : Option String}
    {result : OrderResult}
    (h : pendingResult request portfolio now operationId frozenContextId = .ok result) :
    result.AllOrNothing := by
  unfold OrderResultFields.AllOrNothing
  rw [OrderResult.make_eq_ok_iff.mp h]
  exact Or.inl rfl

namespace BinaryPaperBroker

variable (broker : BinaryPaperBroker) (digests : Digests)

/-- What remains of an order is counted as remaining and as cancelled, so a result
with fills is one that fills everything. -/
theorem finish_allOrNothing {request : OrderRequest} {arguments : ExecutionArguments}
    {operationId : String} {prepared : PreparedOrder} {result : OrderResult}
    (h : finish digests request arguments operationId prepared = .ok result) :
    result.AllOrNothing := by
  obtain ⟨fills, -, h⟩ := Checks.bind_eq_ok.mp h
  split at h
  · split at h
    · exact rejected_allOrNothing h
    · cases h
  · obtain ⟨audit, -, h⟩ := Checks.bind_eq_ok.mp h
    have hfields := OrderResult.make_eq_ok_iff.mp h
    have haccounts := result.accounts
    rw [hfields] at haccounts
    unfold OrderResultFields.AllOrNothing
    rw [hfields]
    right
    cases hamount : request.amountType with
    | cash => simp [PreparedOrder.requestedUnits, OrderRequest.contractUnits, hamount]
    | contracts =>
        have hconserved := haccounts.conserved hamount
        simp only at hconserved ⊢
        omega

/-- A prepared order asks for no fewer units than it fills. -/
theorem PlanSound.filledUnits_le {request : OrderRequest} {portfolio : ContractPortfolio}
    {prepared : PreparedOrder} {levels : List CanonicalLevel}
    (h : PlanSound request portfolio prepared.toPlannedOrder levels) :
    prepared.filledUnits ≤ prepared.requestedUnits request := by
  unfold PreparedOrder.requestedUnits
  cases hunits : request.contractUnits with
  | none => exact le_refl _
  | some units => exact h.asked units hunits

/-- An order that accounting refuses is rejected. -/
theorem finish_rejects {request : OrderRequest} {arguments : ExecutionArguments}
    {context : MarketContext} {prepared : PreparedOrder}
    (h : broker.Prepares request arguments context prepared.toPlannedOrder)
    (haware : arguments.now.isAware = true) (hcreated : request.createdAt ≤ arguments.now.instant)
    (hrefused : ¬ Bookable request arguments.portfolio prepared.toPlannedOrder) :
    ∃ result, finish digests request arguments
      (digests.operationUuid request.agentId request.idempotencyKey) prepared = .ok result := by
  obtain ⟨levels, hsound⟩ := h.plans.sound
  have hoperation := digests.operationUuid_not_isBlank request.agentId request.idempotencyKey
  obtain ⟨fills, hfills, hagree⟩ := brokerFills_isOk digests request arguments.now prepared 0
    hoperation hsound.plansFrom.chargeable hsound.fees
  unfold finish
  simp only [bind, Except.bind, hfills]
  cases hbooked : applyOrderFills arguments.portfolio request fills
      (digests.operationUuid request.agentId request.idempotencyKey) arguments.now with
  | ok booked =>
      exact absurd ((broker.books_iff digests h haware).mp ⟨fills, booked, hfills, hbooked⟩) hrefused
  | error error =>
      simp only [applyOrderFills_raisesOnly _ _ _ _ _ error hbooked, if_true]
      exact rejected_isOk _ _ hoperation hcreated

/-- A bookable order gets a result exactly when it fills all that it asks for. -/
theorem finish_books_iff {request : OrderRequest} {arguments : ExecutionArguments}
    {context : MarketContext} {prepared : PreparedOrder}
    (h : broker.Prepares request arguments context prepared.toPlannedOrder)
    (haware : arguments.now.isAware = true) (hcreated : request.createdAt ≤ arguments.now.instant)
    (hbookable : Bookable request arguments.portfolio prepared.toPlannedOrder) :
    (∃ result, finish digests request arguments
        (digests.operationUuid request.agentId request.idempotencyKey) prepared = .ok result) ↔
      prepared.filledUnits = prepared.requestedUnits request := by
  obtain ⟨levels, hsound⟩ := h.plans.sound
  have hoperation := digests.operationUuid_not_isBlank request.agentId request.idempotencyKey
  obtain ⟨fills, hfills, hagree⟩ := brokerFills_isOk digests request arguments.now prepared 0
    hoperation hsound.plansFrom.chargeable hsound.fees
  obtain ⟨fills', ⟨after, entry, accounting⟩, hfills', hbooked⟩ :=
    (broker.books_iff digests h haware).mpr hbookable
  rw [hfills, Except.ok.injEq] at hfills'
  subst hfills'
  obtain ⟨best, htaken⟩ := hsound.haircut
  obtain ⟨audit, haudit⟩ := htaken.afterFills_isOk hsound.plansFrom hsound.filledUnits_le
  have hfilled : prepared.filledUnits = (fills.map fun fill => fill.contractUnits).sum := by
    rw [hagree.units]
    rfl
  have hpositive : 0 < prepared.filledUnits := by
    rw [hfilled]
    refine sum_contractUnits_pos fun hnil => hbookable.fills ?_
    rw [← List.map_eq_nil_iff, ← hagree.units, hnil, List.map_nil]
  have hfee : 0 ≤ feeTotal prepared.calculations :=
    List.sum_nonneg fun fee hmem => by
      obtain ⟨calculation, hcalculation, rfl⟩ := List.mem_map.mp hmem
      exact (hsound.calculations_nonneg calculation hcalculation).2
  unfold finish
  simp only [bind, Except.bind, hfills, hbooked, haudit]
  constructor
  · rintro ⟨result, hresult⟩
    have haccounts := result.accounts
    rw [OrderResult.make_eq_ok_iff.mp hresult] at haccounts
    cases hamount : request.amountType with
    | cash => simp [PreparedOrder.requestedUnits, OrderRequest.contractUnits, hamount]
    | contracts =>
        -- What is left is counted as remaining and as cancelled.
        have hconserved := haccounts.conserved hamount
        simp only at hconserved
        omega
  · intro hall
    refine ⟨_, OrderResult.make_eq_ok (OrderResult.postInit_eq_ok_iff.mpr ?_)⟩
    rw [← hall, sub_self, max_self]
    constructor
    case operation => exact hoperation
    case requested_nonneg => exact hpositive.le
    case filled_nonneg => exact hpositive.le
    case remaining_nonneg => exact le_refl 0
    case cancelled_nonneg => exact le_refl 0
    case requested =>
      intro hcontracts
      simp only
      rw [hall, PreparedOrder.requestedUnits, OrderRequest.contractUnits_of_contracts hcontracts,
        Option.getD_some]
    case conserved => exact fun _ => by simp
    case filled => exact hfilled
    case fee_nonneg => exact hfee
    case net => rfl
    case complete => exact fun _ _ => rfl
    case partly => exact fun _ => hpositive
    case refused => simp
    case ordered => exact hcreated

/-! ## An execution -/

/-- The order gets to its fills, accounting takes them, and they are fewer units than
it asks for. -/
def FillsPartly (request : OrderRequest) (arguments : ExecutionArguments)
    (context : MarketContext) : Prop :=
  ∃ order, broker.Prepares request arguments context order ∧
    Bookable request arguments.portfolio order ∧
    ∃ units ∈ request.contractUnits, plannedUnits order.planned < units

/-- On a context, an order gets a result unless it is measured by a negative account
value or fills partly. -/
theorem executeContext_isOk_iff {request : OrderRequest} {arguments : ExecutionArguments}
    {context : MarketContext} (haware : arguments.now.isAware = true)
    (hcreated : request.createdAt ≤ arguments.now.instant) :
    (∃ result, broker.executeContext digests request arguments context
        (digests.operationUuid request.agentId request.idempotencyKey) = .ok result) ↔
      ¬ (broker.MeasuredBelowZero request arguments context ∨
        broker.FillsPartly request arguments context) := by
  have hoperation := digests.operationUuid_not_isBlank request.agentId request.idempotencyKey
  have hpartly : ∀ prepared, broker.prepare request arguments context = .ok prepared →
      (broker.FillsPartly request arguments context ↔
        Bookable request arguments.portfolio prepared.toPlannedOrder ∧
          ∃ units ∈ request.contractUnits, plannedUnits prepared.planned < units) := by
    intro prepared hprepared
    constructor
    · rintro ⟨order, hprepares, hrest⟩
      obtain ⟨other, hother, rfl⟩ := broker.exists_prepare_of_prepares hprepares
      rw [hprepared, Except.ok.injEq] at hother
      exact hother ▸ hrest
    · exact fun hrest => ⟨_, broker.prepares_of_prepare hprepared, hrest⟩
  unfold executeContext
  rw [← broker.prepare_raises_iff, not_or]
  cases hprepare : broker.prepare request arguments context with
  | error interruption =>
      have hnever : ¬ broker.FillsPartly request arguments context := by
        rintro ⟨order, hprepares, -⟩
        obtain ⟨prepared, hprepared, -⟩ := broker.exists_prepare_of_prepares hprepares
        rw [hprepare] at hprepared
        cases hprepared
      cases interruption with
      | raised error => simp
      | rejected rejection =>
          simpa [hnever] using rejected_isOk arguments.portfolio rejection hoperation hcreated
  | ok prepared =>
      have hprepares := broker.prepares_of_prepare hprepare
      obtain ⟨levels, hsound⟩ := hprepares.plans.sound
      simp only [reduceCtorEq, exists_false, not_false_eq_true, true_and, hpartly prepared hprepare]
      by_cases hbookable : Bookable request arguments.portfolio prepared.toPlannedOrder
      · rw [broker.finish_books_iff digests hprepares haware hcreated hbookable]
        simp only [hbookable, true_and, PreparedOrder.requestedUnits, PreparedOrder.filledUnits]
        cases hunits : request.contractUnits with
        | none => simp
        | some units =>
            have hle := hsound.asked units hunits
            simp only [Option.getD_some, Option.mem_some_iff, exists_eq_left', not_lt]
            exact ⟨fun h => h.ge, fun h => le_antisymm hle h⟩
      · simpa [hbookable] using broker.finish_rejects digests hprepares haware hcreated hbookable

/-- An order is executed on a context: its key is new, nothing waits for
reconciliation, and it is not kept pending. -/
structure Reaches (state : BrokerState) (request : OrderRequest) (arguments : ExecutionArguments)
    (context : MarketContext) : Prop where
  unknown : state.result (request.agentId, request.idempotencyKey) = none
  unblocked : ¬ (request.agentId ∈ state.blockedAgents ∨
    arguments.portfolio.reconciliationBlocked = true)
  not_pending : arguments.pending = false
  context : arguments.context = some context

/-- An execution raises only where it reaches a context. -/
theorem execute_isOk_iff {state : BrokerState} {request : OrderRequest}
    {arguments : ExecutionArguments} (haware : arguments.now.isAware = true)
    (hcreated : request.createdAt ≤ arguments.now.instant) :
    (∃ result, (broker.execute digests state request arguments).2 = .ok result) ↔
      ¬ ∃ context, Reaches state request arguments context ∧
        (broker.MeasuredBelowZero request arguments context ∨
          broker.FillsPartly request arguments context) := by
  have hoperation := digests.operationUuid_not_isBlank request.agentId request.idempotencyKey
  have hremember : ∀ (key : String × String) (result : Except Raised OrderResult),
      (state.remember key result).2 = result := fun key result => by cases result <;> rfl
  have hnever (h : ∀ context, ¬ Reaches state request arguments context) :
      ¬ ∃ context, Reaches state request arguments context ∧
        (broker.MeasuredBelowZero request arguments context ∨
          broker.FillsPartly request arguments context) :=
    fun ⟨context, hreaches, _⟩ => h context hreaches
  unfold execute
  simp only [haware, Bool.true_eq_false, if_false]
  cases hknown : state.result (request.agentId, request.idempotencyKey) with
  | some existing =>
      simp only [hnever fun _ hreaches => by simp [hreaches.unknown] at hknown, not_false_eq_true,
        iff_true]
      split
      · exact ⟨existing, rfl⟩
      · exact rejected_isOk arguments.portfolio _ existing.accounts.operation hcreated
  | none =>
      simp only
      split
      next hblocked =>
        simp only [hnever fun _ hreaches => hreaches.unblocked hblocked, not_false_eq_true,
          iff_true, hremember]
        exact rejected_isOk arguments.portfolio _ hoperation hcreated
      next hunblocked =>
        split
        next context hpending hcontext =>
          rw [hremember, broker.executeContext_isOk_iff digests haware hcreated]
          refine not_congr ⟨fun h => ⟨context, ⟨hknown, hunblocked, hpending, hcontext⟩, h⟩, ?_⟩
          rintro ⟨context', hreaches, h⟩
          obtain rfl := Option.some.inj (hcontext.symm.trans hreaches.context)
          exact h
        next hother =>
          simp only [hnever fun context hreaches => hother context hreaches.not_pending
            hreaches.context, not_false_eq_true, iff_true]
          obtain ⟨result, hresult⟩ := pendingResult_isOk arguments.portfolio
            arguments.frozenContextId hoperation hcreated
          exact ⟨result, by rw [hresult]⟩

/-! ## Runs of a broker -/

/-- The states that executions and reconciliations lead to. -/
inductive Reachable : BrokerState → Prop
  | empty : Reachable .empty
  | execute {state : BrokerState} (h : Reachable state) (request : OrderRequest)
      (arguments : ExecutionArguments) :
      Reachable (broker.execute digests state request arguments).1
  | reconcile {state : BrokerState} (h : Reachable state) (operationId : String)
      (reconciliation : ReconciliationState) :
      Reachable (reconcile state operationId reconciliation).1

/-- Every remembered result fills nothing or everything. -/
def AllResultsWhole (state : BrokerState) : Prop := ∀ row ∈ state.results, row.2.AllOrNothing

theorem AllResultsWhole.remember {state : BrokerState} (h : AllResultsWhole state)
    {key : String × String} {result : Except Raised OrderResult}
    (hresult : ∀ value, result = .ok value → value.AllOrNothing) :
    AllResultsWhole (state.remember key result).1 := by
  cases result with
  | error error => exact h
  | ok value =>
      intro row hmem
      rcases KeyedList.mem_upsert hmem with rfl | hmem
      · exact hresult value rfl
      · exact h row hmem

theorem AllResultsWhole.result {state : BrokerState} (h : AllResultsWhole state)
    {key : String × String} {existing : OrderResult} (hexisting : state.result key = some existing) :
    existing.AllOrNothing := by
  obtain ⟨row, hrow, rfl⟩ := Option.map_eq_some_iff.mp hexisting
  exact h row (KeyedList.mem_of_lookup_eq_some hrow)

theorem executeContext_allOrNothing {request : OrderRequest} {arguments : ExecutionArguments}
    {context : MarketContext} {operationId : String} {result : OrderResult}
    (h : broker.executeContext digests request arguments context operationId = .ok result) :
    result.AllOrNothing := by
  unfold executeContext at h
  split at h
  · exact rejected_allOrNothing h
  · cases h
  · exact finish_allOrNothing digests h

/-- An execution keeps that results are whole, and gives a whole one. -/
theorem AllResultsWhole.execute {state : BrokerState} (h : AllResultsWhole state)
    (request : OrderRequest) (arguments : ExecutionArguments) :
    AllResultsWhole (broker.execute digests state request arguments).1 ∧
      ∀ result, (broker.execute digests state request arguments).2 = .ok result →
        result.AllOrNothing := by
  have hremember {key : String × String} {result : Except Raised OrderResult}
      (hresult : ∀ value, result = .ok value → value.AllOrNothing) :
      AllResultsWhole (state.remember key result).1 ∧
        ∀ value, (state.remember key result).2 = .ok value → value.AllOrNothing := by
    refine ⟨h.remember hresult, fun value hvalue => hresult value ?_⟩
    cases result <;> exact hvalue
  unfold BinaryPaperBroker.execute
  simp only
  split
  · exact ⟨h, fun result hresult => by cases hresult⟩
  · split
    next existing hexisting =>
      split
      · exact ⟨h, fun result hresult => Except.ok.inj hresult ▸ h.result hexisting⟩
      · exact ⟨h, fun result hresult => rejected_allOrNothing hresult⟩
    next =>
      split
      · exact hremember fun value hvalue => rejected_allOrNothing hvalue
      · split
        · exact hremember fun value hvalue => broker.executeContext_allOrNothing digests hvalue
        · split
          next result hpending =>
            have hwhole := pendingResult_allOrNothing hpending
            refine ⟨(hremember fun value hvalue => ?_).1, fun value hvalue => ?_⟩
            · exact Except.ok.inj hvalue ▸ hwhole
            · exact Except.ok.inj hvalue ▸ hwhole
          next => exact ⟨h, fun result hresult => by cases hresult⟩

/-- Reconciliation leaves the units of a result as they are. -/
theorem AllResultsWhole.reconcile {state : BrokerState} (h : AllResultsWhole state)
    (operationId : String) (reconciliation : ReconciliationState) :
    AllResultsWhole (reconcile state operationId reconciliation).1 := by
  unfold BinaryPaperBroker.reconcile
  split
  · exact h
  next key target hfound =>
    have htarget := h _ (List.mem_of_find?_eq_some hfound)
    simp only at htarget
    simp only
    have hwhole {fields : OrderResultFields} (hfilled : fields.filledUnits = target.filledUnits)
        (hrequested : fields.requestedUnits = target.requestedUnits) :
        ∀ value, OrderResult.make fields = .ok value → value.AllOrNothing := by
      intro value hvalue
      unfold OrderResultFields.AllOrNothing at htarget ⊢
      rw [OrderResult.make_eq_ok_iff.mp hvalue, hfilled, hrequested]
      exact htarget
    split
    · refine @AllResultsWhole.remember (state.block target.request.agentId) h _ _ ?_
      exact hwhole rfl rfl
    · refine @AllResultsWhole.remember
        { state with blockedAgents := state.blockedAgents.erase target.request.agentId } h _ _ ?_
      exact hwhole rfl rfl
    · exact h.remember (hwhole rfl rfl)

theorem Reachable.allResultsWhole {state : BrokerState} (h : broker.Reachable digests state) :
    AllResultsWhole state := by
  induction h with
  | empty => exact fun row hmem => by cases hmem
  | execute _ request arguments ih => exact (ih.execute broker digests request arguments).1
  | reconcile _ operationId reconciliation ih => exact ih.reconcile operationId reconciliation

/-- An execution returns a result, and one that accounts for a partial fill, unless
the order fills partly or is measured by a negative account value. -/
theorem execute_accounts_iff {state : BrokerState} (h : broker.Reachable digests state)
    {request : OrderRequest} {arguments : ExecutionArguments}
    (haware : arguments.now.isAware = true) (hcreated : request.createdAt ≤ arguments.now.instant) :
    (∃ result, (broker.execute digests state request arguments).2 = .ok result ∧
      (0 < result.filledUnits → result.filledUnits < result.requestedUnits →
        result.state = .partiallyFilled ∧
          result.filledUnits + result.remainingUnits + result.cancelledUnits =
            result.requestedUnits)) ↔
      ¬ ∃ context, Reaches state request arguments context ∧
        (broker.MeasuredBelowZero request arguments context ∨
          broker.FillsPartly request arguments context) := by
  rw [← broker.execute_isOk_iff digests haware hcreated]
  refine exists_congr fun result => and_iff_left_of_imp fun hresult hpositive hless => ?_
  rcases (h.allResultsWhole.execute broker digests request arguments).2 result hresult with
    hnothing | heverything
  · omega
  · omega

end BinaryPaperBroker

/-- An order for all that the haircut leaves of the book does not fill partly. -/
theorem execute_accounts_purchase :
    ¬ ∃ context, BinaryPaperBroker.Reaches .empty Sample.purchase
        (Sample.arguments Sample.portfolio false) context ∧
      (Sample.broker.MeasuredBelowZero Sample.purchase (Sample.arguments Sample.portfolio false)
          context ∨
        Sample.broker.FillsPartly Sample.purchase (Sample.arguments Sample.portfolio false)
          context) := by
  obtain ⟨result, hresult, htest⟩ := Checks.exists_ok_of_any
    (Sample.broker.execute Sample.digests .empty Sample.purchase
      (Sample.arguments Sample.portfolio false)).2
    (fun result => result.filledUnits = result.requestedUnits) (by decide +kernel)
  refine (Sample.broker.execute_accounts_iff Sample.digests .empty rfl (le_refl _)).mp
    ⟨result, hresult, fun _ hless => ?_⟩
  exact absurd (of_decide_eq_true htest) hless.ne

set_option maxRecDepth 10000 in
/-- An order for more than the haircut leaves of the book raises. -/
theorem execute_partial_raises :
    Sample.moment.isAware = true ∧ Sample.oversized.createdAt ≤ Sample.moment.instant ∧
      Sample.oversized.amountType = .contracts ∧ Sample.oversized.timeInForce = .ioc ∧
      (Sample.broker.execute Sample.digests .empty Sample.oversized
        (Sample.arguments Sample.portfolio false)).2 =
        .error (.valueError "order quantity accounting is not conserved") :=
  ⟨rfl, le_refl _, rfl, rfl, Checks.eq_error_of_raises (by decide +kernel)⟩

end VTrade
