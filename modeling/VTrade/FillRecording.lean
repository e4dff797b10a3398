/-
# Recording fills

The fills that the broker makes of an order meet every check of the tables: their
fees add up, they are numbered, and what is moved is what they cost or bring.  The
audit of the haircut does not.  The haircut takes any side of a book from two levels
on, and the table of audits only an audit of six.

So the fills of an order are recorded exactly when the side it was executed against
has six levels, whichever answer of the broker they come with.
-/

import VTrade.BrokerRuns
import VTrade.Transactions

namespace VTrade

/-! ## The fills of a broker -/

/-- A plan takes no more fills than there are levels. -/
theorem PlansFrom.length_le {index : ℕ} {planned : List PlannedFill}
    {levels : List CanonicalLevel} (h : PlansFrom index planned levels) :
    planned.length ≤ levels.length := by
  induction h with
  | done => exact Nat.zero_le _
  | skip _ ih => exact ih.trans (Nat.le_succ _)
  | take _ _ _ _ _ ih => exact Nat.succ_le_succ ih

theorem calculatePlanned_netFee {request : OrderRequest} {policy : FeePolicySnapshot}
    {planned : List PlannedFill} {calculations : List FeeCalculation}
    (h : calculatePlanned request policy planned = .ok calculations) :
    ∀ calculation ∈ calculations, calculation.netFeeMicros =
      calculation.tradeFeeMicros + calculation.roundingFeeMicros - calculation.rebateMicros :=
  ExactFeeCalculator.calculateFills_netFee h

theorem fitCashBudget_netFee {request : OrderRequest} {portfolio : ContractPortfolio}
    {planned items : List PlannedFill} {policy : FeePolicySnapshot}
    {calculations : List FeeCalculation}
    (h : fitCashBudget request portfolio planned policy = .ok (items, calculations)) :
    ∀ calculation ∈ calculations, calculation.netFeeMicros =
      calculation.tradeFeeMicros + calculation.roundingFeeMicros - calculation.rebateMicros := by
  obtain ⟨first, hfirst, h⟩ := Checks.bind_eq_ok.mp h
  split at h
  · cases h
    exact calculatePlanned_netFee hfirst
  · obtain ⟨trimmed, -, h⟩ := Checks.bind_eq_ok.mp h
    obtain ⟨last, hlast, h⟩ := Checks.bind_eq_ok.mp h
    cases h
    exact calculatePlanned_netFee hlast

namespace BinaryPaperBroker

/-- A fill of the broker is one of a planned item and its calculation. -/
theorem brokerFills_getElem {digests : Digests} {request : OrderRequest} {now : Datetime}
    {operationId : String} {prepared : PreparedOrder} {index : ℕ} {planned : List PlannedFill}
    {calculations : List FeeCalculation} {fills : List EconomicFill}
    (h : brokerFills digests request now operationId prepared index planned calculations =
      .ok fills) {position : ℕ} {fill : EconomicFill} (hfill : fills[position]? = some fill) :
    ∃ item calculation, planned[position]? = some item ∧
      calculations[position]? = some calculation ∧ fill.toEconomicFillFields =
        fillFields request now operationId prepared (index + position) item calculation := by
  induction planned generalizing index calculations fills position with
  | nil =>
      cases calculations with
      | nil =>
          cases h
          cases hfill
      | cons _ _ => cases h
  | cons item planned ih =>
      cases calculations with
      | nil => cases h
      | cons calculation calculations =>
          obtain ⟨first, hfirst, h⟩ := Checks.bind_eq_ok.mp h
          obtain ⟨later, hlater, h⟩ := Checks.bind_eq_ok.mp h
          cases h
          cases position with
          | zero =>
              cases hfill
              exact ⟨item, calculation, rfl, rfl, by
                obtain ⟨_, hmade⟩ := Checks.build_eq_ok_iff.mp hfirst
                rw [← hmade]
                rfl⟩
          | succ position =>
              obtain ⟨item', calculation', hitem, hcalculation, hfields⟩ := ih hlater hfill
              refine ⟨item', calculation', hitem, hcalculation, ?_⟩
              rw [hfields, Nat.add_right_comm, Nat.add_assoc]

theorem brokerFills_length {digests : Digests} {request : OrderRequest} {now : Datetime}
    {operationId : String} {prepared : PreparedOrder} {index : ℕ} {planned : List PlannedFill}
    {calculations : List FeeCalculation} {fills : List EconomicFill}
    (h : brokerFills digests request now operationId prepared index planned calculations =
      .ok fills) : fills.length = planned.length := by
  induction planned generalizing index calculations fills with
  | nil =>
      cases calculations with
      | nil =>
          cases h
          rfl
      | cons _ _ => cases h
  | cons item planned ih =>
      cases calculations with
      | nil => cases h
      | cons calculation calculations =>
          obtain ⟨first, -, h⟩ := Checks.bind_eq_ok.mp h
          obtain ⟨later, hlater, h⟩ := Checks.bind_eq_ok.mp h
          cases h
          rw [List.length_cons, ih hlater, List.length_cons]

end BinaryPaperBroker

/-- A result with fills that the broker has made of an order on a context. -/
structure OrderResultFields.MadeOn (broker : BinaryPaperBroker) (digests : Digests)
    (request : OrderRequest) (arguments : ExecutionArguments) (context : MarketContext)
    (prepared : PreparedOrder) (result : OrderResultFields) : Prop where
  request_eq : result.request = request
  operationId_eq : result.operationId =
    digests.operationUuid request.agentId request.idempotencyKey
  prepares : broker.Prepares request arguments context prepared.toPlannedOrder
  fills_made : BinaryPaperBroker.brokerFills digests request arguments.now result.operationId
    prepared 0 prepared.planned prepared.calculations = .ok result.fills
  calculations_eq : result.feeCalculations = prepared.calculations
  executionContextId_eq : result.executionContextId = some prepared.executionContextId
  audited : ∃ audit, prepared.haircut.afterFills (consumedByLevel prepared.planned)
      (prepared.requestedUnits request) = .ok audit ∧ result.liquidityAudit = some audit

namespace BinaryPaperBroker

variable (broker : BinaryPaperBroker) (digests : Digests)

theorem executeContext_madeOn {request : OrderRequest} {arguments : ExecutionArguments}
    {context : MarketContext} {result : OrderResult}
    (h : broker.executeContext digests request arguments context
      (digests.operationUuid request.agentId request.idempotencyKey) = .ok result)
    (hfills : result.fills ≠ []) :
    ∃ prepared, result.MadeOn broker digests request arguments context prepared := by
  have hrejected {rejection : Rejection} (h : rejected request arguments.portfolio arguments.now
      (digests.operationUuid request.agentId request.idempotencyKey) rejection = .ok result) :
      result.fills = [] := by
    rw [OrderResult.make_eq_ok_iff.mp h]
  unfold executeContext at h
  split at h
  · exact absurd (hrejected h) hfills
  · cases h
  next prepared hprepared =>
    obtain ⟨fills, hmade, h⟩ := Checks.bind_eq_ok.mp h
    split at h
    · split at h
      · exact absurd (hrejected h) hfills
      · cases h
    · obtain ⟨audit, haudit, h⟩ := Checks.bind_eq_ok.mp h
      have hfields := OrderResult.make_eq_ok_iff.mp h
      rw [hfields]
      exact ⟨prepared, rfl, rfl, broker.prepares_of_prepare hprepared, hmade, rfl, rfl, audit,
        haudit, rfl⟩

/-- The result with fills of an order that is new is made on the context given. -/
theorem execute_madeOn {state : BrokerState} {request : OrderRequest}
    {arguments : ExecutionArguments} {result : OrderResult}
    (hnew : state.result (request.agentId, request.idempotencyKey) = none)
    (h : (broker.execute digests state request arguments).2 = .ok result)
    (hfills : result.fills ≠ []) :
    ∃ context prepared, arguments.context = some context ∧
      result.MadeOn broker digests request arguments context prepared := by
  unfold execute at h
  simp only [hnew] at h
  split at h
  · cases h
  · split at h
    · rw [BrokerState.remember_snd] at h
      rw [OrderResult.make_eq_ok_iff.mp h] at hfills
      exact absurd rfl hfills
    · split at h
      next context _ hcontext =>
        rw [BrokerState.remember_snd] at h
        obtain ⟨prepared, hmade⟩ := broker.executeContext_madeOn digests h hfills
        exact ⟨context, prepared, hcontext, hmade⟩
      · split at h
        next pending hpending =>
          cases h
          rw [OrderResult.make_eq_ok_iff.mp hpending] at hfills
          exact absurd rfl hfills
        next => cases h

end BinaryPaperBroker

/-- A reconciliation leaves the fills as they were made. -/
theorem OrderResultFields.MadeOn.reconciled {broker : BinaryPaperBroker} {digests : Digests}
    {request : OrderRequest} {arguments : ExecutionArguments} {context : MarketContext}
    {prepared : PreparedOrder} {result : OrderResultFields}
    (h : result.MadeOn broker digests request arguments context prepared)
    (reconciliation : ReconciliationState) :
    (result.reconciled reconciliation).MadeOn broker digests request arguments context
      prepared := by
  cases reconciliation <;>
    exact ⟨h.request_eq, h.operationId_eq, h.prepares, h.fills_made, h.calculations_eq,
      h.executionContextId_eq, h.audited⟩

namespace BinaryPaperBroker

variable (broker : BinaryPaperBroker) (digests : Digests)

/-- A result has no fills, or an execution among the calls has made it. -/
def MadeAmong (calls : List BrokerCall) (result : OrderResultFields) : Prop :=
  result.fills ≠ [] → ∃ request arguments context prepared,
    BrokerCall.execute request arguments ∈ calls ∧ arguments.context = some context ∧
      result.MadeOn broker digests request arguments context prepared

theorem MadeAmong.mono {calls later : List BrokerCall} {result : OrderResultFields}
    (h : MadeAmong broker digests calls result) (hcalls : calls ⊆ later) :
    MadeAmong broker digests later result := by
  intro hfills
  obtain ⟨request, arguments, context, prepared, hmem, hmade⟩ := h hfills
  exact ⟨request, arguments, context, prepared, hcalls hmem, hmade⟩

/-- The results that a broker holds and those it has answered with are made by
executions that it was asked for. -/
structure MadeInvariant (seen : List (BrokerCall × Except Raised OrderResult))
    (state : BrokerState) : Prop where
  run : RunInvariant seen state
  held : ∀ row ∈ state.results,
    MadeAmong broker digests (seen.map Prod.fst) row.2.toOrderResultFields
  answered : ∀ call result, (call, Except.ok result) ∈ seen →
    MadeAmong broker digests (seen.map Prod.fst) result.toOrderResultFields

/-- A call keeps the invariant when what it answers with, and what it stores, is made
among the calls. -/
theorem MadeInvariant.extend {seen : List (BrokerCall × Except Raised OrderResult)}
    {state next : BrokerState} {call : BrokerCall} {answer : Except Raised OrderResult}
    (h : MadeInvariant broker digests seen state)
    (hrun : RunInvariant (seen ++ [(call, answer)]) next)
    (hanswer : ∀ result, answer = .ok result →
      MadeAmong broker digests ((seen ++ [(call, answer)]).map Prod.fst)
        result.toOrderResultFields)
    (hheld : ∀ row ∈ next.results, row ∈ state.results ∨ answer = .ok row.2) :
    MadeInvariant broker digests (seen ++ [(call, answer)]) next := by
  have hsubset : seen.map Prod.fst ⊆ (seen ++ [(call, answer)]).map Prod.fst := by
    rw [List.map_append]
    exact List.subset_append_left _ _
  refine ⟨hrun, fun row hmem => ?_, fun call' result hmem => ?_⟩
  · rcases hheld row hmem with hold | hnew
    · exact (h.held row hold).mono broker digests hsubset
    · exact hanswer row.2 hnew
  · rcases List.mem_append.mp hmem with hold | hnew
    · exact (h.answered call' result hold).mono broker digests hsubset
    · obtain ⟨rfl, hok⟩ := Prod.mk.inj (List.mem_singleton.mp hnew)
      exact hanswer result hok.symm

/-- Every call keeps the invariant. -/
theorem MadeInvariant.call {seen : List (BrokerCall × Except Raised OrderResult)}
    {state : BrokerState} (h : MadeInvariant broker digests seen state) (next : BrokerCall) :
    MadeInvariant broker digests (seen ++ [(next, (broker.call digests state next).2)])
      (broker.call digests state next).1 := by
  refine h.extend broker digests (h.run.call broker digests next) (fun result hok => ?_)
    (fun row hmem => ?_)
  · cases next with
    | execute request arguments =>
        change (broker.execute digests state request arguments).2 = .ok result at hok
        cases hknown : state.result (request.agentId, request.idempotencyKey) with
        | none =>
            intro hfills
            obtain ⟨context, prepared, hcontext, hmade⟩ :=
              broker.execute_madeOn digests hknown hok hfills
            exact ⟨request, arguments, context, prepared, by simp, hcontext, hmade⟩
        | some existing =>
            obtain ⟨-, hcase⟩ := broker.execute_known digests arguments hknown
            rcases hcase with ⟨-, error, herror⟩ | ⟨-, -, hsame⟩ | ⟨-, -, hrejected⟩
            · rw [herror] at hok
              cases hok
            · rw [hsame] at hok
              cases hok
              obtain ⟨row, hrow, rfl⟩ := BrokerState.exists_mem_of_result hknown
              exact (h.held row hrow).mono broker digests
                (by rw [List.map_append]; exact List.subset_append_left _ _)
            · rw [hrejected] at hok
              exact fun hfills => absurd (conflicts_of_rejected hok).fills hfills
    | reconcile operationId reconciliation =>
        change (reconcile state operationId reconciliation).2 = .ok result at hok
        rcases reconcile_cases h.run.whole operationId reconciliation with
          ⟨-, -, error, herror⟩ | ⟨target, updated, htarget, hupdated, hfields, -⟩
        · rw [herror] at hok
          cases hok
        · rw [hupdated] at hok
          cases hok
          obtain ⟨row, hrow, rfl⟩ := BrokerState.exists_mem_of_target htarget
          intro hfills
          rw [hfields, OrderResultFields.reconciled_fills] at hfills
          obtain ⟨request, arguments, context, prepared, hmem, hcontext, hmade⟩ :=
            h.held row hrow hfills
          refine ⟨request, arguments, context, prepared, ?_, hcontext, ?_⟩
          · rw [List.map_append]
            exact List.mem_append_left _ hmem
          · rw [hfields]
            exact hmade.reconciled reconciliation
  · cases next with
    | execute request arguments =>
        change row ∈ (broker.execute digests state request arguments).1.results at hmem
        cases hknown : state.result (request.agentId, request.idempotencyKey) with
        | none =>
            rcases broker.execute_new digests arguments hknown with
              ⟨hstate, -⟩ | ⟨result, hok, -, ⟨-, hstate⟩ | ⟨-, hstate⟩⟩
            · rw [hstate] at hmem
              exact Or.inl hmem
            all_goals
              rw [hstate] at hmem
              rcases KeyedList.mem_upsert hmem with rfl | hold
              · exact Or.inr hok
              · exact Or.inl hold
        | some existing =>
            rw [(broker.execute_known digests arguments hknown).1] at hmem
            exact Or.inl hmem
    | reconcile operationId reconciliation =>
        change row ∈ (reconcile state operationId reconciliation).1.results at hmem
        rcases reconcile_cases h.run.whole operationId reconciliation with
          ⟨-, hstate, -⟩ | ⟨target, updated, -, hupdated, -, hstate⟩
        · rw [hstate] at hmem
          exact Or.inl hmem
        · rw [hstate] at hmem
          rcases KeyedList.mem_upsert hmem with rfl | hold
          · exact Or.inr hupdated
          · exact Or.inl hold

theorem madeInvariant (calls : List BrokerCall) :
    MadeInvariant broker digests (broker.answers digests calls) (broker.after digests calls) :=
  Runs.final_invariant (broker.call digests) (MadeInvariant broker digests)
    ⟨runInvariant_empty, fun row hmem => (by cases hmem), fun _ _ hmem => by cases hmem⟩
    (fun _ _ next h => h.call broker digests next) calls

end BinaryPaperBroker

/-! ## Their rows -/

/-- What a fill of the broker is like, with its calculation. -/
structure EconomicFillFields.ChargedBy (request : OrderRequest) (fill : EconomicFillFields)
    (calculation : FeeCalculation) : Prop where
  fee : fill.feeMicros = calculation.netFeeMicros
  components : calculation.netFeeMicros = calculation.tradeFeeMicros +
    calculation.roundingFeeMicros - calculation.rebateMicros
  netFee_nonneg : 0 ≤ calculation.netFeeMicros
  tradeFee_nonneg : 0 ≤ calculation.tradeFeeMicros
  roundingFee_nonneg : 0 ≤ calculation.roundingFeeMicros
  rebate_nonneg : 0 ≤ calculation.rebateMicros
  net : fill.netCashDeltaMicros = if request.action = .buy then
    -fill.grossCashMicros - fill.feeMicros else fill.grossCashMicros - fill.feeMicros

theorem operationUuid_length (digests : Digests) (agentId idempotencyKey : String) :
    (digests.operationUuid agentId idempotencyKey).toList.length = 32 := by
  rw [Digests.operationUuid, String.toList_ofList, List.length_take,
    (digests.operation agentId idempotencyKey).length_eq]
  rfl

namespace OrderResultFields.MadeOn

variable {broker : BinaryPaperBroker} {digests : Digests} {request : OrderRequest}
  {arguments : ExecutionArguments} {context : MarketContext} {prepared : PreparedOrder}
  {result : OrderResultFields}

/-- A result has no more than five fills. -/
theorem fills_length (h : result.MadeOn broker digests request arguments context prepared) :
    result.fills.length ≤ 5 := by
  obtain ⟨levels, first, hhaircut, hfirst, -, hbudget⟩ := h.prepares.plans.planned
  have hsound := BinaryPaperBroker.planSound hhaircut hfirst hbudget
  obtain ⟨hcounts, heffective⟩ := applyBestLevelHaircut_countsLevels hhaircut
  have hcaptured := hcounts.captured
  have hleft := hcounts.effective
  have hplanned := hsound.plansFrom.length_le
  rw [BinaryPaperBroker.brokerFills_length h.fills_made]
  omega

/-- A fill has its number, and a calculation that is kept with it. -/
theorem fill_charged (h : result.MadeOn broker digests request arguments context prepared)
    {fill : EconomicFill} {index : ℕ} (hmem : (fill, index) ∈ result.fills.zipIdx) :
    fill.fillId = result.operationId ++ ":" ++ toString index ∧ index < 5 ∧
      fill.executionContextId = result.executionContextId ∧
      fill.frozenContextId = some prepared.frozenContextId ∧
      ∃ calculation, result.feeCalculations[index]? = some calculation ∧
        fill.ChargedBy request calculation := by
  have hindex := List.mem_zipIdx_iff_getElem?.mp hmem
  obtain ⟨item, calculation, hitem, hcalculation, hfields⟩ :=
    BinaryPaperBroker.brokerFills_getElem h.fills_made hindex
  obtain ⟨levels, first, hhaircut, hfirst, -, hbudget⟩ := h.prepares.plans.planned
  have hsound := BinaryPaperBroker.planSound hhaircut hfirst hbudget
  have hfee : FeeSound item.contractUnits item.priceMicros calculation := by
    obtain ⟨hitem', rfl⟩ := List.getElem?_eq_some_iff.mp hitem
    obtain ⟨hcalculation', rfl⟩ := List.getElem?_eq_some_iff.mp hcalculation
    exact (List.forall₂_iff_get.mp hsound.fees).2 index hitem' hcalculation'
  have hnet := fitCashBudget_netFee hbudget calculation (List.mem_of_getElem? hcalculation)
  obtain ⟨hlt, -⟩ := List.getElem?_eq_some_iff.mp hindex
  rw [Nat.zero_add] at hfields
  rw [hfields, h.calculations_eq, h.executionContextId_eq]
  refine ⟨rfl, hlt.trans_le h.fills_length, rfl, rfl, calculation, hcalculation, ?_⟩
  exact ⟨rfl, hnet, hfee.netFee_nonneg, hfee.tradeFee_nonneg, hfee.roundingFee_nonneg,
    hfee.rebate_nonneg, rfl⟩

end OrderResultFields.MadeOn

/-- The guard of fees takes a row that is charged under the policy of its context. -/
theorem FillRow.guardFeePolicy_isOk {operation : OperationRow} {tables : EvidenceTables}
    {row : FillRow} {executionContextId policyId : String} {policy : FeePolicyRow}
    {context : ExecutionContextRow}
    (hpolicyId : row.feePolicySnapshotId = some policyId)
    (hpolicy : tables.feePolicy policyId = some policy)
    (hmarket : policy.marketId = operation.marketOutcome.1)
    (hcontextId : row.executionContextId = some executionContextId)
    (hcontext : tables.executionContext executionContextId = some context)
    (hsame : context.feePolicySnapshotId = some policyId)
    (hcomponents : row.authoritativeFeeMicros =
      row.tradeFeeMicros + row.roundingFeeMicros - row.rebateMicros)
    (hnonneg : 0 ≤ row.authoritativeFeeMicros) :
    row.guardFeePolicy operation tables = .ok () := by
  unfold guardFeePolicy
  rw [hpolicyId]
  simp only [hpolicy, hcontextId, hcontext, hsame, Option.all_some, Option.bind_some,
    Checks.raiseFirst_cons_eq_ok, Checks.raiseFirst_nil, decide_eq_false_iff_not, and_true]
  rintro (hother | ⟨-, hother⟩ | hother | hother)
  · exact absurd hmarket (of_decide_eq_true hother)
  · exact hother rfl
  · omega
  · exact hother hcomponents

namespace FillRow

/-- The row of a fill that is charged by its calculation passes the checks. -/
theorem check_fillRow {request : OrderRequest} {fill : EconomicFill}
    {calculation : FeeCalculation} (h : fill.ChargedBy request calculation)
    (result : OrderResultFields) (operationId policyId : String)
    (hlength : fill.fillId.toList.length ≤ 512) (hcontext : fill.executionContextId.isSome) :
    (fillRow result operationId (some policyId) fill (some calculation)).check request.action =
      .ok () := by
  obtain ⟨hid, hunits, hprice, ⟨hgross, hfee⟩, -⟩ := EconomicFill.postInit_eq_ok_iff.mp fill.valid
  have hnonempty := Text.ne_empty_of_not_isBlank hid
  have hnet := h.net
  have htrade := h.tradeFee_nonneg
  have hrounding := h.roundingFee_nonneg
  have hrebate := h.rebate_nonneg
  simp only [check, Checks.raiseFirst_cons_eq_ok, Checks.raiseFirst_nil,
    decide_eq_false_iff_not, and_true]
  simp only [fillRow, Option.elim_some]
  refine ⟨?_, ?_, ?_, by omega, by simp [hprice], by omega, by omega, by omega, ?_⟩
  · rintro ⟨haction, hother⟩
    rw [if_pos haction] at hnet
    omega
  · rintro ⟨haction, hother⟩
    rw [if_neg (by rw [haction]; decide)] at hnet
    exact hother hnet
  · rintro (hempty | hlong)
    · exact hnonempty hempty
    · omega
  · rintro ⟨-, hnone⟩
    rw [hnone] at hcontext
    cases hcontext

end FillRow

/-- Rows that pass their checks, and do not clash, are inserted one after the other. -/
theorem Database.insertFill_all {operation : OperationRow} {row : EconomicFill → ℕ → FillRow}
    {items : List (EconomicFill × ℕ)} {db : Database}
    (hoperation : ∀ item ∈ items,
      db.operations.find? (fun other => other.id = (row item.1 item.2).operationId) =
        some operation)
    (hsound : ∀ item ∈ items, checkFillContexts item.1.toEconomicFillFields = .ok () ∧
      (row item.1 item.2).guardFeePolicy operation db.evidence = .ok () ∧
      (row item.1 item.2).check operation.orderSide = .ok ())
    (hpairwise : items.Pairwise fun first second =>
      (row first.1 first.2).clashes (row second.1 second.2) = false)
    (hnew : ∀ item ∈ items, ∀ other ∈ db.fills, other.clashes (row item.1 item.2) = false) :
    items.foldlM (fun (db : Database) (item : EconomicFill × ℕ) => do
        checkFillContexts item.1.toEconomicFillFields
        db.insertFill (row item.1 item.2)) db =
      .ok { db with fills := db.fills ++ items.map fun item => row item.1 item.2 } := by
  induction items generalizing db with
  | nil =>
      rw [List.map_nil, List.append_nil]
      rfl
  | cons item rest ih =>
      rw [List.forall_mem_cons] at hoperation hsound hnew
      rw [List.pairwise_cons] at hpairwise
      obtain ⟨⟨hcontexts, hguard, hcheck⟩, hsound⟩ := hsound
      have hinserted : db.insertFill (row item.1 item.2) =
          .ok { db with fills := db.fills ++ [row item.1 item.2] } := by
        have hunique : db.fills.any (fun other => other.clashes (row item.1 item.2)) = false := by
          rw [List.any_eq_false]
          intro other hmem
          rw [hnew.1 other hmem]
          decide
        unfold insertFill
        rw [hoperation.1]
        simp only [bind, Except.bind, hguard, hcheck, hunique, Bool.false_eq_true, if_false]
      have hrest := @ih { db with fills := db.fills ++ [row item.1 item.2] } hoperation.2 hsound
        hpairwise.2 fun other hmem earlier hearlier => by
          rcases List.mem_append.mp hearlier with hold | hfirst
          · exact hnew.2 other hmem earlier hold
          · rw [List.mem_singleton.mp hfirst]
            exact hpairwise.1 other hmem
      rw [Checks.foldlM_cons_eq_ok]
      refine ⟨_, Checks.bind_eq_ok.mpr ⟨(), hcontexts, hinserted⟩, ?_⟩
      rw [hrest, List.map_cons, List.append_assoc, List.singleton_append]

theorem EvidenceTables.insertHaircutAudit_isOk (tables : EvidenceTables) {row : HaircutAuditRow}
    (h : row.check = .ok ()) : ∃ written, tables.insertHaircutAudit row = .ok written := by
  unfold insertHaircutAudit
  simp only [h, bind, Except.bind]
  split
  · exact ⟨_, rfl⟩
  · exact ⟨_, rfl⟩

/-- The audit of a haircut is taken when it is one of six levels. -/
theorem HaircutAuditFields.CountsLevels.check_haircutAuditRow {audit : HaircutAudit}
    {side : List CanonicalLevel} (h : audit.CountsLevels side) (snapshotId : String) :
    (haircutAuditRow audit.toHaircutAuditFields snapshotId).check =
      if 6 ≤ side.length then .ok ()
      else .error (.databaseError "liquidity_haircut_audits_captured_raw_levels_check") := by
  obtain ⟨hversion, -, hignored, heffective, hconsumed, hcancelled, hremaining, htotal, hleft, -⟩ :=
    HaircutAudit.postInit_eq_ok_iff.mp audit.valid
  have hcaptured := h.captured
  have hcount := h.effective
  have hretained := h.retained
  have hrule : (haircutAuditRow audit.toHaircutAuditFields snapshotId).ruleVersion =
      "best-level-haircut-v1" := hversion
  split
  next hdeep =>
    simp only [HaircutAuditRow.check, Checks.raiseFirst_cons_eq_ok, Checks.raiseFirst_nil,
      decide_eq_false_iff_not, and_true]
    simp only [haircutAuditRow]
    refine ⟨not_not.mpr hrule, ?_, ?_, ?_, ?_, ?_, ?_⟩
    all_goals omega
  next hshallow =>
    have hother : (haircutAuditRow audit.toHaircutAuditFields snapshotId).capturedRawLevels ≠
        6 := by
      simp only [haircutAuditRow]
      omega
    simp only [HaircutAuditRow.check, hrule, ne_eq, not_true_eq_false, decide_false, hother,
      not_false_eq_true, decide_true, Checks.raiseFirst]
    rfl

/-! ## Recording them -/

/-- What an order with fills is recorded with: a fee policy, identifiers that nothing is
recorded under, and digests that tell its fills apart. -/
structure Database.RecordsFirst (db : Database) (result : OrderResultFields)
    (operationId : String) (evidence : OrderEvidence) : Prop where
  policy : evidence.feePolicy.isSome
  context : ∀ id ∈ result.executionContextId, db.evidence.executionContext id = none
  frozen : ∀ fill ∈ result.fills, ∀ id ∈ fill.frozenContextId, isUuid id = true
  distinct : (result.fills.map fun fill => fill.fingerprint).Nodup
  unrecorded : ∀ row ∈ db.fills, row.operationId ≠ operationId ∧
    ∀ fill ∈ result.fills, row.id ≠ result.operationId ++ ":" ++ fill.fillId

theorem toString_length_le {index : ℕ} (h : index < 5) : (toString index).toList.length ≤ 1 :=
  (Nat.length_repr_le_iff one_pos).mpr (by omega)

namespace OrderResultFields.MadeOn

variable {broker : BinaryPaperBroker} {digests : Digests} {request : OrderRequest}
  {arguments : ExecutionArguments} {context : MarketContext} {prepared : PreparedOrder}
  {result : OrderResultFields}

/-- The fills of a result have identifiers of their own. -/
theorem fillId_nodup (h : result.MadeOn broker digests request arguments context prepared) :
    (result.fills.map fun fill => fill.fillId).Nodup := by
  have hids : (result.fills.map fun fill => fill.fillId) =
      (List.range result.fills.length).map fun index =>
        result.operationId ++ ":" ++ toString index := by
    refine List.ext_getElem? fun index => ?_
    rw [List.getElem?_map, List.getElem?_map]
    by_cases hindex : index < result.fills.length
    · rw [List.getElem?_eq_getElem hindex, List.getElem?_range hindex]
      have hmem : (result.fills[index], index) ∈ result.fills.zipIdx :=
        List.mem_zipIdx_iff_getElem?.mpr (List.getElem?_eq_getElem hindex)
      rw [Option.map_some, Option.map_some, (h.fill_charged hmem).1]
    · rw [List.getElem?_eq_none (not_lt.mp hindex),
        List.getElem?_eq_none (by rw [List.length_range]; exact not_lt.mp hindex)]
      rfl
  rw [hids]
  refine List.nodup_range.map fun first second hsame => ?_
  have hlist := congrArg String.toList hsame
  simp only [String.toList_append, List.append_cancel_left_eq, Nat.toString_eq_repr,
    Nat.toList_repr] at hlist
  have hdigits := congrArg (fun digits => Nat.ofDigitChars 10 digits 0) hlist
  simpa using hdigits

/-- The fills of a result are inserted, whatever becomes of the audit. -/
theorem inserts_fills (h : result.MadeOn broker digests request arguments context prepared)
    {db reached : Database} {agentId operationId agentCycleId : String}
    {evidence : OrderEvidence} {snapshotId : String}
    (hreached : db.recordOrder digests result agentId operationId agentCycleId evidence =
      .ok (reached, some snapshotId)) (hfirst : db.RecordsFirst result operationId evidence) :
    ∃ filled : Database, filled.evidence = reached.evidence ∧ ∃ policyId,
      reached.persistedFeePolicyId result.request.marketRef evidence.feePolicy =
        .ok (some policyId) ∧
      result.fills.zipIdx.foldlM (fun (db : Database) item => do
        checkFillContexts item.1.toEconomicFillFields
        db.insertFill (fillRow result operationId (some policyId) item.1
          result.feeCalculations[item.2]?)) reached = .ok filled := by
  obtain ⟨policy, hpolicy⟩ := Option.isSome_iff_exists.mp hfirst.policy
  have hoperation := Database.find?_recordOrder hreached
  obtain ⟨hfills, policyId, hwith⟩ : reached.fills = db.fills ∧ ∃ policyId,
      reached.evidence.RecordedWith result.request.marketRef prepared.executionContextId
        policy.fingerprint policyId := by
    obtain ⟨-, -, tables, htables, rfl⟩ := Database.recordOrder_spec hreached
    exact ⟨rfl, EvidenceTables.persistExecutionContext_recordedWith htables
      h.executionContextId_eq hpolicy (hfirst.context _ h.executionContextId_eq)⟩
  obtain ⟨policyRow, hpolicyRow, hmarket⟩ := EvidenceTables.exists_feePolicy hwith.policy
  obtain ⟨contextRow, hcontextRow, hsame⟩ := hwith.context
  have hinserted := @Database.insertFill_all (operationRow digests result operationId)
    (fun fill index =>
      fillRow result operationId (some policyId) fill result.feeCalculations[index]?)
    result.fills.zipIdx reached (fun item _ => hoperation) ?_ ?_ ?_
  · refine ⟨_, ?_, policyId, ?_, hinserted⟩
    · rfl
    rw [hpolicy, Database.persistedFeePolicyId]
    simp only [hwith.policy]
  · rintro ⟨fill, index⟩ hmem
    obtain ⟨hid, hindex, hcontext, hfrozen, calculation, hcalculation, hcharged⟩ :=
      h.fill_charged hmem
    have hfill : fill ∈ result.fills := List.mem_of_getElem?
      (List.mem_zipIdx_iff_getElem?.mp hmem)
    rw [h.executionContextId_eq] at hcontext
    simp only [hcalculation]
    refine ⟨?_, FillRow.guardFeePolicy_isOk rfl hpolicyRow hmarket hcontext hcontextRow hsame
      ?_ fill.feeMicros_nonneg, ?_⟩
    · have huuid := hfirst.frozen fill hfill
      simp [checkFillContexts, hcontext, hfrozen, hwith.uuid, huuid _ hfrozen]
    · exact hcharged.fee.trans hcharged.components
    · have haction : (operationRow digests result operationId).orderSide = request.action := by
        rw [operationRow, h.request_eq]
      rw [haction]
      refine FillRow.check_fillRow hcharged result operationId policyId ?_ (by rw [hcontext]; rfl)
      have hlength := operationUuid_length digests request.agentId request.idempotencyKey
      have hdigit := toString_length_le hindex
      rw [hid, h.operationId_eq]
      simp only [String.toList_append, List.length_append]
      simp only [hlength]
      have hcolon : ":".toList.length = 1 := rfl
      omega
  · have hids := h.fillId_nodup
    have hfingerprints := hfirst.distinct
    rw [List.Nodup, List.pairwise_map] at hids hfingerprints
    have hfills := (hids.and hfingerprints)
    rw [← List.zipIdx_map_fst 0 result.fills, List.pairwise_map] at hfills
    refine hfills.imp fun {first second} hdiffer => ?_
    refine decide_eq_false ?_
    rintro (hsame' | ⟨-, hsame' | hsame'⟩)
    · change result.operationId ++ ":" ++ first.1.fillId =
        result.operationId ++ ":" ++ second.1.fillId at hsame'
      have hlist := congrArg String.toList hsame'
      simp only [String.toList_append, List.append_cancel_left_eq] at hlist
      exact hdiffer.1 (String.toList_injective hlist)
    · exact hdiffer.1 hsame'
    · exact hdiffer.2 hsame'
  · rintro ⟨fill, index⟩ hmem other hother
    have hfill : fill ∈ result.fills := List.mem_of_getElem?
      (List.mem_zipIdx_iff_getElem?.mp hmem)
    obtain ⟨hother', hids⟩ := hfirst.unrecorded other (hfills ▸ hother)
    refine decide_eq_false ?_
    rintro (hsame' | ⟨hsame', -⟩)
    · exact hids fill hfill hsame'
    · exact hother' hsame'

end OrderResultFields.MadeOn

/-- The fills of a result are recorded with their audit when the side that the order was
executed against has six levels, and else the audit is refused. -/
theorem OrderResultFields.MadeOn.insertFills_eq {broker : BinaryPaperBroker} {digests : Digests}
    {request : OrderRequest} {arguments : ExecutionArguments} {context : MarketContext}
    {prepared : PreparedOrder} {result : OrderResultFields}
    (h : result.MadeOn broker digests request arguments context prepared)
    {db reached : Database} {agentId operationId agentCycleId : String}
    {evidence : OrderEvidence} {snapshotId : String}
    (hreached : db.recordOrder digests result agentId operationId agentCycleId evidence =
      .ok (reached, some snapshotId)) (hfirst : db.RecordsFirst result operationId evidence) :
    if 6 ≤ (context.orderBook.executedSide request.outcome request.action).length then
      ∃ filled, reached.insertFills result operationId evidence.feePolicy (some snapshotId) =
        .ok filled
    else reached.insertFills result operationId evidence.feePolicy (some snapshotId) =
      .error (.databaseError "liquidity_haircut_audits_captured_raw_levels_check") := by
  obtain ⟨filled, hevidence, policyId, hpolicyId, hfilled⟩ := h.inserts_fills hreached hfirst
  obtain ⟨audit, haudit, haudited⟩ := h.audited
  obtain ⟨levels, first, hhaircut, -⟩ := h.prepares.plans.planned
  have hcounts := HaircutAudit.afterFills_countsLevels haudit
    (applyBestLevelHaircut_countsLevels hhaircut).1
  have hcheck := hcounts.check_haircutAuditRow snapshotId
  unfold Database.insertFills
  simp only [hpolicyId, haudited, bind, Except.bind] at hfilled ⊢
  rw [hfilled]
  by_cases hdeep : 6 ≤ (context.orderBook.executedSide request.outcome request.action).length
  · rw [if_pos hdeep] at hcheck ⊢
    obtain ⟨tables, htables⟩ := filled.evidence.insertHaircutAudit_isOk hcheck
    simp only [htables]
    exact ⟨_, rfl⟩
  · rw [if_neg hdeep] at hcheck ⊢
    simp only [EvidenceTables.insertHaircutAudit, bind, Except.bind, hcheck]

namespace BinaryPaperBroker

end BinaryPaperBroker

namespace Sample

/-- A purchase that one level fills. -/
def smallPurchase : OrderRequest := request (market, .yes) .buy 100 hundred_pos

/-- A book with six levels to buy from. -/
def deepBook : CanonicalOrderBook :=
  { book with
    yesAsks := book.yesAsks ++
      [level 430000 (by decide), level 440000 (by decide), level 450000 (by decide)]
    yesAsks_ascending := by simp [book, level] }

def artifact : RawArtifact := ⟨digest, 1, "artifact", none, some moment.instant, Int.one_nonneg, by decide⟩

def freshContext (orderBook : CanonicalOrderBook) (h : market = orderBook.marketKey) :
    FreshContext where
  market := context.market
  orderBook := orderBook
  same_market := h
  yesEligible := true
  noEligible := true
  marketObservedAt := moment.instant
  marketSourceUpdatedAt := none
  bookSourceTimestamp := none
  marketAudit := artifact
  bookArtifact := artifact
  feePolicyEvidence := none
  feePolicy_eq := rfl

def policyEvidence : FeePolicyEvidence where
  toFeePolicySnapshot := feePolicy false
  effectiveFrom := some moment.instant
  sourceObservedAt := some moment.instant
  eventOverrideFeeType := none
  scheduleSha256 := none
  waiverEvidence := none
  rawArtifact := none
  sourceArtifacts := []
  effective_le_asOf := by decide
  observed_le_cutoff := by decide

def operationUuid : String := digests.operationUuid "agent" "key"

def orderEvidence (context : FreshContext) : OrderEvidence :=
  ⟨none, some context, some policyEvidence, none⟩

/-- The arguments of an execution that is recorded. -/
def recordedArguments (context : FreshContext) : ExecutionArguments :=
  { arguments portfolio false with
    context := some context.toMarketContext
    frozenContextId := some operationUuid
    executionContextId := some operationUuid }

/-- The tables of an agent that has not traded, with the fee policy of the market. -/
def untraded : Database where
  agents := [⟨"agent", 0, false⟩]
  cycles := [⟨"cycle", "agent", some moment.instant⟩]
  markets := [(market, [])]
  intents := []
  operations := []
  fills := []
  evidence := ⟨[], [⟨"policy", market, (feePolicy false).fingerprint, moment.instant⟩], [], [],
    by decide⟩
  ledgerEntries := []
  positions := []
  feeAllocations := []
  resolutions := []
  settlements := []
  positions_unique := by simp

def recordedRun (context : FreshContext) : List BrokerCall :=
  [.execute smallPurchase (recordedArguments context)]

end Sample

namespace Sample

/-- The answer of a recorded run is a filled order, and what is recorded of it is new. -/
theorem recordedRun_answer (context : FreshContext)
    (h : ((broker.execute digests .empty smallPurchase
        (recordedArguments context)).2.toOption.any fun result =>
      decide (result.state = .filled ∧ result.fills ≠ [] ∧
        (∀ fill ∈ result.fills, ∀ id ∈ fill.frozenContextId, isUuid id = true) ∧
        (result.fills.map fun fill => fill.fingerprint).Nodup) &&
      ((untraded.recordOrder digests result.toOrderResultFields "agent" operationUuid "cycle"
          (orderEvidence context)).toOption.any fun reached => reached.2.isSome)) = true) :
    ∃ (result : OrderResult) (reached : Database) (snapshotId : String),
      (.execute smallPurchase (recordedArguments context), Except.ok result) ∈
        broker.answers digests (recordedRun context) ∧
      result.state = .filled ∧ result.fills ≠ [] ∧
      untraded.RecordsFirst result.toOrderResultFields operationUuid (orderEvidence context) ∧
      untraded.recordOrder digests result.toOrderResultFields "agent" operationUuid "cycle"
        (orderEvidence context) = .ok (reached, some snapshotId) := by
  obtain ⟨result, hresult, htest⟩ := Checks.exists_ok_of_any _ _ h
  rw [Bool.and_eq_true] at htest
  obtain ⟨hstate, hfills, hfrozen, hdistinct⟩ := of_decide_eq_true htest.1
  obtain ⟨⟨reached, snapshot⟩, hreached, hsnapshot⟩ := Checks.exists_ok_of_any _ _ htest.2
  obtain ⟨snapshotId, rfl⟩ := Option.isSome_iff_exists.mp hsnapshot
  refine ⟨result, reached, snapshotId, ?_, hstate, hfills,
    ⟨rfl, fun _ _ => rfl, hfrozen, hdistinct, fun row hmem => by cases hmem⟩, hreached⟩
  have hanswers : broker.answers digests (recordedRun context) =
      [(.execute smallPurchase (recordedArguments context), .ok result)] :=
    congrArg (fun answer => [(_, answer)]) hresult
  rw [hanswers]
  exact List.mem_singleton.mpr rfl

end Sample

end VTrade
