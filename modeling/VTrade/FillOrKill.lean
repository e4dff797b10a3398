/-
# Fill or kill

A fill-or-kill order for contracts is filled whole when the levels that the haircut leaves
within its limit are deep enough, a sale has the units, and cash pays for a purchase with
its fees: planning takes from the levels in the order of their prices, and nothing is
trimmed.  The fills that such an order gets cover all that it asks for, be it contracts
or cash, also when they are given to it again.
-/

import VTrade.FillRecording
import VTrade.Lib.Greedy

namespace VTrade

/-! ## The levels of an order -/

/-- The levels within the limit of an order. -/
def withinLimit (request : OrderRequest) (levels : List CanonicalLevel) : List CanonicalLevel :=
  levels.filter fun level => !beyondLimit request level

/-- The levels that an order may be filled on: of those that the haircut leaves, the ones
within its limit. -/
def eligibleLevels (request : OrderRequest) (orderBook : CanonicalOrderBook) :
    List CanonicalLevel :=
  match applyBestLevelHaircut orderBook request.outcome request.action with
  | .ok (levels, _) => withinLimit request levels
  | .error _ => []

/-- How much some levels have. -/
def depth (levels : List CanonicalLevel) : ℤ := Greedy.total CanonicalLevel.quantity levels

/-- A level that an order prefers to another. -/
def PricedBefore (action : Side) (first second : CanonicalLevel) : Prop :=
  match action with
  | .buy => first.price < second.price
  | .sell => second.price < first.price

instance PricedBefore.isTrans (action : Side) : IsTrans CanonicalLevel (PricedBefore action) where
  trans first second third h h' := by
    cases action with
    | buy => exact lt_trans h h'
    | sell => exact lt_trans h' h

theorem executedSide_pricedBefore (orderBook : CanonicalOrderBook) (outcome : OutcomeSide)
    (action : Side) :
    (orderBook.executedSide outcome action).Pairwise (PricedBefore action) := by
  cases action with
  | buy =>
      cases outcome with
      | yes => exact List.isChain_iff_pairwise.mp orderBook.yesAsks_ascending
      | no => exact List.isChain_iff_pairwise.mp orderBook.noAsks_ascending
  | sell =>
      cases outcome with
      | yes => exact List.isChain_iff_pairwise.mp orderBook.yesBids_descending
      | no => exact List.isChain_iff_pairwise.mp orderBook.noBids_descending

/-- What the haircut leaves is part of the side that the order is executed against. -/
theorem applyBestLevelHaircut_sublist {orderBook : CanonicalOrderBook} {outcome : OutcomeSide}
    {action : Side} {levels : List CanonicalLevel} {audit : HaircutAudit}
    (h : applyBestLevelHaircut orderBook outcome action = .ok (levels, audit)) :
    levels.Sublist (orderBook.executedSide outcome action) := by
  unfold applyBestLevelHaircut at h
  simp only at h
  split at h
  next => cases h
  next best effective hcaptured =>
    obtain ⟨-, h⟩ := Checks.ite_error_eq_ok.mp h
    obtain ⟨-, h⟩ := Checks.ite_error_eq_ok.mp h
    obtain ⟨audits, -, h⟩ := Checks.bind_eq_ok.mp h
    obtain ⟨audit', -, h⟩ := Checks.bind_eq_ok.mp h
    cases h
    have htaken := List.take_sublist 6 (orderBook.executedSide outcome action)
    apply (List.sublist_cons_self best levels).trans
    exact hcaptured ▸ htaken

/-- The levels of an order come in the order of their prices, the preferred ones first. -/
theorem eligibleLevels_pricedBefore (request : OrderRequest) (orderBook : CanonicalOrderBook) :
    (eligibleLevels request orderBook).Pairwise (PricedBefore request.action) := by
  unfold eligibleLevels
  split
  next levels audit hhaircut =>
    apply List.Pairwise.sublist
      (List.filter_sublist.trans (applyBestLevelHaircut_sublist hhaircut))
    exact executedSide_pricedBefore orderBook request.outcome request.action
  next => exact List.Pairwise.nil

/-! ## Filling an order whole -/

/-- The fills of a whole order for contracts, taken from levels in order: units and price. -/
def wholeFills (request : OrderRequest) (levels : List CanonicalLevel) : List (ℤ × ℤ) :=
  (Greedy.take CanonicalLevel.quantity request.amount levels).map fun taken =>
    (taken.2, taken.1.price)

/-- Planning for contracts takes from the levels within the limit, in order. -/
theorem planLevels_contracts {request : OrderRequest} (hcontracts : request.amountType = .contracts)
    {index : ℕ} {wanted cashRemaining : ℤ} {levels : List CanonicalLevel}
    {planned : List PlannedFill}
    (h : planLevels request index (some wanted) cashRemaining levels = .ok planned) :
    (planned.map fun item => (item.contractUnits, item.priceMicros)) =
      (Greedy.take CanonicalLevel.quantity wanted (withinLimit request levels)).map fun taken =>
        (taken.2, taken.1.price) := by
  induction levels generalizing index wanted cashRemaining planned with
  | nil =>
      cases h
      rfl
  | cons level rest ih =>
      have hquantity : levelQuantity request (some wanted) cashRemaining level =
          min level.quantity wanted := by
        simp [levelQuantity, hcontracts]
      have hspent : ∀ quantity, spentOnLevel request quantity level = .ok 0 := by
        intro quantity
        simp [spentOnLevel, hcontracts]
      unfold planLevels at h
      simp only [hquantity, hspent] at h
      cases hbeyond : beyondLimit request level with
      | true =>
          have hkept : withinLimit request (level :: rest) = withinLimit request rest := by
            simp [withinLimit, hbeyond]
          rw [if_pos (Or.inl hbeyond)] at h
          rw [hkept]
          exact ih h
      | false =>
          have hkept : withinLimit request (level :: rest) = level :: withinLimit request rest := by
            simp [withinLimit, hbeyond]
          rw [hkept, Greedy.take]
          by_cases hnone : min level.quantity wanted ≤ 0
          · rw [if_pos (Or.inr hnone)] at h
            rw [if_pos hnone]
            exact ih h
          · rw [if_neg (by simp [hbeyond, hnone])] at h
            rw [if_neg hnone]
            obtain ⟨spent, hspent', h⟩ := Checks.bind_eq_ok.mp h
            cases hspent'
            rw [Option.map_some] at h
            by_cases hlast : some (wanted - min level.quantity wanted) = some 0
            · rw [if_pos hlast] at h
              cases h
              rw [Greedy.take_of_nonpos (Option.some.inj hlast).le]
              rfl
            · rw [if_neg hlast] at h
              obtain ⟨later, hlater, h⟩ := Checks.bind_eq_ok.mp h
              cases h
              rw [List.map_cons, List.map_cons, ih hlater]

/-- An order for contracts is planned for all that it may have, or all that there is. -/
theorem plannedUnits_contracts {request : OrderRequest}
    (hcontracts : request.amountType = .contracts) {index : ℕ} {wanted cash : ℤ} (hwanted : 0 ≤ wanted)
    {levels : List CanonicalLevel} {planned : List PlannedFill}
    (h : planLevels request index (some wanted) cash levels = .ok planned) :
    plannedUnits planned = min wanted (depth (withinLimit request levels)) := by
  have hfills := planLevels_contracts hcontracts h
  calc plannedUnits planned
      = ((planned.map fun item => (item.contractUnits, item.priceMicros)).map Prod.fst).sum := by
        rw [List.map_map]
        rfl
    _ = ((Greedy.take CanonicalLevel.quantity wanted (withinLimit request levels)).map
          Prod.snd).sum := by
        rw [hfills, List.map_map]
        rfl
    _ = min wanted (depth (withinLimit request levels)) :=
        Greedy.sum_take hwanted fun level _ => level.quantity_pos.le

/-- Why an order for contracts cannot be filled whole on a book: the levels have less, a
sale has less, or a purchase in the order of the prices costs more than there is, fees
included. -/
inductive CannotFill (request : OrderRequest) (portfolio : ContractPortfolio)
    (feePolicy : Option FeePolicySnapshot) (orderBook : CanonicalOrderBook) : Prop
  | shallow (h : depth (eligibleLevels request orderBook) < request.amount)
  | unowned (action : request.action = .sell)
      (h : ∀ position ∈ portfolio.position request.positionKey,
        position.contractUnits < request.amount)
  | unaffordable (action : request.action = .buy) {policy : FeePolicySnapshot}
      {calculations : List FeeCalculation}
      (priced : (eligibleLevels request orderBook).Pairwise (PricedBefore request.action))
      (policy_eq : feePolicy = some policy)
      (charged : ExactFeeCalculator.calculateFills
        (wholeFills request (eligibleLevels request orderBook)) policy request.action =
          .ok calculations)
      (h : portfolio.cashMicros < totalCost calculations)

/-- Whether the order has the levels, the units and the cash to be filled whole. -/
structure CanFill (request : OrderRequest) (portfolio : ContractPortfolio)
    (policy : FeePolicySnapshot) (levels : List CanonicalLevel) : Prop where
  deep : request.amount ≤ depth (withinLimit request levels)
  owned : request.action = .sell → ∀ position ∈ portfolio.position request.positionKey,
    request.amount ≤ position.contractUnits
  affordable : request.action = .buy → ∀ calculations,
    ExactFeeCalculator.calculateFills (wholeFills request (withinLimit request levels)) policy
      request.action = .ok calculations → totalCost calculations ≤ portfolio.cashMicros

/-- What is not a reason against filling an order is what it takes to fill it. -/
theorem canFill_of_not_cannotFill {request : OrderRequest} {portfolio : ContractPortfolio}
    {policy : FeePolicySnapshot} {orderBook : CanonicalOrderBook} {levels : List CanonicalLevel}
    {audit : HaircutAudit}
    (hhaircut : applyBestLevelHaircut orderBook request.outcome request.action =
      .ok (levels, audit))
    (h : ¬ CannotFill request portfolio (some policy) orderBook) :
    CanFill request portfolio policy levels := by
  have hlevels : eligibleLevels request orderBook = withinLimit request levels := by
    simp [eligibleLevels, hhaircut]
  constructor
  case deep =>
    rw [← hlevels]
    exact not_lt.mp fun hshallow => h (.shallow hshallow)
  case owned =>
    intro haction position hposition
    refine not_lt.mp fun hless => h (.unowned haction fun other hother => ?_)
    obtain rfl := Option.some.inj (hposition.symm.trans hother)
    exact hless
  case affordable =>
    intro haction calculations hcharged
    rw [← hlevels] at hcharged
    have hpriced := eligibleLevels_pricedBefore request orderBook
    exact not_lt.mp fun hmore => h (.unaffordable haction hpriced rfl hcharged hmore)

/-- An order that can be filled is planned whole, from the levels in order. -/
theorem CanFill.plan {request : OrderRequest} {portfolio : ContractPortfolio}
    {policy : FeePolicySnapshot} {levels : List CanonicalLevel} {first : List PlannedFill}
    (h : CanFill request portfolio policy levels) (hcontracts : request.amountType = .contracts)
    (hplan : plan request levels (portfolio.position request.positionKey) = .ok first) :
    (first.map fun item => (item.contractUnits, item.priceMicros)) =
        wholeFills request (withinLimit request levels) ∧
      plannedUnits first = request.amount := by
  have htarget : planTarget request (portfolio.position request.positionKey) =
      some request.amount := by
    unfold planTarget
    rw [OrderRequest.contractUnits_of_contracts hcontracts]
    split
    next position haction hposition =>
      rw [Option.elim_some, min_eq_left (h.owned haction position hposition)]
    next => rfl
  unfold VTrade.plan at hplan
  rw [htarget] at hplan
  have hfills := planLevels_contracts hcontracts hplan
  refine ⟨hfills, ?_⟩
  rw [plannedUnits_contracts hcontracts request.amount_pos.le hplan]
  exact min_eq_left h.deep

/-- A plan that can be paid is not trimmed. -/
theorem fitCashBudget_of_affordable {request : OrderRequest} {portfolio : ContractPortfolio}
    {policy : FeePolicySnapshot} {first planned : List PlannedFill}
    {calculations : List FeeCalculation}
    (haffordable : request.action = .buy → ∀ calculations,
      calculatePlanned request policy first = .ok calculations →
        totalCost calculations ≤ portfolio.cashMicros)
    (h : fitCashBudget request portfolio first policy = .ok (planned, calculations)) :
    planned = first := by
  obtain ⟨charged, hcharged, h⟩ := Checks.bind_eq_ok.mp h
  rw [if_pos] at h
  · exact (Prod.mk.inj (Except.ok.inj h)).1.symm
  · by_cases haction : request.action = .buy
    · exact Or.inr (haffordable haction charged hcharged)
    · exact Or.inl haction

/-! ## Rejections -/

theorem rejectIf_eq_rejected_iff {condition : Bool} {given rejection : Rejection} :
    rejectIf condition given = .error (.rejected rejection) ↔
      condition = true ∧ given = rejection := by
  cases condition <;> simp [rejectIf]

theorem rejecting_eq_rejected {α : Type} {caught : Raised → Bool}
    {rejection : Raised → Rejection} {x : Except Raised α} {given : Rejection}
    (h : rejecting caught rejection x = .error (.rejected given)) :
    ∃ error, x = .error error ∧ given = rejection error := by
  cases x with
  | ok value => cases h
  | error error =>
      simp only [rejecting] at h
      split at h
      · cases h
        exact ⟨error, rfl, rfl⟩
      · cases h

theorem uncaught_ne_rejected {α : Type} (x : Except Raised α) (rejection : Rejection) :
    uncaught x ≠ .error (.rejected rejection) := by
  cases x <;> simp [uncaught]

/-- A rejection for the price or for want of liquidity: too little of it, or a haircut that
refuses what there is. -/
def SemanticExecutionError.IsForLiquidity (code : SemanticExecutionError) : Prop :=
  code = .priceLimit ∨ code = .insufficientLiquidity ∨ code = .haircutEvidenceInsufficient

instance (code : SemanticExecutionError) : Decidable code.IsForLiquidity :=
  inferInstanceAs (Decidable (_ ∨ _))

namespace BinaryPaperBroker

variable (broker : BinaryPaperBroker) (digests : Digests)

/-- A context that does not validate says nothing of liquidity. -/
theorem contextErrorCode_not_isForLiquidity {request : OrderRequest} {context : MarketContext}
    {now : Datetime} {error : Raised}
    (h : broker.validateContext request context now = .error error) :
    ¬ (contextErrorCode error).IsForLiquidity := by
  have hraises : Checks.RaisesOnly (fun error => error.isLiquidityEvidenceError = false)
      (broker.validateContext request context now) := by
    unfold validateContext
    repeat' refine Checks.raisesOnly_ite (Checks.raisesOnly_error rfl) ?_
    split
    · exact Checks.raisesOnly_ok ()
    · unfold PriceGrid.require
      split
      · exact Checks.raisesOnly_ok ()
      · exact Checks.raisesOnly_error rfl
  have hother := hraises error h
  unfold contextErrorCode SemanticExecutionError.IsForLiquidity
  split
  · cases hother
  · split <;> simp

theorem checkFeePolicy_not_isForLiquidity {feePolicy : Option FeePolicySnapshot} {now : Datetime}
    {rejection : Rejection} (h : checkFeePolicy feePolicy now = .error (.rejected rejection)) :
    ¬ rejection.code.IsForLiquidity := by
  cases feePolicy with
  | none =>
      cases h
      decide
  | some policy =>
      rcases Checks.bind_eq_error.mp h with hkind | ⟨_, -, h⟩
      · rw [← (rejectIf_eq_rejected_iff.mp hkind).2]
        decide
      · rcases Checks.bind_eq_error.mp h with hmoment | ⟨_, -, hok⟩
        · rw [← (rejectIf_eq_rejected_iff.mp hmoment).2]
          decide
        · cases hok

/-- An order for contracts that is rejected for liquidity or for its price while it is
planned cannot be filled whole. -/
theorem planOrder_rejected {request : OrderRequest} {arguments : ExecutionArguments}
    {context : MarketContext} {rejection : Rejection}
    (hcontracts : request.amountType = .contracts)
    (h : broker.planOrder request arguments context = .error (.rejected rejection))
    (hcode : rejection.code.IsForLiquidity) :
    CannotFill request arguments.portfolio arguments.feePolicy context.orderBook := by
  rcases Checks.bind_eq_error.mp h with hinvalid | ⟨_, -, h⟩
  · obtain ⟨error, herror, rfl⟩ := rejecting_eq_rejected hinvalid
    exact absurd hcode (broker.contextErrorCode_not_isForLiquidity herror)
  rcases Checks.bind_eq_error.mp h with hpolicy | ⟨policy, hpolicy, h⟩
  · exact absurd hcode (checkFeePolicy_not_isForLiquidity hpolicy)
  rcases Checks.bind_eq_error.mp h with hrefused | ⟨⟨levels, haircut⟩, hhaircut, h⟩
  · -- A haircut that is refused leaves no levels.
    obtain ⟨error, herror, -⟩ := rejecting_eq_rejected hrefused
    have hlevels : eligibleLevels request context.orderBook = [] := by
      simp [eligibleLevels, herror]
    exact .shallow (hlevels ▸ request.amount_pos)
  rw [rejecting_eq_ok_iff] at hhaircut
  rcases Checks.bind_eq_error.mp h with hunowned | ⟨_, -, h⟩
  · rw [← (rejectIf_eq_rejected_iff.mp hunowned).2] at hcode
    exact absurd hcode (by decide)
  rcases Checks.bind_eq_error.mp h with hraised | ⟨first, hfirst, h⟩
  · exact absurd hraised (uncaught_ne_rejected _ _)
  rw [uncaught_eq_ok_iff] at hfirst
  by_contra hcannot
  rw [(checkFeePolicy_eq_ok_iff.mp hpolicy).1] at hcannot
  have hcan := canFill_of_not_cannotFill hhaircut hcannot
  obtain ⟨hfills, hunits⟩ := hcan.plan hcontracts hfirst
  rcases Checks.bind_eq_error.mp h with hempty | ⟨_, -, h⟩
  · have hempty := of_decide_eq_true (rejectIf_eq_rejected_iff.mp hempty).1
    rw [hempty] at hunits
    exact absurd hunits request.amount_pos.ne
  rcases Checks.bind_eq_error.mp h with hraised | ⟨⟨planned, calculations⟩, hbudget, h⟩
  · exact absurd hraised (uncaught_ne_rejected _ _)
  rw [uncaught_eq_ok_iff] at hbudget
  have hwhole : planned = first := by
    refine fitCashBudget_of_affordable (fun haction charged hcharged => ?_) hbudget
    unfold calculatePlanned at hcharged
    rw [hfills] at hcharged
    exact hcan.affordable haction charged hcharged
  rw [← hwhole] at hunits
  have hcomplete : fokComplete request planned = .ok true := by
    simp [fokComplete, OrderRequest.contractUnits_of_contracts hcontracts, hunits]
  rcases Checks.bind_eq_error.mp h with hkilled | ⟨_, -, h⟩
  · have hok : checkFillOrKill request planned haircut = .ok () :=
      checkFillOrKill_eq_ok_iff.mpr fun _ => hcomplete
    rw [hok] at hkilled
    cases hkilled
  rcases Checks.bind_eq_error.mp h with hmore | ⟨_, -, h⟩
  · rw [← (rejectIf_eq_rejected_iff.mp hmore).2] at hcode
    exact absurd hcode (by decide)
  · cases h

theorem checkPurchase_not_isForLiquidity {request : OrderRequest} {arguments : ExecutionArguments}
    {haircut : HaircutAudit} {calculations : List FeeCalculation} {rejection : Rejection}
    (h : broker.checkPurchase request arguments haircut calculations =
      .error (.rejected rejection)) : ¬ rejection.code.IsForLiquidity := by
  unfold checkPurchase at h
  cases haction : request.action with
  | sell =>
      rw [haction] at h
      cases h
  | buy =>
      rw [haction] at h
      rcases Checks.bind_eq_error.mp h with hcash | ⟨_, -, h⟩
      · rw [← (rejectIf_eq_rejected_iff.mp hcash).2]
        simp [SemanticExecutionError.IsForLiquidity]
      rcases Checks.bind_eq_error.mp h with hvalue | ⟨accountValue, -, h⟩
      · obtain ⟨error, -, rfl⟩ := rejecting_eq_rejected hvalue
        simp [SemanticExecutionError.IsForLiquidity]
      rcases Checks.bind_eq_error.mp h with hraised | ⟨concentration, -, h⟩
      · exact absurd hraised (uncaught_ne_rejected _ _)
      rcases Checks.bind_eq_error.mp h with hlimit | ⟨_, -, hok⟩
      · rw [← (rejectIf_eq_rejected_iff.mp hlimit).2]
        simp [SemanticExecutionError.IsForLiquidity]
      · cases hok

/-! ## Results -/

end BinaryPaperBroker

/-- The fills of a result cover all that its order asks for, contracts or cash. -/
def OrderResultFields.FillsWhole (result : OrderResultFields) : Prop :=
  match result.request.amountType with
  | .contracts => (result.fills.map fun fill => fill.contractUnits).sum = result.request.amount
  | .cash => (result.fills.map fun fill => fill.grossCashMicros).sum = result.request.amount

/-- The fills of a fill-or-kill order cover it. -/
theorem OrderResultFields.MadeOn.fillsWhole {broker : BinaryPaperBroker} {digests : Digests}
    {request : OrderRequest} {arguments : ExecutionArguments} {context : MarketContext}
    {prepared : PreparedOrder} {result : OrderResultFields}
    (h : result.MadeOn broker digests request arguments context prepared)
    (hfok : request.timeInForce = .fok) : result.FillsWhole := by
  obtain ⟨levels, hsound⟩ := h.prepares.plans.sound
  have hcomplete := h.prepares.plans.complete hfok
  obtain ⟨fills, hfills, hagree⟩ := BinaryPaperBroker.brokerFills_isOk digests request
    arguments.now prepared 0 (digests.operationUuid_not_isBlank request.agentId
      request.idempotencyKey) hsound.plansFrom.chargeable hsound.fees
  have hmade := h.fills_made
  rw [h.operationId_eq, hfills, Except.ok.injEq] at hmade
  rw [hmade] at hagree
  unfold FillsWhole
  rw [h.request_eq]
  unfold BinaryPaperBroker.fokComplete at hcomplete
  cases hamount : request.amountType with
  | contracts =>
      rw [OrderRequest.contractUnits_of_contracts hamount] at hcomplete
      dsimp only at hcomplete ⊢
      rw [hagree.units]
      exact of_decide_eq_true (Except.ok.inj hcomplete)
  | cash =>
      have hunits : request.contractUnits = none := by simp [OrderRequest.contractUnits, hamount]
      have hcash : request.cashAmountMicros = some request.amount := by
        simp [OrderRequest.cashAmountMicros, hamount]
      rw [hunits] at hcomplete
      obtain ⟨gross, hgross, hsum⟩ := Checks.bind_eq_ok.mp hcomplete
      have hcalculated : prepared.planned.mapM (fun item : PlannedFill =>
          grossCashMicros item.contractUnits item.priceMicros) = .ok
            (prepared.calculations.map fun calculation => calculation.grossMicros) :=
        Checks.mapM_eq_ok_iff.mpr (List.forall₂_map_right_iff.mpr
          (hsound.fees.imp fun _ _ hfee => hfee.gross_eq))
      rw [hgross, Except.ok.injEq] at hcalculated
      dsimp only
      rw [hagree.gross, ← hcalculated, of_decide_eq_true (Except.ok.inj hsum), hcash]
      rfl

/-- A complete plan has the units that its order asks for. -/
theorem PreparedOrder.requestedUnits_of_complete {request : OrderRequest} {prepared : PreparedOrder}
    (h : BinaryPaperBroker.fokComplete request prepared.planned = .ok true) :
    prepared.requestedUnits request = prepared.filledUnits := by
  unfold requestedUnits
  unfold BinaryPaperBroker.fokComplete at h
  cases hunits : request.contractUnits with
  | none => rfl
  | some units =>
      rw [hunits] at h
      exact (of_decide_eq_true (Except.ok.inj h)).symm

/-- What a fill-or-kill order comes to.  It is filled whole; or it is killed, for liquidity
only when it cannot be filled; or it is kept as it was asked to be; or it gets the result
that its key already has. -/
inductive FillsOrKills (digests : Digests) (state : BrokerState) (request : OrderRequest)
    (arguments : ExecutionArguments) (result : OrderResult) : Prop
  | filled (request_eq : result.request = request) (state_eq : result.state = .filled)
      (whole : result.FillsWhole)
  | killed (request_eq : result.request = request) (state_eq : result.state = .rejected)
      (unfilled : result.fills = [])
      (reason : request.amountType = .contracts → ∀ code ∈ result.errorCode,
        code.IsForLiquidity → ∃ context ∈ arguments.context,
          CannotFill request arguments.portfolio arguments.feePolicy context.orderBook)
  | kept (request_eq : result.request = request) (state_eq : result.state = .pending)
      (unfilled : result.fills = [])
      (unexecuted : arguments.pending = true ∨ arguments.context = none)
  | known (known : state.result (request.agentId, request.idempotencyKey) = some result)
      (same : digests.fingerprint result.request = digests.fingerprint request)
      (whole : result.request.timeInForce = .fok → result.fills ≠ [] → result.FillsWhole)

/-- A rejection kills the order. -/
theorem FillsOrKills.of_rejected {digests : Digests} {state : BrokerState}
    {request : OrderRequest} {arguments : ExecutionArguments} {operationId : String}
    {rejection : Rejection} {result : OrderResult}
    (h : rejected request arguments.portfolio arguments.now operationId rejection = .ok result)
    (hreason : request.amountType = .contracts → rejection.code.IsForLiquidity →
      ∃ context ∈ arguments.context,
        CannotFill request arguments.portfolio arguments.feePolicy context.orderBook) :
    FillsOrKills digests state request arguments result := by
  have hfields := OrderResult.make_eq_ok_iff.mp h
  refine .killed (by rw [hfields]) (by rw [hfields]) (by rw [hfields])
    fun hcontracts code hcode hliquidity => ?_
  rw [hfields] at hcode
  obtain rfl := Option.some.inj hcode
  exact hreason hcontracts hliquidity

namespace BinaryPaperBroker

variable (broker : BinaryPaperBroker) (digests : Digests)

/-- An order on a context is filled whole or killed. -/
theorem executeContext_fillsOrKills {state : BrokerState} {request : OrderRequest}
    {arguments : ExecutionArguments} {context : MarketContext} {result : OrderResult}
    (hfok : request.timeInForce = .fok) (hcontext : arguments.context = some context)
    (h : broker.executeContext digests request arguments context
      (digests.operationUuid request.agentId request.idempotencyKey) = .ok result) :
    FillsOrKills digests state request arguments result := by
  have hmade := broker.executeContext_madeOn digests h
  unfold executeContext at h
  split at h
  next rejection hrejection =>
    refine .of_rejected h fun hcontracts hliquidity => ⟨context, hcontext, ?_⟩
    rcases Checks.bind_eq_error.mp hrejection with hplan | ⟨order, -, hpurchase⟩
    · exact broker.planOrder_rejected hcontracts hplan hliquidity
    · rcases Checks.bind_eq_error.mp hpurchase with hcheck | ⟨_, -, hok⟩
      · exact absurd hliquidity (broker.checkPurchase_not_isForLiquidity hcheck)
      · cases hok
  next => cases h
  next prepared hprepared =>
    obtain ⟨fills, hfills, h⟩ := Checks.bind_eq_ok.mp h
    split at h
    next error herror =>
      split at h
      · refine .of_rejected h fun _ hliquidity => absurd hliquidity ?_
        dsimp only
        split <;> simp [SemanticExecutionError.IsForLiquidity]
      · cases h
    next updated entry accounting hbooked =>
      obtain ⟨audit, -, h⟩ := Checks.bind_eq_ok.mp h
      have hfields := OrderResult.make_eq_ok_iff.mp h
      obtain ⟨_, -, hbooked'⟩ := applyOrderFills_spec hbooked
      have hsome : result.fills ≠ [] := by
        rw [hfields]
        exact hbooked'.fills_ne_nil
      obtain ⟨prepared', hmade⟩ := hmade hsome
      have hprepares := broker.prepares_of_prepare hprepared
      have hrequested := PreparedOrder.requestedUnits_of_complete (hprepares.plans.complete hfok)
      refine .filled hmade.request_eq ?_ (hmade.fillsWhole hfok)
      rw [hfields]
      simp [hrequested]

/-- A fill-or-kill order, in whatever state the calls before it have left the broker, is
filled whole or not at all, and one for contracts is killed for liquidity only when it
cannot be filled.  It gets a result unless the clock is naive or behind the order, or a
purchase is measured by an account value below zero. -/
theorem execute_fillsOrKills (calls : List BrokerCall) (request : OrderRequest)
    (arguments : ExecutionArguments) (hfok : request.timeInForce = .fok) :
    (∀ result, (broker.execute digests (broker.after digests calls) request arguments).2 =
        .ok result → FillsOrKills digests (broker.after digests calls) request arguments result) ∧
      ((∃ result, (broker.execute digests (broker.after digests calls) request arguments).2 =
          .ok result) ∨
        arguments.now.isAware = false ∨ arguments.now.instant < request.createdAt ∨
        ∃ context, Reaches (broker.after digests calls) request arguments context ∧
          broker.MeasuredBelowZero request arguments context) := by
  have hinvariant := broker.madeInvariant digests calls
  generalize broker.after digests calls = state at *
  constructor
  · intro result h
    cases hknown : state.result (request.agentId, request.idempotencyKey) with
    | some existing =>
        obtain ⟨-, hcase⟩ := broker.execute_known digests arguments hknown
        rcases hcase with ⟨-, error, herror⟩ | ⟨-, hsame, hexisting⟩ | ⟨-, -, hconflict⟩
        · rw [herror] at h
          cases h
        · rw [hexisting] at h
          cases h
          refine .known hknown hsame fun hfok' hfills => ?_
          obtain ⟨row, hrow, rfl⟩ := BrokerState.exists_mem_of_result hknown
          obtain ⟨request', _, _, _, -, -, hmade⟩ := hinvariant.held row hrow hfills
          exact hmade.fillsWhole (hmade.request_eq ▸ hfok')
        · rw [hconflict] at h
          exact .of_rejected h fun _ hliquidity =>
            absurd hliquidity (by simp [SemanticExecutionError.IsForLiquidity])
    | none =>
        unfold execute at h
        simp only [hknown] at h
        split at h
        · cases h
        · split at h
          · rw [BrokerState.remember_snd] at h
            exact .of_rejected h fun _ hliquidity =>
              absurd hliquidity (by simp [SemanticExecutionError.IsForLiquidity])
          · split at h
            next context _ hcontext =>
              rw [BrokerState.remember_snd] at h
              exact broker.executeContext_fillsOrKills digests hfok hcontext h
            next hother =>
              split at h
              next pending hpending =>
                cases h
                have hfields := OrderResult.make_eq_ok_iff.mp hpending
                refine .kept (by rw [hfields]) (by rw [hfields]) (by rw [hfields]) ?_
                cases hasked : arguments.pending with
                | true => exact Or.inl rfl
                | false =>
                    refine Or.inr (Option.eq_none_iff_forall_ne_some.mpr fun context hcontext => ?_)
                    exact hother context hasked hcontext
              next => cases h
  · by_cases haware : arguments.now.isAware = true
    · by_cases hcreated : request.createdAt ≤ arguments.now.instant
      · by_cases hreturns : ∃ result, (broker.execute digests state request arguments).2 =
            .ok result
        · exact Or.inl hreturns
        · rw [broker.execute_isOk_iff digests haware hcreated, not_not] at hreturns
          obtain ⟨context, hreaches, hmeasured | hpartly⟩ := hreturns
          · exact Or.inr (Or.inr (Or.inr ⟨context, hreaches, hmeasured⟩))
          · -- A complete plan does not fill partly.
            obtain ⟨order, hprepares, -, units, hunits, hless⟩ := hpartly
            have hcomplete := hprepares.plans.complete hfok
            unfold fokComplete at hcomplete
            rw [hunits] at hcomplete
            exact absurd (of_decide_eq_true (Except.ok.inj hcomplete)) hless.ne
      · exact Or.inr (Or.inr (Or.inl (not_le.mp hcreated)))
    · exact Or.inr (Or.inl (Bool.eq_false_of_not_eq_true haware))

end BinaryPaperBroker

namespace Sample

/-- A fill-or-kill purchase of all that the haircut leaves of the book. -/
def wholePurchase : OrderRequest := { purchase with timeInForce := .fok }

/-- One of more than that. -/
def killedPurchase : OrderRequest := { oversized with timeInForce := .fok }

end Sample

set_option maxRecDepth 10000 in
/-- The one fills, and the other is killed because the levels are not deep enough. -/
theorem execute_fillsOrKills_purchases :
    (∃ result, (Sample.broker.execute Sample.digests .empty Sample.wholePurchase
        (Sample.arguments Sample.portfolio false)).2 = .ok result ∧
      FillsOrKills Sample.digests .empty Sample.wholePurchase
        (Sample.arguments Sample.portfolio false) result ∧ result.filledUnits = 200) ∧
      ∃ result, (Sample.broker.execute Sample.digests .empty Sample.killedPurchase
          (Sample.arguments Sample.portfolio false)).2 = .ok result ∧
        FillsOrKills Sample.digests .empty Sample.killedPurchase
          (Sample.arguments Sample.portfolio false) result ∧
        result.errorCode = some .insufficientLiquidity := by
  obtain ⟨filled, hfilled, hunits⟩ := Checks.exists_ok_of_any
    (Sample.broker.execute Sample.digests .empty Sample.wholePurchase
      (Sample.arguments Sample.portfolio false)).2
    (fun result => result.filledUnits = 200) (by decide +kernel)
  obtain ⟨killed, hkilled, hcode⟩ := Checks.exists_ok_of_any
    (Sample.broker.execute Sample.digests .empty Sample.killedPurchase
      (Sample.arguments Sample.portfolio false)).2
    (fun result => result.errorCode = some .insufficientLiquidity) (by decide +kernel)
  have hfills := (Sample.broker.execute_fillsOrKills Sample.digests [] Sample.wholePurchase
    (Sample.arguments Sample.portfolio false) rfl).1
  have hkills := (Sample.broker.execute_fillsOrKills Sample.digests [] Sample.killedPurchase
    (Sample.arguments Sample.portfolio false) rfl).1
  exact ⟨⟨filled, hfilled, hfills filled hfilled, of_decide_eq_true hunits⟩,
    ⟨killed, hkilled, hkills killed hkilled, of_decide_eq_true hcode⟩⟩

end VTrade
