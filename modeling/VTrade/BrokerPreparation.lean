/-
# What the broker accepts

Before it builds fills, `execute` validates the context, plans the order and
checks a purchase.  `Plans` and `Funded` list what has to hold for an order to
get through.  On the way nothing raises, with one exception: a purchase within
cash that is measured by a given account value below zero.
-/

import VTrade.BrokerPlanning

namespace VTrade

/-! ## Interruptions -/

def Interruption.IsRejection : Interruption → Prop
  | .rejected _ => True
  | .raised _ => False

theorem rejectIf_eq_ok_iff {condition : Bool} {rejection : Rejection} {value : Unit} :
    rejectIf condition rejection = .ok value ↔ condition = false := by
  cases condition <;> simp [rejectIf]

theorem rejectIf_rejects (condition : Bool) (rejection : Rejection) :
    Checks.RaisesOnly Interruption.IsRejection (rejectIf condition rejection) :=
  Checks.raisesOnly_ite (Checks.raisesOnly_error trivial) (Checks.raisesOnly_ok ())

theorem rejecting_eq_ok_iff {α : Type} {caught : Raised → Bool} {rejection : Raised → Rejection}
    {x : Except Raised α} {value : α} :
    rejecting caught rejection x = .ok value ↔ x = .ok value := by
  cases x with
  | ok value' => simp [rejecting]
  | error error =>
      simp only [rejecting]
      split <;> simp

/-- What is caught is a rejection. -/
theorem rejecting_rejects {α : Type} {caught : Raised → Bool} {rejection : Raised → Rejection}
    {x : Except Raised α} (h : Checks.RaisesOnly (fun error => caught error = true) x) :
    Checks.RaisesOnly Interruption.IsRejection (rejecting caught rejection x) := by
  cases x with
  | ok value => exact Checks.raisesOnly_ok value
  | error error =>
      simp only [rejecting, h error rfl, if_true]
      exact Checks.raisesOnly_error trivial

/-- What is not caught is raised. -/
theorem rejecting_raises_iff {α : Type} {caught : Raised → Bool} {rejection : Raised → Rejection}
    {x : Except Raised α} {error : Raised} :
    rejecting caught rejection x = .error (.raised error) ↔
      x = .error error ∧ caught error = false := by
  cases x with
  | ok value => simp [rejecting]
  | error error' =>
      simp only [rejecting]
      by_cases hcaught : caught error' = true
      · simp only [hcaught, if_true, Except.error.injEq, reduceCtorEq, false_iff, not_and]
        rintro rfl
        simp [hcaught]
      · simp only [hcaught, Bool.false_eq_true, if_false, Except.error.injEq,
          Interruption.raised.injEq, iff_self_and]
        rintro rfl
        simpa using hcaught

theorem uncaught_raises_iff {α : Type} {x : Except Raised α} {error : Raised} :
    uncaught x = .error (.raised error) ↔ x = .error error := by
  cases x <;> simp [uncaught]

theorem rejectIf_ne_raised (condition : Bool) (rejection : Rejection) (error : Raised) :
    rejectIf condition rejection ≠ .error (.raised error) := by
  cases condition <;> simp [rejectIf]

theorem uncaught_eq_ok_iff {α : Type} {x : Except Raised α} {value : α} :
    uncaught x = .ok value ↔ x = .ok value := by
  cases x <;> simp [uncaught]

/-- Nothing that returns leaves an exception uncaught. -/
theorem uncaught_rejects {α : Type} {x : Except Raised α} (h : ∃ value, x = .ok value) :
    Checks.RaisesOnly Interruption.IsRejection (uncaught x) := by
  obtain ⟨value, rfl⟩ := h
  exact Checks.raisesOnly_ok value

namespace BinaryPaperBroker

variable (broker : BinaryPaperBroker)

/-! ## Planning an order -/

theorem validateContext_raisesOnly (request : OrderRequest) (context : MarketContext)
    (now : Datetime) : RaisesValueError (broker.validateContext request context now) := by
  unfold validateContext
  repeat' refine Checks.raisesOnly_ite (Checks.raisesOnly_error rfl) ?_
  split
  · exact Checks.raisesOnly_ok ()
  · unfold PriceGrid.require
    split
    · exact Checks.raisesOnly_ok ()
    · exact Checks.raisesOnly_error rfl

/-- A fee policy authorizes an execution: it is a quadratic policy for takers, and
known at the time. -/
structure Authorizes (policy : FeePolicySnapshot) (now : Datetime) : Prop where
  quadratic : policy.feeType = "quadratic"
  taker : policy.participantRole = .taker
  asOf : ∃ asOf ∈ policy.asOf, asOf ≤ now.instant
  cutoff : ∃ cutoff ∈ policy.cutoff, cutoff ≤ now.instant

theorem checkFeePolicy_eq_ok_iff {feePolicy : Option FeePolicySnapshot} {now : Datetime}
    {policy : FeePolicySnapshot} :
    checkFeePolicy feePolicy now = .ok policy ↔ feePolicy = some policy ∧ Authorizes policy now := by
  cases feePolicy with
  | none => simp [checkFeePolicy]
  | some given =>
      have hknown (moment : Option Instant) : moment.all (now.instant < ·) = false ↔
          ∃ known ∈ moment, known ≤ now.instant := by
        cases moment <;> simp
      simp only [checkFeePolicy, Checks.bind_eq_ok, rejectIf_eq_ok_iff, exists_const,
        decide_eq_false_iff_not, not_or, not_not,
        ne_eq, Except.ok.injEq, Option.some.injEq, Bool.not_eq_true, hknown]
      constructor
      · rintro ⟨⟨hquadratic, htaker⟩, ⟨hasOf, hcutoff⟩, rfl⟩
        exact ⟨rfl, hquadratic, htaker, hasOf, hcutoff⟩
      · rintro ⟨rfl, h⟩
        exact ⟨⟨h.quadratic, h.taker⟩, ⟨h.asOf, h.cutoff⟩, rfl⟩

theorem checkFeePolicy_rejects (feePolicy : Option FeePolicySnapshot) (now : Datetime) :
    Checks.RaisesOnly Interruption.IsRejection (checkFeePolicy feePolicy now) := by
  unfold checkFeePolicy
  split
  · exact Checks.raisesOnly_error trivial
  · exact Checks.raisesOnly_bind (rejectIf_rejects _ _) fun _ _ =>
      Checks.raisesOnly_bind (rejectIf_rejects _ _) fun _ _ => Checks.raisesOnly_ok _

/-- What holds of an order that is planned: the context and the fee policy are in
order, and the plan is made of the levels that the haircut leaves. -/
structure Plans (request : OrderRequest) (arguments : ExecutionArguments) (context : MarketContext)
    (order : PlannedOrder) : Prop where
  context_valid : broker.validateContext request context arguments.now = .ok ()
  policy : arguments.feePolicy = some order.policy
  authorizes : Authorizes order.policy arguments.now
  owned : request.action = .sell → arguments.portfolio.position request.positionKey ≠ none
  planned : ∃ levels first,
    applyBestLevelHaircut context.orderBook request.outcome request.action =
      .ok (levels, order.haircut) ∧
    plan request levels (arguments.portfolio.position request.positionKey) = .ok first ∧
    first ≠ [] ∧
    fitCashBudget request arguments.portfolio first order.policy =
      .ok (order.planned, order.calculations)
  complete : request.timeInForce = .fok → fokComplete request order.planned = .ok true

/-- The plan of an order, as it comes out of planning and trimming. -/
structure PlanSound (request : OrderRequest) (portfolio : ContractPortfolio) (order : PlannedOrder)
    (levels : List CanonicalLevel) : Prop where
  haircut : ∃ best, HaircutTaken best levels order.haircut
  plansFrom : PlansFrom 0 order.planned levels
  fees : List.Forall₂ (fun (item : PlannedFill) calculation =>
    FeeSound item.contractUnits item.priceMicros calculation) order.planned order.calculations
  asked : ∀ units ∈ request.contractUnits, plannedUnits order.planned ≤ units
  owned : request.action = .sell → ∀ current ∈ portfolio.position request.positionKey,
    plannedUnits order.planned ≤ current.contractUnits

theorem planSound {request : OrderRequest} {portfolio : ContractPortfolio}
    {orderBook : CanonicalOrderBook} {order : PlannedOrder} {levels : List CanonicalLevel}
    {first : List PlannedFill}
    (hhaircut : applyBestLevelHaircut orderBook request.outcome request.action =
      .ok (levels, order.haircut))
    (hfirst : plan request levels (portfolio.position request.positionKey) = .ok first)
    (hbudget : fitCashBudget request portfolio first order.policy =
      .ok (order.planned, order.calculations)) :
    PlanSound request portfolio order levels := by
  obtain ⟨planned, hplanned, hplans, hasked, howned⟩ := plan_isOk request levels
    (portfolio.position request.positionKey)
  rw [hfirst, Except.ok.injEq] at hplanned
  subst hplanned
  obtain ⟨items, calculations, hfitted, hplans', hless, hfees⟩ := fitCashBudget_isOk request
    portfolio order.policy hplans
  rw [hbudget, Except.ok.injEq, Prod.mk.injEq] at hfitted
  obtain ⟨rfl, rfl⟩ := hfitted
  refine ⟨?_, hplans', hfees, fun units hmem => hless.trans (hasked units hmem),
    fun haction current hmem => hless.trans (howned haction current hmem)⟩
  rcases applyBestLevelHaircut_cases orderBook request.outcome request.action with
    ⟨message, hraised⟩ | ⟨best, levels', audit, htaken, hsound⟩
  · rw [hhaircut] at hraised
    cases hraised
  · rw [hhaircut, Except.ok.injEq, Prod.mk.injEq] at htaken
    obtain ⟨rfl, rfl⟩ := htaken
    exact ⟨best, hsound⟩

theorem Plans.sound {request : OrderRequest} {arguments : ExecutionArguments}
    {context : MarketContext} {order : PlannedOrder}
    (h : broker.Plans request arguments context order) :
    ∃ levels, PlanSound request arguments.portfolio order levels := by
  obtain ⟨levels, first, hhaircut, hfirst, -, hbudget⟩ := h.planned
  exact ⟨levels, planSound hhaircut hfirst hbudget⟩

theorem checkFillOrKill_eq_ok_iff {request : OrderRequest} {planned : List PlannedFill}
    {haircut : HaircutAudit} {value : Unit} :
    checkFillOrKill request planned haircut = .ok value ↔
      (request.timeInForce = .fok → fokComplete request planned = .ok true) := by
  unfold checkFillOrKill
  split
  next hfok =>
    simp only [Checks.bind_eq_ok, rejectIf_eq_ok_iff, uncaught_eq_ok_iff, hfok, forall_const,
      decide_eq_false_iff_not, not_not]
    exact ⟨fun ⟨complete, hcomplete, h⟩ => h ▸ hcomplete, fun h => ⟨true, h, rfl⟩⟩
  next hother => simp [hother]

theorem planOrder_eq_ok_iff {request : OrderRequest} {arguments : ExecutionArguments}
    {context : MarketContext} {order : PlannedOrder} :
    broker.planOrder request arguments context = .ok order ↔
      broker.Plans request arguments context order := by
  unfold planOrder
  simp only [Checks.bind_eq_ok, rejectIf_eq_ok_iff, rejecting_eq_ok_iff, uncaught_eq_ok_iff,
    checkFeePolicy_eq_ok_iff, checkFillOrKill_eq_ok_iff, decide_eq_false_iff_not, Prod.exists,
    exists_const]
  constructor
  · rintro ⟨⟨⟩, hcontext, policy, ⟨hpolicy, hauthorizes⟩, levels, haircut, hhaircut, howned, first,
      hfirst, hnonempty, planned, calculations, hbudget, hcomplete, -, horder⟩
    cases horder
    exact ⟨hcontext, hpolicy, hauthorizes, fun haction hnone => howned ⟨haction, hnone⟩,
      ⟨levels, first, hhaircut, hfirst, hnonempty, hbudget⟩, hcomplete⟩
  · intro h
    obtain ⟨levels, first, hhaircut, hfirst, hnonempty, hbudget⟩ := h.planned
    have hsound := planSound hhaircut hfirst hbudget
    refine ⟨(), h.context_valid, order.policy, ⟨h.policy, h.authorizes⟩, levels, order.haircut,
      hhaircut, fun ⟨haction, hnone⟩ => h.owned haction hnone, first, hfirst, hnonempty,
      order.planned, order.calculations, hbudget, h.complete, ?_, rfl⟩
    rintro ⟨-, haction, hmore⟩
    obtain ⟨current, hcurrent⟩ := Option.ne_none_iff_exists'.mp (h.owned haction)
    rw [hcurrent, Option.all_some, decide_eq_true_eq] at hmore
    exact absurd (hsound.owned haction current hcurrent) (not_le.mpr hmore)

/-- A haircut that raises is caught. -/
theorem applyBestLevelHaircut_raisesOnly (orderBook : CanonicalOrderBook) (outcome : OutcomeSide)
    (action : Side) : Checks.RaisesOnly (fun error => error.isLiquidityEvidenceError = true)
      (applyBestLevelHaircut orderBook outcome action) := by
  rcases applyBestLevelHaircut_cases orderBook outcome action with
    ⟨message, hraised⟩ | ⟨_, _, _, htaken, -⟩
  · rw [hraised]
    exact Checks.raisesOnly_error rfl
  · rw [htaken]
    exact Checks.raisesOnly_ok _

/-- Whether a plan is complete can always be told. -/
theorem fokComplete_isOk (request : OrderRequest) {planned : List PlannedFill}
    {levels : List CanonicalLevel} (h : PlansFrom 0 planned levels) :
    ∃ complete, fokComplete request planned = .ok complete := by
  unfold fokComplete
  split
  · exact ⟨_, rfl⟩
  · obtain ⟨gross, hgross⟩ := Checks.mapM_isOk_iff.mpr fun item hmem => by
      obtain ⟨gross, hgross, -⟩ := grossCashMicros_isOk (h.chargeable item hmem)
      exact ⟨gross, hgross⟩
    exact ⟨_, Checks.bind_eq_ok.mpr ⟨gross, hgross, rfl⟩⟩

/-- An order that is not planned is rejected. -/
theorem planOrder_rejects (request : OrderRequest) (arguments : ExecutionArguments)
    (context : MarketContext) :
    Checks.RaisesOnly Interruption.IsRejection (broker.planOrder request arguments context) := by
  refine Checks.raisesOnly_bind (rejecting_rejects (broker.validateContext_raisesOnly _ _ _))
    fun _ _ => ?_
  refine Checks.raisesOnly_bind (checkFeePolicy_rejects _ _) fun policy _ => ?_
  refine Checks.raisesOnly_bind (rejecting_rejects (applyBestLevelHaircut_raisesOnly _ _ _))
    fun ⟨levels, haircut⟩ hhaircut => ?_
  refine Checks.raisesOnly_bind (rejectIf_rejects _ _) fun _ _ => ?_
  obtain ⟨first, hfirst, hplans, -⟩ := plan_isOk request levels
    (arguments.portfolio.position request.positionKey)
  refine Checks.raisesOnly_bind (uncaught_rejects ⟨first, hfirst⟩) fun first' hfirst' => ?_
  rw [uncaught_eq_ok_iff, hfirst, Except.ok.injEq] at hfirst'
  subst hfirst'
  refine Checks.raisesOnly_bind (rejectIf_rejects _ _) fun _ _ => ?_
  obtain ⟨planned, calculations, hbudget, hplans', -⟩ := fitCashBudget_isOk request
    arguments.portfolio policy hplans
  refine Checks.raisesOnly_bind (uncaught_rejects ⟨_, hbudget⟩) fun fitted hfitted => ?_
  rw [uncaught_eq_ok_iff, hbudget, Except.ok.injEq] at hfitted
  subst hfitted
  refine Checks.raisesOnly_bind (Checks.raisesOnly_ite ?_ (Checks.raisesOnly_ok ())) fun _ _ => ?_
  · exact Checks.raisesOnly_bind (uncaught_rejects (fokComplete_isOk request hplans')) fun _ _ =>
      rejectIf_rejects _ _
  · exact Checks.raisesOnly_bind (rejectIf_rejects _ _) fun _ _ => Checks.raisesOnly_ok _

/-! ## Checking a purchase -/

/-- A purchase is within cash, and leaves its market within the limit of an account
value that is not negative. -/
structure Funded (request : OrderRequest) (arguments : ExecutionArguments)
    (calculations : List FeeCalculation) : Prop where
  cash : grossTotal calculations + feeTotal calculations ≤ arguments.portfolio.cashMicros
  concentration : ∃ accountValue, arguments.accountValue = .ok accountValue ∧ 0 ≤ accountValue ∧
    (arguments.portfolio.marketCostBasisMicros request.marketRef + grossTotal calculations) *
        broker.maximumMarketConcentrationDenominator ≤
      accountValue * broker.maximumMarketConcentrationNumerator

end BinaryPaperBroker

theorem ContractPortfolio.marketCostBasisMicros_nonneg (portfolio : ContractPortfolio)
    (marketRef : MarketKey) : 0 ≤ portfolio.marketCostBasisMicros marketRef :=
  List.sum_nonneg fun basis hmem => by
    obtain ⟨position, -, rfl⟩ := List.mem_map.mp hmem
    exact position.grossCostBasisMicros_nonneg

theorem positionValue_nonneg {contractUnits priceMicros : ℤ} (hunits : 0 ≤ contractUnits)
    (hprice : 0 ≤ priceMicros) : 0 ≤ positionValue contractUnits priceMicros := by
  have := mul_nonneg hunits hprice
  unfold positionValue
  simp only
  split <;> omega

/-- The value of a portfolio is not negative. -/
theorem ContractPortfolio.accountValueMicros_nonneg {portfolio : ContractPortfolio}
    {contexts : Option ValuationContexts} {value : ℤ}
    (h : portfolio.accountValueMicros contexts = .ok value) : 0 ≤ value := by
  refine Checks.foldlM_invariant (fun _ total => 0 ≤ total) [] (fun _ total position next _ htotal
    hstep => ?_) h portfolio.cashMicros_nonneg
  have hbasis := position.grossCostBasisMicros_nonneg
  cases contexts with
  | none =>
      rw [Except.ok.injEq] at hstep
      omega
  | some contexts =>
      simp only at hstep
      split at hstep
      · cases hstep
      · split at hstep
        · cases hstep
        next level _ =>
          rw [Except.ok.injEq] at hstep
          have := positionValue_nonneg position.contractUnits_nonneg level.price_range.1
          omega

theorem ContractPortfolio.accountValueMicros_raisesOnly (portfolio : ContractPortfolio)
    (contexts : Option ValuationContexts) :
    RaisesValueError (portfolio.accountValueMicros contexts) := by
  refine Checks.raisesOnly_foldlM fun total position => ?_
  cases contexts with
  | none => exact Checks.raisesOnly_ok _
  | some contexts =>
      simp only
      split
      · exact Checks.raisesOnly_error rfl
      · split
        · exact Checks.raisesOnly_error rfl
        · exact Checks.raisesOnly_ok _

theorem ExecutionArguments.accountValue_raisesOnly (arguments : ExecutionArguments) :
    RaisesValueError arguments.accountValue := by
  unfold accountValue
  split
  · exact Checks.raisesOnly_ok _
  · exact arguments.portfolio.accountValueMicros_raisesOnly _

/-- Only an account value that is given can be negative. -/
theorem ExecutionArguments.accountValue_neg_iff {arguments : ExecutionArguments} :
    (∃ value, arguments.accountValue = .ok value ∧ value < 0) ↔
      ∃ value ∈ arguments.accountValueMicros, value < 0 := by
  unfold accountValue
  cases arguments.accountValueMicros with
  | none =>
      simp only [Option.not_mem_none, false_and, exists_const, iff_false]
      rintro ⟨value, hvalue, hneg⟩
      have := ContractPortfolio.accountValueMicros_nonneg hvalue
      omega
  | some value => simp

namespace BinaryPaperBroker

variable (broker : BinaryPaperBroker)

/-- The concentration of a purchase can be told unless the account value is negative. -/
theorem concentration_isOk_iff (request : OrderRequest) (portfolio : ContractPortfolio)
    {calculations : List FeeCalculation} (hgross : 0 ≤ grossTotal calculations)
    (accountValue : ℤ) :
    (∃ check, checkMarketConcentration accountValue
        (portfolio.marketCostBasisMicros request.marketRef) (grossTotal calculations)
        broker.maximumMarketConcentrationNumerator
        broker.maximumMarketConcentrationDenominator = .ok check) ↔ 0 ≤ accountValue :=
  checkMarketConcentration_isOk_iff (portfolio.marketCostBasisMicros_nonneg _) hgross
    broker.numerator_pos broker.fraction_le

theorem checkPurchase_isOk_iff {request : OrderRequest} {arguments : ExecutionArguments}
    {haircut : HaircutAudit} {calculations : List FeeCalculation}
    (hgross : 0 ≤ grossTotal calculations) :
    (∃ concentration, broker.checkPurchase request arguments haircut calculations =
        .ok concentration) ↔
      (request.action = .buy → broker.Funded request arguments calculations) := by
  unfold checkPurchase
  cases request.action with
  | sell => simp
  | buy =>
      simp only [Checks.bind_eq_ok, rejectIf_eq_ok_iff, rejecting_eq_ok_iff, uncaught_eq_ok_iff,
        exists_const, decide_eq_false_iff_not, not_lt, gt_iff_lt, not_not, forall_const]
      constructor
      · rintro ⟨concentration, hcash, accountValue, hvalue, check, hcheck, happroved, -⟩
        rw [checkMarketConcentration_approved hcheck, decide_eq_true_eq] at happroved
        exact ⟨hcash, accountValue, hvalue,
          (broker.concentration_isOk_iff request _ hgross accountValue).mp ⟨check, hcheck⟩,
          happroved⟩
      · rintro ⟨hcash, accountValue, hvalue, hnonneg, happroved⟩
        obtain ⟨check, hcheck⟩ := (broker.concentration_isOk_iff request arguments.portfolio hgross
          accountValue).mpr hnonneg
        refine ⟨some check, hcash, accountValue, hvalue, check, hcheck, ?_, rfl⟩
        rw [checkMarketConcentration_approved hcheck]
        simpa using happroved

/-- The checks of a purchase raise only for a given account value below zero. -/
theorem checkPurchase_raises_iff {request : OrderRequest} {arguments : ExecutionArguments}
    {haircut : HaircutAudit} {calculations : List FeeCalculation}
    (hgross : 0 ≤ grossTotal calculations) :
    (∃ error, broker.checkPurchase request arguments haircut calculations =
        .error (.raised error)) ↔
      request.action = .buy ∧
        grossTotal calculations + feeTotal calculations ≤ arguments.portfolio.cashMicros ∧
        ∃ value ∈ arguments.accountValueMicros, value < 0 := by
  unfold checkPurchase
  cases haction : request.action with
  | sell => simp
  | buy =>
      have hnoValueError : ∀ error, ¬ (arguments.accountValue = .error error ∧
          error.isValueError = false) := fun error ⟨hraised, hother⟩ => by
        rw [arguments.accountValue_raisesOnly error hraised] at hother
        cases hother
      simp only [Checks.bind_eq_error, rejectIf_eq_ok_iff, rejecting_eq_ok_iff, uncaught_eq_ok_iff,
        rejecting_raises_iff, uncaught_raises_iff, rejectIf_ne_raised, hnoValueError, false_or,
        exists_const, decide_eq_false_iff_not, not_lt, gt_iff_lt, reduceCtorEq, and_false, or_false,
        exists_false, true_and, ← arguments.accountValue_neg_iff]
      constructor
      · rintro ⟨error, hcash, accountValue, hvalue, hraised⟩
        refine ⟨hcash, accountValue, hvalue, not_le.mp fun hnonneg => ?_⟩
        obtain ⟨check, hcheck⟩ := (broker.concentration_isOk_iff request arguments.portfolio hgross
          accountValue).mpr hnonneg
        rw [hcheck] at hraised
        cases hraised
      · rintro ⟨hcash, accountValue, hvalue, hneg⟩
        cases hcheck : checkMarketConcentration accountValue
            (arguments.portfolio.marketCostBasisMicros request.marketRef)
            (grossTotal calculations) broker.maximumMarketConcentrationNumerator
            broker.maximumMarketConcentrationDenominator with
        | ok check =>
            exact absurd ((broker.concentration_isOk_iff request arguments.portfolio hgross
              accountValue).mp ⟨check, hcheck⟩) (not_le.mpr hneg)
        | error error => exact ⟨error, hcash, accountValue, hvalue, hcheck⟩

/-! ## Preparing an order -/

theorem PlanSound.calculations_nonneg {request : OrderRequest} {portfolio : ContractPortfolio}
    {order : PlannedOrder} {levels : List CanonicalLevel}
    (h : PlanSound request portfolio order levels) :
    ∀ calculation ∈ order.calculations,
      0 ≤ calculation.grossMicros ∧ 0 ≤ calculation.netFeeMicros := by
  intro calculation hmem
  obtain ⟨index, hindex, rfl⟩ := List.mem_iff_getElem.mp hmem
  have hfees := List.forall₂_iff_get.mp h.fees
  have hsound := hfees.2 index (hfees.1 ▸ hindex) hindex
  exact ⟨hsound.gross_nonneg, hsound.netFee_nonneg⟩

theorem PlanSound.grossTotal_nonneg {request : OrderRequest} {portfolio : ContractPortfolio}
    {order : PlannedOrder} {levels : List CanonicalLevel}
    (h : PlanSound request portfolio order levels) : 0 ≤ grossTotal order.calculations :=
  List.sum_nonneg fun gross hmem => by
    obtain ⟨calculation, hcalculation, rfl⟩ := List.mem_map.mp hmem
    exact (h.calculations_nonneg calculation hcalculation).1

/-- The order gets to its fills. -/
structure Prepares (request : OrderRequest) (arguments : ExecutionArguments)
    (context : MarketContext) (order : PlannedOrder) : Prop where
  plans : broker.Plans request arguments context order
  funded : request.action = .buy → broker.Funded request arguments order.calculations

theorem prepares_of_prepare {request : OrderRequest} {arguments : ExecutionArguments}
    {context : MarketContext} {prepared : PreparedOrder}
    (h : broker.prepare request arguments context = .ok prepared) :
    broker.Prepares request arguments context prepared.toPlannedOrder := by
  obtain ⟨order, horder, h⟩ := Checks.bind_eq_ok.mp h
  obtain ⟨concentration, hconcentration, h⟩ := Checks.bind_eq_ok.mp h
  cases h
  have hplans := broker.planOrder_eq_ok_iff.mp horder
  obtain ⟨levels, hsound⟩ := hplans.sound
  exact ⟨hplans, (broker.checkPurchase_isOk_iff hsound.grossTotal_nonneg).mp
    ⟨concentration, hconcentration⟩⟩

theorem exists_prepare_of_prepares {request : OrderRequest} {arguments : ExecutionArguments}
    {context : MarketContext} {order : PlannedOrder}
    (h : broker.Prepares request arguments context order) :
    ∃ prepared, broker.prepare request arguments context = .ok prepared ∧
      prepared.toPlannedOrder = order := by
  obtain ⟨levels, hsound⟩ := h.plans.sound
  obtain ⟨concentration, hconcentration⟩ :=
    (broker.checkPurchase_isOk_iff hsound.grossTotal_nonneg).mpr h.funded
  exact ⟨_, Checks.bind_eq_ok.mpr ⟨order, broker.planOrder_eq_ok_iff.mpr h.plans,
    Checks.bind_eq_ok.mpr ⟨concentration, hconcentration, rfl⟩⟩, rfl⟩

/-- The order is a purchase within cash, measured by a negative account value. -/
structure MeasuredBelowZero (request : OrderRequest) (arguments : ExecutionArguments)
    (context : MarketContext) : Prop where
  buy : request.action = .buy
  cash : ∃ order, broker.Plans request arguments context order ∧
    grossTotal order.calculations + feeTotal order.calculations ≤ arguments.portfolio.cashMicros
  negative : ∃ accountValue ∈ arguments.accountValueMicros, accountValue < 0

/-- Only the measure of a purchase raises. -/
theorem prepare_raises_iff {request : OrderRequest} {arguments : ExecutionArguments}
    {context : MarketContext} :
    (∃ error, broker.prepare request arguments context = .error (.raised error)) ↔
      broker.MeasuredBelowZero request arguments context := by
  constructor
  · rintro ⟨error, h⟩
    rcases Checks.bind_eq_error.mp h with hplan | ⟨order, horder, h⟩
    · exact absurd (broker.planOrder_rejects request arguments context _ hplan) not_false
    · have hplans := broker.planOrder_eq_ok_iff.mp horder
      obtain ⟨levels, hsound⟩ := hplans.sound
      rcases Checks.bind_eq_error.mp h with hraised | ⟨_, _, hok⟩
      · obtain ⟨hbuy, hcash, hnegative⟩ :=
          (broker.checkPurchase_raises_iff hsound.grossTotal_nonneg).mp ⟨error, hraised⟩
        exact ⟨hbuy, ⟨order, hplans, hcash⟩, hnegative⟩
      · cases hok
  · rintro ⟨hbuy, ⟨order, hplans, hcash⟩, hnegative⟩
    obtain ⟨levels, hsound⟩ := hplans.sound
    obtain ⟨error, herror⟩ := (broker.checkPurchase_raises_iff hsound.grossTotal_nonneg).mpr ⟨hbuy, hcash, hnegative⟩
    exact ⟨error, Checks.bind_eq_error.mpr (Or.inr ⟨order, broker.planOrder_eq_ok_iff.mpr hplans,
      Checks.bind_eq_error.mpr (Or.inl herror)⟩)⟩

end BinaryPaperBroker

end VTrade
