/-
# When accounting accepts an order

Fills that move cash the way their order does, a purchase within cash or a sale
of owned units, are not enough for `applyOrderFills`: a sale that charges fees
must release some, because the fee posting carries the entry fees that are
released and a posting refuses to carry none.

The fills that `execute` builds of a prepared order are of this kind, so its
accounting step accepts exactly the prepared orders that meet the condition.
-/

import VTrade.BrokerPreparation
import VTrade.OrderAcceptance

namespace VTrade

/-- Fills that the portfolio covers: each moves cash the way the order does, a
purchase is within cash and a sale is of owned units. -/
structure Covered (portfolio : ContractPortfolio) (request : OrderRequest)
    (fills : List EconomicFill) : Prop where
  movesCash : ∀ fill ∈ fills, MovesCash request fill.netCashDeltaMicros
  funded : request.action = .buy →
    0 ≤ portfolio.cashMicros + (fills.map fun fill => fill.netCashDeltaMicros).sum
  owned : request.action = .sell → ∃ position,
    portfolio.position request.positionKey = some position ∧ 0 < position.contractUnits ∧
      (fills.map fun fill => fill.contractUnits).sum ≤ position.contractUnits

/-- A sale of `parts` of the position that charges `fees`: its shares fit, and it
charges no fees unless it releases entry fees. -/
def SaleReleases (portfolio : ContractPortfolio) (request : OrderRequest) (parts : List ℤ)
    (fees : ℤ) : Prop :=
  ∀ position ∈ portfolio.position request.positionKey,
    SharesFit position.contractUnits position.grossCostBasisMicros parts ∧
      SharesFit position.contractUnits position.entryFeesMicros parts ∧
      (removedShares position.contractUnits position.entryFeesMicros parts = 0 → fees = 0)

/-- Covered fills are accepted exactly when they are the agent's, there are some,
they are timed, their cash deltas add up, and a sale releases the fees it needs. -/
theorem applyOrderFills_covered_isOk_iff {portfolio : ContractPortfolio} {request : OrderRequest}
    {fills : List EconomicFill} {operationId : String} {occurredAt : Datetime}
    (h : Covered portfolio request fills) :
    (∃ result, applyOrderFills portfolio request fills operationId occurredAt = .ok result) ↔
      request.agentId = portfolio.agentId ∧ fills ≠ [] ∧ occurredAt.isAware = true ∧
        (fills.map fun fill => fill.netCashDeltaMicros).sum =
          (fills.map (brokerCashDelta request)).sum ∧
        (request.action = .sell → SaleReleases portfolio request
          (fills.map fun fill => fill.contractUnits) (fills.map fun fill => fill.feeMicros).sum) := by
  cases haction : request.action with
  | buy =>
      have hnet : ∀ fill ∈ fills, fill.netCashDeltaMicros < 0 := fun fill hmem => by
        simpa only [MovesCash, haction] using h.movesCash fill hmem
      rw [applyOrderFills_buy_isOk_iff haction hnet (h.funded haction)]
      simp
  | sell =>
      have hnet : ∀ fill ∈ fills, 0 < fill.netCashDeltaMicros := fun fill hmem => by
        simpa only [MovesCash, haction] using h.movesCash fill hmem
      obtain ⟨position, hposition, -, hunits⟩ := h.owned haction
      rw [applyOrderFills_sell_isOk_iff haction hposition hunits hnet]
      simp [SaleReleases, hposition]

/-! ## The fills of a prepared order -/

/-- What a calculated fill moves of cash. -/
def calculatedCashDelta (request : OrderRequest) (calculation : FeeCalculation) : ℤ :=
  match request.action with
  | .buy => -calculation.grossMicros - calculation.netFeeMicros
  | .sell => calculation.grossMicros - calculation.netFeeMicros

/-- The fills of planned items agree with the plan, in order, and their cash deltas
with what they cost or bring. -/
structure FillsAgree (request : OrderRequest) (planned : List PlannedFill)
    (calculations : List FeeCalculation) (fills : List EconomicFill) : Prop where
  units : (fills.map fun fill => fill.contractUnits) =
    planned.map fun item => item.contractUnits
  gross : (fills.map fun fill => fill.grossCashMicros) =
    calculations.map fun calculation => calculation.grossMicros
  fees : (fills.map fun fill => fill.feeMicros) =
    calculations.map fun calculation => calculation.netFeeMicros
  net : (fills.map fun fill => fill.netCashDeltaMicros) =
    calculations.map (calculatedCashDelta request)
  adds_up : (fills.map fun fill => fill.netCashDeltaMicros) = fills.map (brokerCashDelta request)

/-- The fill of a planned item whose fee is calculated can be built. -/
theorem BinaryPaperBroker.fillFields_valid (request : OrderRequest) (now : Datetime)
    {operationId : String} (prepared : PreparedOrder) (index : ℕ) {item : PlannedFill}
    {calculation : FeeCalculation} (hoperation : Text.isBlank operationId = false)
    (hitem : Chargeable (item.contractUnits, item.priceMicros))
    (hfee : FeeSound item.contractUnits item.priceMicros calculation) :
    (fillFields request now operationId prepared index item calculation).postInit = .ok () :=
  EconomicFill.postInit_eq_ok_iff.mpr
    ⟨Text.not_isBlank_append_right (Text.not_isBlank_append_right hoperation), hitem.1, hitem.2,
      ⟨hfee.gross_nonneg, hfee.netFee_nonneg⟩, by simpa [fillFields] using hfee.netFee_nonneg,
      hfee.tradeFee_nonneg, hfee.roundingFee_nonneg, hfee.rebate_nonneg⟩

/-- The fills of a plan can be built. -/
theorem BinaryPaperBroker.brokerFills_isOk (digests : Digests) (request : OrderRequest)
    (now : Datetime) {operationId : String} (prepared : PreparedOrder) (index : ℕ)
    {planned : List PlannedFill} {calculations : List FeeCalculation}
    (hoperation : Text.isBlank operationId = false)
    (hplanned : ∀ item ∈ planned, Chargeable (item.contractUnits, item.priceMicros))
    (hfees : List.Forall₂ (fun (item : PlannedFill) calculation =>
      FeeSound item.contractUnits item.priceMicros calculation) planned calculations) :
    ∃ fills, brokerFills digests request now operationId prepared index planned calculations =
      .ok fills ∧ FillsAgree request planned calculations fills := by
  induction hfees generalizing index with
  | nil => exact ⟨[], rfl, rfl, rfl, rfl, rfl, rfl⟩
  | @cons item calculation planned calculations hfee hfees ih =>
      rw [List.forall_mem_cons] at hplanned
      have hvalid := fillFields_valid request now prepared index hoperation hplanned.1 hfee
      obtain ⟨fills, hfills, hagree⟩ := ih (index + 1) hplanned.2
      refine ⟨⟨fillFields request now operationId prepared index item calculation,
        digests.fill (fillFields request now operationId prepared index item calculation),
        hvalid⟩ :: fills, ?_, ?_⟩
      · rw [brokerFills]
        exact Checks.bind_eq_ok.mpr ⟨_, EconomicFill.make_eq_ok hvalid _,
          Checks.bind_eq_ok.mpr ⟨fills, hfills, rfl⟩⟩
      · constructor
        · rw [List.map_cons, List.map_cons, hagree.units]
          rfl
        · rw [List.map_cons, List.map_cons, hagree.gross]
          rfl
        · rw [List.map_cons, List.map_cons, hagree.fees]
          rfl
        · rw [List.map_cons, List.map_cons, hagree.net]
          cases haction : request.action <;> simp [fillFields, calculatedCashDelta, haction]
        · rw [List.map_cons, List.map_cons, hagree.adds_up]
          cases haction : request.action <;> simp [fillFields, brokerCashDelta, haction]

/-- A plan that moves cash the way the order does is covered, when it is funded or
owned. -/
theorem BinaryPaperBroker.PlanSound.covered {request : OrderRequest} {portfolio : ContractPortfolio}
    {order : PlannedOrder} {levels : List CanonicalLevel} {fills : List EconomicFill}
    (hsound : PlanSound request portfolio order levels)
    (h : FillsAgree request order.planned order.calculations fills)
    (hcash : request.action = .buy →
      grossTotal order.calculations + feeTotal order.calculations ≤ portfolio.cashMicros)
    (howned : request.action = .sell → portfolio.position request.positionKey ≠ none)
    (hfills : fills ≠ [])
    (hmoves : ∀ calculation ∈ order.calculations,
      MovesCash request (calculatedCashDelta request calculation)) :
    Covered portfolio request fills where
  movesCash fill hmem := by
    have hdelta := List.mem_map_of_mem (f := fun fill => fill.netCashDeltaMicros) hmem
    rw [h.net] at hdelta
    obtain ⟨calculation, hcalculation, hnet⟩ := List.mem_map.mp hdelta
    rw [← hnet]
    exact hmoves calculation hcalculation
  funded haction := by
    have hspent : (order.calculations.map (calculatedCashDelta request)).sum =
        -(grossTotal order.calculations + feeTotal order.calculations) := by
      rw [grossTotal, feeTotal, ← List.sum_map_add, List.sum_neg, List.map_map]
      refine congrArg List.sum (List.map_congr_left fun calculation _ => ?_)
      simp only [calculatedCashDelta, haction, Function.comp_apply]
      ring
    rw [h.net, hspent]
    have := hcash haction
    omega
  owned haction := by
    obtain ⟨position, hposition⟩ := Option.ne_none_iff_exists'.mp (howned haction)
    have hunits := hsound.owned haction position hposition
    have hpositive := sum_contractUnits_pos hfills
    rw [h.units] at hpositive ⊢
    exact ⟨position, hposition, lt_of_lt_of_le hpositive hunits, hunits⟩

/-! ## The accounting step -/

namespace BinaryPaperBroker

variable (broker : BinaryPaperBroker) (digests : Digests)

/-- The accounting step of an execution goes through. -/
def Books (request : OrderRequest) (arguments : ExecutionArguments) (prepared : PreparedOrder) :
    Prop :=
  let operationId := digests.operationUuid request.agentId request.idempotencyKey
  ∃ fills booked, brokerFills digests request arguments.now operationId prepared 0
      prepared.planned prepared.calculations = .ok fills ∧
    applyOrderFills arguments.portfolio request fills operationId arguments.now = .ok booked

/-- What the accounting step asks of a prepared order: it fills something, its fills
move cash the way it does, and a sale releases the fees it needs. -/
structure Bookable (request : OrderRequest) (portfolio : ContractPortfolio)
    (order : PlannedOrder) : Prop where
  agent : request.agentId = portfolio.agentId
  fills : order.planned ≠ []
  movesCash : ∀ calculation ∈ order.calculations,
    MovesCash request (calculatedCashDelta request calculation)
  releases : request.action = .sell → SaleReleases portfolio request
    (order.planned.map fun item => item.contractUnits) (feeTotal order.calculations)

/-- The accounting step accepts exactly the bookable orders. -/
theorem books_iff {request : OrderRequest} {arguments : ExecutionArguments}
    {context : MarketContext} {prepared : PreparedOrder}
    (h : broker.Prepares request arguments context prepared.toPlannedOrder)
    (haware : arguments.now.isAware = true) :
    Books digests request arguments prepared ↔
      Bookable request arguments.portfolio prepared.toPlannedOrder := by
  obtain ⟨levels, hsound⟩ := h.plans.sound
  obtain ⟨fills, hfills, hagree⟩ := brokerFills_isOk digests request arguments.now prepared 0
    (digests.operationUuid_not_isBlank request.agentId request.idempotencyKey)
    hsound.plansFrom.chargeable hsound.fees
  have hempty : fills = [] ↔ prepared.planned = [] := by
    rw [← List.map_eq_nil_iff, hagree.units, List.map_eq_nil_iff]
  have hcovered (hnonempty : fills ≠ []) (hmoves : ∀ calculation ∈ prepared.calculations,
      MovesCash request (calculatedCashDelta request calculation)) :=
    hsound.covered hagree (fun haction => (h.funded haction).cash) h.plans.owned hnonempty hmoves
  have hfees : (fills.map fun fill => fill.feeMicros).sum = feeTotal prepared.calculations := by
    rw [hagree.fees]
    rfl
  constructor
  · rintro ⟨fills', booked, hfills', hbooked⟩
    rw [hfills, Except.ok.injEq] at hfills'
    subst hfills'
    obtain ⟨-, hnonempty, -, loop, hrun, -⟩ := applyOrderFills_isOk_iff.mp ⟨booked, hbooked⟩
    have hmoves : ∀ calculation ∈ prepared.calculations,
        MovesCash request (calculatedCashDelta request calculation) := by
      intro calculation hmem
      have hdelta := List.mem_map_of_mem (f := calculatedCashDelta request) hmem
      rw [← hagree.net] at hdelta
      obtain ⟨fill, hfill, hnet⟩ := List.mem_map.mp hdelta
      rw [← hnet]
      exact movesCash_of_foldlM hrun fill hfill
    obtain ⟨hagent, -, -, -, hreleases⟩ :=
      (applyOrderFills_covered_isOk_iff (hcovered hnonempty hmoves)).mp ⟨booked, hbooked⟩
    rw [hagree.units, hfees] at hreleases
    exact ⟨hagent, fun hplanned => hnonempty (hempty.mpr hplanned), hmoves, hreleases⟩
  · rintro ⟨hagent, hplanned, hmoves, hreleases⟩
    have hnonempty : fills ≠ [] := fun hnil => hplanned (hempty.mp hnil)
    rw [← hagree.units, ← hfees] at hreleases
    obtain ⟨booked, hbooked⟩ := (applyOrderFills_covered_isOk_iff
      (hcovered hnonempty hmoves)).mpr ⟨hagent, hnonempty, haware, congrArg List.sum hagree.adds_up,
        hreleases⟩
    exact ⟨fills, booked, hfills, hbooked⟩

end BinaryPaperBroker

/-- Covered fills are accepted, and the accounting step of a prepared order that
fills something and moves cash the right way goes through, exactly when the order
is the agent's and a sale releases the fees it needs; fill lists from elsewhere
must also be non-empty, timed and add up. -/
theorem accounting_accepts_iff (digests : Digests) (broker : BinaryPaperBroker) :
    (∀ (portfolio : ContractPortfolio) (request : OrderRequest) (fills : List EconomicFill)
        (operationId : String) (occurredAt : Datetime), Covered portfolio request fills →
      ((∃ booked, applyOrderFills portfolio request fills operationId occurredAt = .ok booked) ↔
        request.agentId = portfolio.agentId ∧ fills ≠ [] ∧ occurredAt.isAware = true ∧
          (fills.map fun fill => fill.netCashDeltaMicros).sum =
            (fills.map (brokerCashDelta request)).sum ∧
          (request.action = .sell → SaleReleases portfolio request
            (fills.map fun fill => fill.contractUnits)
            (fills.map fun fill => fill.feeMicros).sum))) ∧
      ∀ (request : OrderRequest) (arguments : ExecutionArguments) (context : MarketContext)
        (prepared : PreparedOrder), broker.prepare request arguments context = .ok prepared →
        arguments.now.isAware = true → prepared.planned ≠ [] →
        (∀ calculation ∈ prepared.calculations,
          MovesCash request (calculatedCashDelta request calculation)) →
        (BinaryPaperBroker.Books digests request arguments prepared ↔
          request.agentId = arguments.portfolio.agentId ∧
            (request.action = .sell → SaleReleases arguments.portfolio request
              (prepared.planned.map fun item => item.contractUnits)
              (feeTotal prepared.calculations))) := by
  refine ⟨fun portfolio request fills operationId occurredAt hcovered =>
    applyOrderFills_covered_isOk_iff hcovered, ?_⟩
  intro request arguments context prepared hprepared haware hplanned hmoves
  rw [broker.books_iff digests (broker.prepares_of_prepare hprepared) haware]
  exact ⟨fun h => ⟨h.agent, h.releases⟩, fun h => ⟨h.1, hplanned, hmoves, h.2⟩⟩

namespace Sample

/-! ## A sample book, fee policy and broker -/

theorem one_numerator : (0 : ℤ) ≤ 1 := zero_le_one

theorem one_denominator : (0 : ℤ) < 1 := zero_lt_one

theorem feeOverride_absent : ∀ multiplier ∈ (none : Option (ℤ × ℤ)), 0 ≤ multiplier.1 ∧ 0 < multiplier.2 :=
  nofun

theorem not_cleared : false = true → (none : Option (ℤ × ℤ)) = none := fun _ => rfl

theorem no_rate : ∀ rate ∈ (none : Option (ℤ × ℤ)), 0 < rate.1 ∧ 0 < rate.2 := nofun

theorem quadratic_nonblank : Text.isBlank "quadratic" = false := by decide

theorem moment_within : ∀ asOf ∈ some moment.instant, ∀ cutoff ∈ some moment.instant,
    asOf ≤ cutoff := by
  simp

/-- A policy that charges the official rate, or nothing. -/
def feePolicy (waiver : Bool) : FeePolicySnapshot where
  participantRole := .taker
  seriesMultiplierNumerator := 1
  seriesMultiplierDenominator := 1
  eventOverride := none
  eventOverrideCleared := false
  rateOverride := none
  waiver := waiver
  asOf := some moment.instant
  cutoff := some moment.instant
  feeType := "quadratic"
  fingerprint := digest
  evidenceReferences := []
  series_numerator := one_numerator
  series_denominator := one_denominator
  override_valid := feeOverride_absent
  override_cleared := not_cleared
  rate_valid := no_rate
  feeType_nonblank := quadratic_nonblank
  asOf_le_cutoff := moment_within

/-- A hundred units at a price. -/
def level (price : ℤ) (h : 0 ≤ price ∧ price ≤ 1000000) : CanonicalLevel :=
  ⟨price, 100, h, hundred_pos⟩

/-- A book with a hundred units at each of three prices of either side of YES. -/
def book : CanonicalOrderBook where
  marketKey := market
  yesBids := [level 390000 (by decide), level 380000 (by decide), level 370000 (by decide)]
  yesAsks := [level 400000 (by decide), level 410000 (by decide), level 420000 (by decide)]
  noBids := []
  noAsks := []
  observedAt := moment.instant
  cutoff := moment.instant
  snapshotId := "book"
  observed_le_cutoff := le_refl _
  yesBids_descending := by simp [level]
  yesAsks_ascending := by simp [level]
  noBids_descending := .nil
  noAsks_ascending := .nil

theorem no_feeStatus : ∀ feeStatus ∈ (none : Option FeePolicyStatus),
    if feeStatus = .available then
      (none : Option FeePolicySnapshot).isSome ∧ (none : Option String) = none
    else (none : Option FeePolicySnapshot) = none ∧ (none : Option String).isSome := nofun

theorem active_isLifecycle : MarketStatus.active.isLifecycle = true := rfl

theorem same_sampleMarket : market = market := rfl

def context : MarketContext where
  market := {
    key := market
    status := .active
    eligible := true
    priceGrid := ⟨[cents], cents_ne_nil, cents_chain⟩
    feePolicy := none
    feePolicyStatus := none
    feePolicyReason := none
    snapshotId := "market"
    status_lifecycle := active_isLifecycle
    reason_nonblank := no_text_isBlank
    feePolicy_complete := no_feeStatus }
  orderBook := book
  same_market := same_sampleMarket

def arguments (portfolio : ContractPortfolio) (waiver : Bool) : ExecutionArguments where
  context := some context
  portfolio := portfolio
  feePolicy := some (feePolicy waiver)
  frozenContextId := none
  executionContextId := none
  now := moment
  pending := false
  accountValueMicros := none
  valuationContexts := none

def broker : BinaryPaperBroker :=
  ⟨15, 100, 15000000, by decide, hundred_pos, by decide, by decide⟩

def digests : Digests :=
  ⟨fun _ _ => digest, fun _ => digest, fun _ => digest, fun _ => digest⟩

/-- A hundred units bought without a fee. -/
def feelessPosition : ContractPosition :=
  ⟨{ marketRef := market, outcome := .yes, contractUnits := 100, grossCostBasisMicros := 400000,
     updatedAt := moment.instant }, by decide⟩

def feeless : ContractPortfolio :=
  ⟨{ agentId := "agent", cashMicros := 1000000000, positions := [feelessPosition] }, by decide⟩

/-- The sale of all of it. -/
def sale : OrderRequest := request (market, .yes) .sell 100 hundred_pos

/-- A purchase of all that the haircut leaves of the book. -/
def purchase : OrderRequest := request (market, .yes) .buy 200 twoHundred_pos

/-- A purchase of more than that. -/
def oversized : OrderRequest := request (market, .yes) .buy 300 (by decide)

end Sample

theorem accounting_accepts_purchase :
    (∃ booked, applyOrderFills Sample.portfolio Sample.purchase
        [⟨Sample.fillFields .buy 200 400000 800000 100, Sample.digest, by decide⟩] "operation"
        Sample.moment = .ok booked) ∧
      ∃ prepared, Sample.broker.prepare Sample.purchase (Sample.arguments Sample.portfolio false)
          Sample.context = .ok prepared ∧
        BinaryPaperBroker.Books Sample.digests Sample.purchase
          (Sample.arguments Sample.portfolio false) prepared := by
  obtain ⟨prepared, hprepared, htest⟩ := Checks.exists_ok_of_any
    (Sample.broker.prepare Sample.purchase (Sample.arguments Sample.portfolio false)
      Sample.context)
    (fun prepared => prepared.planned ≠ [] ∧ ∀ calculation ∈ prepared.calculations,
      calculatedCashDelta Sample.purchase calculation < 0)
    (by decide +kernel)
  obtain ⟨hplanned, hmoves⟩ := of_decide_eq_true htest
  obtain ⟨hfills, hexecutes⟩ := accounting_accepts_iff Sample.digests Sample.broker
  refine ⟨(hfills _ _ _ _ _ ⟨?_, fun _ => by decide, fun haction => by cases haction⟩).mpr
    ⟨rfl, by simp, rfl, by decide, fun haction => by cases haction⟩, prepared, hprepared,
    (hexecutes _ _ _ _ hprepared rfl hplanned hmoves).mpr ⟨rfl, fun haction => by cases haction⟩⟩
  simp [MovesCash, Sample.purchase, Sample.request, Sample.fillFields]

set_option maxRecDepth 10000 in
/-- A position bought without fees cannot be sold with one, neither by fills that it
covers nor by the broker, which has found it owned. -/
theorem feeless_sale_refused :
    (∃ fill : EconomicFill, Covered Sample.feeless Sample.sale [fill] ∧
      applyOrderFills Sample.feeless Sample.sale [fill] "operation" Sample.moment =
        .error (.valueError "entry-fee deltas must be non-zero integers")) ∧
      ((Sample.broker.execute Sample.digests .empty Sample.sale
        (Sample.arguments Sample.feeless false)).2.toOption.any fun result =>
          result.errorCode = some .insufficientContracts ∧
            result.message = some "entry-fee deltas must be non-zero integers") = true := by
  refine ⟨⟨⟨Sample.fillFields .sell 100 500000 500000 50, Sample.digest, by decide⟩,
    ⟨by simp [MovesCash, Sample.sale, Sample.request, Sample.fillFields],
      fun haction => (by cases haction), fun _ => ⟨Sample.feelessPosition, rfl, by decide, by decide⟩⟩, by decide⟩, ?_⟩
  decide +kernel

end VTrade
