/-
# Want of cash, want of contracts

`execute` tells a want of cash from a want of contracts by the text of what accounting raises.
A purchase of which not even one unit can be paid is left without fills, and the text that
accounting has for that says nothing of cash; a sale that brings in nothing after its fee is
refused in words that do.  So either code comes for the other side of the market, and exactly
when is said here of the order, the portfolio and the book.
-/

import VTrade.BookPlans

namespace VTrade

/-! ## What accounting says -/

/-- The text of an error says something of cash. -/
def SaysCash (error : Raised) : Prop := Text.contains error.message "cash" = true

/-- What does not concern cash is raised without a word of it. -/
abbrev SaysNothingOfCash {α : Type} (x : Except Raised α) : Prop :=
  Checks.RaisesOnly (fun error => ¬ SaysCash error) x

/-- The texts of accounting that say something of cash. -/
theorem saysCash_texts : ∀ text ∈ ["portfolio cash cannot be negative",
    "BUY fill must have a negative cash delta", "SELL fill must have a positive cash delta",
    "fill accounting would make cash negative"], SaysCash (.valueError text) := by
  unfold SaysCash
  decide +kernel

/-- Those that do not, besides the checks of positions and postings. -/
theorem not_saysCash_texts : ∀ text ∈ ["ledger entry requires postings",
    "ledger entry postings must balance to zero", "ledger entry timestamps must be timezone-aware",
    "order agent does not own the portfolio",
    "financial accounting requires at least one fill"], ¬ SaysCash (.valueError text) := by
  unfold SaysCash
  decide +kernel

theorem ContractPosition.make_saysNothingOfCash (fields : ContractPositionFields) :
    SaysNothingOfCash (ContractPosition.make fields) := by
  refine Checks.raisesOnly_build (Checks.raisesOnly_raiseFirst ?_)
  simp only [List.forall_mem_cons, List.not_mem_nil, false_implies, implies_true, and_true]
  unfold SaysCash
  decide +kernel

theorem Posting.make_saysNothingOfCash (fields : PostingFields) :
    SaysNothingOfCash (Posting.make fields) := by
  refine Checks.raisesOnly_build (Checks.raisesOnly_raiseFirst ?_)
  simp only [List.forall_mem_cons, List.not_mem_nil, false_implies, implies_true, and_true]
  unfold SaysCash
  decide +kernel

theorem LedgerEntry.make_saysNothingOfCash (id agentId idempotencyKey eventType : String)
    (occurredAt : Datetime) (postings : List Posting) :
    SaysNothingOfCash
      (LedgerEntry.make id agentId idempotencyKey eventType occurredAt postings) := by
  unfold LedgerEntry.make
  repeat' split
  · exact Checks.raisesOnly_error (not_saysCash_texts _ (by simp))
  · exact Checks.raisesOnly_error (not_saysCash_texts _ (by simp))
  · exact Checks.raisesOnly_error (not_saysCash_texts _ (by simp))
  · exact Checks.raisesOnly_ok _

/-- A portfolio that is refused for its cash says so. -/
theorem replacePosition_saysCash (portfolio : ContractPortfolio) (position : ContractPosition)
    (cashMicros realizedPnlMicros : ℤ) :
    Checks.RaisesOnly SaysCash
      (replacePosition portfolio position cashMicros realizedPnlMicros) := by
  by_cases hcash : 0 ≤ cashMicros
  · obtain ⟨updated, hupdated⟩ :=
      replacePosition_isOk portfolio position realizedPnlMicros hcash
    rw [hupdated]
    exact Checks.raisesOnly_ok _
  · have hagent := portfolio.agentId_ne_empty
    refine Checks.raisesOnly_build ?_
    unfold ContractPortfolioFields.postInit
    simp only [hagent, decide_false, Checks.raiseFirst, not_le.mp hcash, decide_true]
    exact Checks.raisesOnly_error (saysCash_texts _ (by simp))

/-- A fill of a purchase is refused for cash or not at all. -/
theorem applyBuyFill_saysCash (request : OrderRequest) (loop : FillLoop) (fill : EconomicFill) :
    Checks.RaisesOnly SaysCash (applyBuyFill request loop fill) := by
  have hupdated := ContractPosition.make_eq_ok
    (boughtPosition_valid request (loop.working.position request.positionKey) fill)
  unfold applyBuyFill
  rw [hupdated]
  refine Checks.raisesOnly_bind (Checks.raisesOnly_ok _) fun updated _ => ?_
  refine Checks.raisesOnly_ite (Checks.raisesOnly_error (saysCash_texts _ (by simp))) ?_
  refine Checks.raisesOnly_bind (replacePosition_saysCash _ _ _ _) fun working _ => ?_
  exact Checks.raisesOnly_ite (Checks.raisesOnly_error (saysCash_texts _ (by simp)))
    (Checks.raisesOnly_ok _)

/-- A fill of a sale, before which a position has some units, cost and entry fees, that brings in
nothing, with the shares of the fills up to it fitting the position. -/
def BringsNothing (units basis fees : ℤ) : List (ℤ × ℤ) → Prop
  | [] => False
  | (sold, net) :: rest =>
      (share basis sold units ≤ basis ∧ share fees sold units ≤ fees) ∧
        (net ≤ 0 ∨ BringsNothing (units - sold) (basis - share basis sold units)
          (fees - share fees sold units) rest)

theorem BringsNothing.exists_nonpos {units basis fees : ℤ} {fills : List (ℤ × ℤ)}
    (h : BringsNothing units basis fees fills) : ∃ fill ∈ fills, fill.2 ≤ 0 := by
  induction fills generalizing units basis fees with
  | nil => exact h.elim
  | cons fill rest ih =>
      rcases h.2 with hnet | hlater
      · exact ⟨fill, List.mem_cons_self, hnet⟩
      · obtain ⟨other, hmem, hnet⟩ := ih hlater
        exact ⟨other, List.mem_cons_of_mem _ hmem, hnet⟩

/-- The units that a fill sells and the cash that it brings. -/
def soldFor (fill : EconomicFill) : ℤ × ℤ := (fill.contractUnits, fill.netCashDeltaMicros)

/-- A fill of owned units is refused for cash when it brings none, and only then. -/
theorem applySellFill_error {request : OrderRequest} {loop : FillLoop}
    {current : ContractPosition} {fill : EconomicFill} {error : Raised}
    (hcurrent : loop.working.position request.positionKey = some current)
    (hunits : fill.contractUnits ≤ current.contractUnits)
    (h : applySellFill request loop fill = .error error) :
    SaysCash error ↔
      (share current.grossCostBasisMicros fill.contractUnits current.contractUnits ≤
          current.grossCostBasisMicros ∧
        share current.entryFeesMicros fill.contractUnits current.contractUnits ≤
          current.entryFeesMicros) ∧ fill.netCashDeltaMicros ≤ 0 := by
  have hpos := fill.contractUnits_pos
  have hbasis := proRata_eq_ok_iff.mpr ⟨current.grossCostBasisMicros_nonneg, hpos.le,
    lt_of_lt_of_le hpos hunits, hunits, rfl⟩
  have hfees := proRata_eq_ok_iff.mpr ⟨current.entryFeesMicros_nonneg, hpos.le,
    lt_of_lt_of_le hpos hunits, hunits, rfl⟩
  have hvalid := soldPosition_valid_iff request hunits
  by_cases hshares : share current.grossCostBasisMicros fill.contractUnits
        current.contractUnits ≤ current.grossCostBasisMicros ∧
      share current.entryFeesMicros fill.contractUnits current.contractUnits ≤
        current.entryFeesMicros
  · by_cases hnet : 0 < fill.netCashDeltaMicros
    · obtain ⟨next, hnext⟩ := (applySellFill_isOk_iff hcurrent hunits hnet).mpr hshares
      rw [hnext] at h
      cases h
    · unfold applySellFill at h
      rw [hcurrent] at h
      simp only [if_neg (not_lt.mpr hunits), hbasis, hfees, bind, Except.bind,
        ContractPosition.make_eq_ok (hvalid.mpr hshares), if_pos (not_lt.mp hnet)] at h
      cases h
      exact iff_of_true (saysCash_texts _ (by simp)) ⟨hshares, not_lt.mp hnet⟩
  · refine iff_of_false ?_ fun hboth => hshares hboth.1
    unfold applySellFill at h
    rw [hcurrent] at h
    simp only [if_neg (not_lt.mpr hunits)] at h
    obtain ⟨_, hremoved, h⟩ := (Checks.bind_eq_error.mp h).resolve_left (by simp [hbasis])
    obtain rfl := Except.ok.inj (hbasis.symm.trans hremoved)
    obtain ⟨_, hreleased, h⟩ := (Checks.bind_eq_error.mp h).resolve_left (by simp [hfees])
    obtain rfl := Except.ok.inj (hfees.symm.trans hreleased)
    rcases Checks.bind_eq_error.mp h with hposition | ⟨updated, hupdated, -⟩
    · exact ContractPosition.make_saysNothingOfCash _ error hposition
    · have hfits := updated.valid
      rw [ContractPosition.make_eq_ok_iff.mp hupdated] at hfits
      exact absurd (hvalid.mp hfits) hshares

/-- The fills of a sale of owned units are refused for cash when one brings in nothing. -/
theorem sellLoop_error {request : OrderRequest} (haction : request.action = .sell)
    {fills : List EconomicFill} {loop : FillLoop} {current : ContractPosition} {error : Raised}
    (hcurrent : loop.working.position request.positionKey = some current)
    (hunits : (fills.map fun fill => fill.contractUnits).sum ≤ current.contractUnits)
    (h : fills.foldlM (applyFill request) loop = .error error) :
    SaysCash error ↔ BringsNothing current.contractUnits current.grossCostBasisMicros
      current.entryFeesMicros (fills.map soldFor) := by
  induction fills generalizing loop current with
  | nil => cases h
  | cons fill rest ih =>
      have hrestUnits : ∀ units ∈ rest.map fun fill => fill.contractUnits, 0 < units := by
        intro units hmem
        obtain ⟨other, -, rfl⟩ := List.mem_map.mp hmem
        exact other.contractUnits_pos
      rw [List.map_cons, List.sum_cons] at hunits
      have hrestSum := List.sum_nonneg fun units hmem => (hrestUnits units hmem).le
      have hfillUnits : fill.contractUnits ≤ current.contractUnits := by omega
      rw [List.foldlM_cons] at h
      simp only [applyFill, haction] at h
      rw [List.map_cons]
      rcases Checks.bind_eq_error.mp h with hfirst | ⟨next, hfirst, hrest⟩
      · rw [applySellFill_error hcurrent hfillUnits hfirst]
        refine ⟨fun hboth => ⟨hboth.1, .inl hboth.2⟩, fun hnothing => ⟨hnothing.1, ?_⟩⟩
        by_contra hnet
        obtain ⟨next, hnext⟩ :=
          (applySellFill_isOk_iff hcurrent hfillUnits (not_le.mp hnet)).mpr hnothing.1
        rw [hnext] at hfirst
        cases hfirst
      · have hstep : applyFill request loop fill = .ok next := by
          simp only [applyFill, haction, hfirst]
        have hnet : 0 < fill.netCashDeltaMicros := by
          have hmoves := movesCash_of_foldlM
            (Checks.foldlM_cons_eq_ok.mpr ⟨next, hstep, rfl⟩) fill (List.mem_singleton_self fill)
          simpa only [MovesCash, haction] using hmoves
        have hshares := (applySellFill_isOk_iff hcurrent hfillUnits hnet).mp ⟨next, hfirst⟩
        obtain ⟨updated, hfields, hposition, -, -⟩ := applySellFill_position hcurrent hfirst
        have hleft : updated.contractUnits = current.contractUnits - fill.contractUnits := by
          rw [hfields]
          rfl
        by_cases hclosed : updated.contractUnits = 0
        · -- The fill sold everything, so no fill can follow it.
          have hempty : rest = [] := by
            by_contra hmore
            have hpos := List.sum_pos _ hrestUnits (by simpa using hmore)
            omega
          subst hempty
          cases hrest
        · rw [if_pos hclosed] at hposition
          have hlater := ih hposition (by omega) (by simpa only [applyFill, haction] using hrest)
          rw [hfields] at hlater
          rw [hlater]
          refine ⟨fun hnothing => ⟨hshares, .inr hnothing⟩, fun hnothing => ?_⟩
          exact hnothing.2.resolve_left (not_le.mpr hnet)

/-- After the fills nothing is refused for cash. -/
theorem applyOrderFills_after {portfolio : ContractPortfolio} {request : OrderRequest}
    {fills : List EconomicFill} {operationId : String} {occurredAt : Datetime} {error : Raised}
    (hagent : request.agentId = portfolio.agentId) (hfills : fills ≠ [])
    (haware : occurredAt.isAware = true)
    (h : applyOrderFills portfolio request fills operationId occurredAt = .error error) :
    fills.foldlM (applyFill request) (FillLoop.start portfolio) = .error error ∨
      ¬ SaysCash error ∧
        ∃ loop, fills.foldlM (applyFill request) (FillLoop.start portfolio) = .ok loop := by
  unfold applyOrderFills at h
  rw [if_neg (not_not.mpr hagent), if_neg hfills, if_neg (by simp [haware])] at h
  rcases Checks.bind_eq_error.mp h with hloop | ⟨loop, hloop, h⟩
  · exact .inl hloop
  · refine .inr ⟨?_, loop, hloop⟩
    rcases Checks.bind_eq_error.mp h with hpostings | ⟨postings, -, h⟩
    · exact Checks.raisesOnly_mapM Posting.make_saysNothingOfCash error hpostings
    · rcases Checks.bind_eq_error.mp h with hentry | ⟨entry, -, h⟩
      · exact LedgerEntry.make_saysNothingOfCash _ _ _ _ _ _ error hentry
      · -- The portfolio after the loop is one with another version.
        have hvalid : ContractPortfolioFields.postInit {
            agentId := loop.working.agentId
            cashMicros := loop.working.cashMicros
            positions := sortPositions loop.working.positions
            version := portfolio.version + 1
            reconciliationBlocked := portfolio.reconciliationBlocked
            realizedPnlMicros := loop.working.realizedPnlMicros } = .ok () :=
          ContractPortfolio.postInit_eq_ok_iff.mpr ⟨loop.working.agentId_ne_empty,
            loop.working.cashMicros_nonneg, by have := portfolio.version_nonneg; simp only; omega,
            ((sortPositions_perm _).map ContractPosition.key).nodup_iff.mpr
              loop.working.unique_keys⟩
        rw [ContractPortfolio.make_eq_ok hvalid] at h
        cases h

/-! ## A prepared order -/

namespace BinaryPaperBroker

variable (broker : BinaryPaperBroker) (digests : Digests)

section Prepared

variable {request : OrderRequest} {arguments : ExecutionArguments} {context : MarketContext}
  {prepared : PreparedOrder} {fills : List EconomicFill} {error : Raised}

/-- The units of the fills of a plan and the cash that they bring. -/
def plannedSales (request : OrderRequest) (planned : List PlannedFill)
    (calculations : List FeeCalculation) : List (ℤ × ℤ) :=
  (planned.map fun item => item.contractUnits).zip
    (calculations.map (calculatedCashDelta request))

theorem sales_of_fillsAgree {order : PlannedOrder}
    (h : FillsAgree request order.planned order.calculations fills) :
    fills.map soldFor = plannedSales request order.planned order.calculations := by
  unfold plannedSales
  rw [← h.units, ← h.net, List.zip_map']
  rfl

/-- The fills that accounting gets are those of the plan. -/
theorem fills_of_prepares (h : broker.Prepares request arguments context prepared.toPlannedOrder) :
    ∃ fills, brokerFills digests request arguments.now
        (digests.operationUuid request.agentId request.idempotencyKey) prepared 0 prepared.planned
        prepared.calculations = .ok fills ∧
      FillsAgree request prepared.planned prepared.calculations fills ∧
      (fills = [] ↔ prepared.planned = []) := by
  obtain ⟨levels, hsound⟩ := h.plans.sound
  obtain ⟨fills, hfills, hagree⟩ := brokerFills_isOk digests request arguments.now prepared 0
    (digests.operationUuid_not_isBlank request.agentId request.idempotencyKey)
    hsound.plansFrom.chargeable hsound.fees
  refine ⟨fills, hfills, hagree, ?_⟩
  rw [← List.map_eq_nil_iff, hagree.units, List.map_eq_nil_iff]

/-- What accounting refuses an order without fills, or of another agent, with. -/
theorem applyOrderFills_unowned {portfolio : ContractPortfolio} {operationId : String}
    {occurredAt : Datetime}
    (h : request.agentId ≠ portfolio.agentId ∨ fills = []) :
    ∃ error, applyOrderFills portfolio request fills operationId occurredAt = .error error ∧
      ¬ SaysCash error := by
  unfold applyOrderFills
  by_cases hagent : request.agentId ≠ portfolio.agentId
  · rw [if_pos hagent]
    exact ⟨_, rfl, not_saysCash_texts _ (by simp)⟩
  · rw [if_neg hagent, if_pos (h.resolve_left hagent)]
    exact ⟨_, rfl, not_saysCash_texts _ (by simp)⟩

/-- A prepared order that accounting refuses after its loop does not move cash the way it
should, or its position does not release the fees. -/
theorem loop_ne_ok (h : broker.Prepares request arguments context prepared.toPlannedOrder)
    (haware : arguments.now.isAware = true)
    (hagent : request.agentId = arguments.portfolio.agentId) (hplanned : prepared.planned ≠ [])
    (hbuy : request.action = .buy)
    (hfills : brokerFills digests request arguments.now
      (digests.operationUuid request.agentId request.idempotencyKey) prepared 0 prepared.planned
      prepared.calculations = .ok fills)
    (hrefused : applyOrderFills arguments.portfolio request fills
      (digests.operationUuid request.agentId request.idempotencyKey) arguments.now =
        .error error) (loop : FillLoop) :
    fills.foldlM (applyFill request) (FillLoop.start arguments.portfolio) ≠ .ok loop := by
  intro hloop
  obtain ⟨fills', hfills', hagree, -⟩ := broker.fills_of_prepares digests h
  obtain rfl := Except.ok.inj (hfills.symm.trans hfills')
  have hbookable : Bookable request arguments.portfolio prepared.toPlannedOrder := by
    refine ⟨hagent, hplanned, fun calculation hmem => ?_, fun hsell => ?_⟩
    · have hdelta := List.mem_map_of_mem (f := calculatedCashDelta request) hmem
      rw [← hagree.net] at hdelta
      obtain ⟨fill, hfill, hnet⟩ := List.mem_map.mp hdelta
      rw [← hnet]
      exact movesCash_of_foldlM hloop fill hfill
    · rw [hbuy] at hsell
      cases hsell
  obtain ⟨other, booked, hother, hbooked⟩ := (broker.books_iff digests h haware).mpr hbookable
  obtain rfl := Except.ok.inj (hfills.symm.trans hother)
  rw [hrefused] at hbooked
  cases hbooked

/-- A purchase that gets to its fills is refused without a word of cash when it is another
agent's or fills nothing, and only then. -/
theorem purchase_refused
    (h : broker.Prepares request arguments context prepared.toPlannedOrder)
    (haware : arguments.now.isAware = true) (hbuy : request.action = .buy)
    (hfills : brokerFills digests request arguments.now
      (digests.operationUuid request.agentId request.idempotencyKey) prepared 0 prepared.planned
      prepared.calculations = .ok fills)
    (hrefused : applyOrderFills arguments.portfolio request fills
      (digests.operationUuid request.agentId request.idempotencyKey) arguments.now =
        .error error) :
    ¬ SaysCash error ↔
      request.agentId ≠ arguments.portfolio.agentId ∨ prepared.planned = [] := by
  obtain ⟨fills', hfills', -, hempty⟩ := broker.fills_of_prepares digests h
  obtain rfl := Except.ok.inj (hfills.symm.trans hfills')
  constructor
  · intro hsilent
    by_contra hcase
    rw [not_or, not_not] at hcase
    obtain ⟨hagent, hplanned⟩ := hcase
    rcases applyOrderFills_after hagent (fun hnil => hplanned (hempty.mp hnil)) haware hrefused with
      hloop | ⟨-, loop, hloop⟩
    · refine hsilent (Checks.raisesOnly_foldlM (fun loop fill => ?_) error hloop)
      simp only [applyFill, hbuy]
      exact applyBuyFill_saysCash request loop fill
    · exact broker.loop_ne_ok digests h haware hagent hplanned hbuy hfills hrefused loop hloop
  · intro hcase
    obtain ⟨raised, hraised, hsilent⟩ := applyOrderFills_unowned (hcase.imp_right hempty.mpr)
    rw [hraised] at hrefused
    cases hrefused
    exact hsilent

/-- A sale that gets to its fills is refused in words of cash when it is the agent's own and one of
its fills brings in nothing, and only then. -/
theorem sale_refused
    (h : broker.Prepares request arguments context prepared.toPlannedOrder)
    (haware : arguments.now.isAware = true) (hsell : request.action = .sell)
    {position : ContractPosition}
    (hposition : arguments.portfolio.position request.positionKey = some position)
    (hfills : brokerFills digests request arguments.now
      (digests.operationUuid request.agentId request.idempotencyKey) prepared 0 prepared.planned
      prepared.calculations = .ok fills)
    (hrefused : applyOrderFills arguments.portfolio request fills
      (digests.operationUuid request.agentId request.idempotencyKey) arguments.now =
        .error error) :
    SaysCash error ↔ request.agentId = arguments.portfolio.agentId ∧
      BringsNothing position.contractUnits position.grossCostBasisMicros position.entryFeesMicros
        (plannedSales request prepared.planned prepared.calculations) := by
  obtain ⟨fills', hfills', hagree, hempty⟩ := broker.fills_of_prepares digests h
  obtain rfl := Except.ok.inj (hfills.symm.trans hfills')
  obtain ⟨levels, hsound⟩ := h.plans.sound
  have hunits : (fills.map fun fill => fill.contractUnits).sum ≤ position.contractUnits := by
    rw [hagree.units]
    exact hsound.owned hsell position hposition
  rw [← sales_of_fillsAgree hagree]
  by_cases hcase : request.agentId ≠ arguments.portfolio.agentId ∨ fills = []
  · obtain ⟨raised, hraised, hsilent⟩ := applyOrderFills_unowned hcase
    rw [hraised] at hrefused
    cases hrefused
    refine iff_of_false hsilent fun hboth => ?_
    have hnil := hcase.resolve_left (not_not.mpr hboth.1)
    rw [hnil] at hboth
    exact hboth.2
  · rw [not_or, not_not] at hcase
    obtain ⟨hagent, hnonempty⟩ := hcase
    rcases applyOrderFills_after hagent hnonempty haware hrefused with
      hloop | ⟨hsilent, loop, hloop⟩
    · have hstart : (FillLoop.start arguments.portfolio).working.position request.positionKey =
          some position := hposition
      rw [sellLoop_error hsell hstart hunits hloop]
      exact ⟨fun hnothing => ⟨hagent, hnothing⟩, fun hboth => hboth.2⟩
    · refine iff_of_false hsilent fun hboth => ?_
      obtain ⟨sale, hmem, hnet⟩ := hboth.2.exists_nonpos
      obtain ⟨fill, hfill, rfl⟩ := List.mem_map.mp hmem
      have hmoves := movesCash_of_foldlM hloop fill hfill
      simp only [MovesCash, hsell] at hmoves
      exact absurd hnet (not_le.mpr hmoves)

/-- A sale with a fill that brings in nothing is refused. -/
theorem sale_isRefused (hsell : request.action = .sell)
    {sale : ℤ × ℤ} (hsale : sale ∈ plannedSales request prepared.planned prepared.calculations)
    (hnothing : sale.2 ≤ 0) :
    ¬ Bookable request arguments.portfolio prepared.toPlannedOrder := by
  intro hbookable
  obtain ⟨calculation, hmem, hnet⟩ := List.mem_map.mp (List.of_mem_zip hsale).2
  have hmoves := hbookable.movesCash calculation hmem
  simp only [MovesCash, hsell, hnet] at hmoves
  exact absurd hnothing (not_le.mpr hmoves)

/-- The code that an error of accounting is given. -/
def refusalCode (error : Raised) : SemanticExecutionError :=
  if Text.contains error.message "cash" then .insufficientCash else .insufficientContracts

/-- A prepared order gets an error code from accounting, or none. -/
theorem finish_errorCode_iff
    (h : broker.Prepares request arguments context prepared.toPlannedOrder)
    (hcreated : request.createdAt ≤ arguments.now.instant) {code : SemanticExecutionError} :
    (∃ result, finish digests request arguments
        (digests.operationUuid request.agentId request.idempotencyKey) prepared = .ok result ∧
        result.errorCode = some code) ↔
      ∃ fills error, brokerFills digests request arguments.now
          (digests.operationUuid request.agentId request.idempotencyKey) prepared 0
          prepared.planned prepared.calculations = .ok fills ∧
        applyOrderFills arguments.portfolio request fills
          (digests.operationUuid request.agentId request.idempotencyKey) arguments.now =
            .error error ∧ code = refusalCode error := by
  obtain ⟨fills, hfills, -, -⟩ := broker.fills_of_prepares digests h
  have hoperation := digests.operationUuid_not_isBlank request.agentId request.idempotencyKey
  unfold finish
  simp only [bind, Except.bind, hfills]
  cases hbooked : applyOrderFills arguments.portfolio request fills
      (digests.operationUuid request.agentId request.idempotencyKey) arguments.now with
  | error error =>
      simp only [applyOrderFills_raisesOnly _ _ _ _ _ error hbooked, if_true]
      constructor
      · rintro ⟨result, hresult, hcode⟩
        have hfields := OrderResult.make_eq_ok_iff.mp hresult
        rw [hfields] at hcode
        exact ⟨fills, error, rfl, hbooked, (Option.some.inj hcode).symm⟩
      · rintro ⟨fills', error', hfills', herror, rfl⟩
        cases hfills'
        rw [hbooked] at herror
        cases herror
        obtain ⟨result, hresult⟩ := rejected_isOk arguments.portfolio
          { code := refusalCode error, message := some error.message } hoperation hcreated
        refine ⟨result, hresult, ?_⟩
        rw [OrderResult.make_eq_ok_iff.mp hresult]
  | ok booked =>
      constructor
      · rintro ⟨result, hresult, hcode⟩
        obtain ⟨audit, -, hresult⟩ := Checks.bind_eq_ok.mp hresult
        rw [OrderResult.make_eq_ok_iff.mp hresult] at hcode
        cases hcode
      · rintro ⟨fills', error', hfills', herror, -⟩
        cases hfills'
        rw [hbooked] at herror
        cases herror

theorem refusalCode_eq_contracts_iff : refusalCode error = .insufficientContracts ↔
    ¬ SaysCash error := by
  unfold refusalCode SaysCash
  split <;> simp_all

theorem refusalCode_eq_cash_iff : refusalCode error = .insufficientCash ↔ SaysCash error := by
  unfold refusalCode SaysCash
  split <;> simp_all

/-- A purchase that gets to its fills wants contracts when it is another agent's or fills
nothing. -/
theorem finish_wantsContracts_iff
    (h : broker.Prepares request arguments context prepared.toPlannedOrder)
    (haware : arguments.now.isAware = true) (hcreated : request.createdAt ≤ arguments.now.instant)
    (hbuy : request.action = .buy) :
    (∃ result, finish digests request arguments
        (digests.operationUuid request.agentId request.idempotencyKey) prepared = .ok result ∧
        result.errorCode = some .insufficientContracts) ↔
      request.agentId ≠ arguments.portfolio.agentId ∨ prepared.planned = [] := by
  rw [broker.finish_errorCode_iff digests h hcreated]
  constructor
  · rintro ⟨fills, error, hfills, hrefused, hcode⟩
    rw [← broker.purchase_refused digests h haware hbuy hfills hrefused]
    exact refusalCode_eq_contracts_iff.mp hcode.symm
  · intro hcase
    obtain ⟨fills, hfills, -, hempty⟩ := broker.fills_of_prepares digests h
    obtain ⟨error, hrefused, hsilent⟩ := applyOrderFills_unowned (hcase.imp_right hempty.mpr)
    exact ⟨fills, error, hfills, hrefused, (refusalCode_eq_contracts_iff.mpr hsilent).symm⟩

/-- A sale that gets to its fills wants cash when it is the agent's own and one of its fills brings
in nothing. -/
theorem finish_wantsCash_iff
    (h : broker.Prepares request arguments context prepared.toPlannedOrder)
    (haware : arguments.now.isAware = true) (hcreated : request.createdAt ≤ arguments.now.instant)
    (hsell : request.action = .sell) {position : ContractPosition}
    (hposition : arguments.portfolio.position request.positionKey = some position) :
    (∃ result, finish digests request arguments
        (digests.operationUuid request.agentId request.idempotencyKey) prepared = .ok result ∧
        result.errorCode = some .insufficientCash) ↔
      request.agentId = arguments.portfolio.agentId ∧
        BringsNothing position.contractUnits position.grossCostBasisMicros
          position.entryFeesMicros
          (plannedSales request prepared.planned prepared.calculations) := by
  rw [broker.finish_errorCode_iff digests h hcreated]
  constructor
  · rintro ⟨fills, error, hfills, hrefused, hcode⟩
    rw [← broker.sale_refused digests h haware hsell hposition hfills hrefused]
    exact refusalCode_eq_cash_iff.mp hcode.symm
  · intro hboth
    obtain ⟨fills, hfills, -, -⟩ := broker.fills_of_prepares digests h
    obtain ⟨sale, hmem, hnothing⟩ := hboth.2.exists_nonpos
    cases hbooked : applyOrderFills arguments.portfolio request fills
        (digests.operationUuid request.agentId request.idempotencyKey) arguments.now with
    | ok booked =>
        have hbookable := (broker.books_iff digests h haware).mp ⟨fills, booked, hfills, hbooked⟩
        exact absurd hbookable (sale_isRefused hsell hmem hnothing)
    | error error =>
        have hsays :=
          (broker.sale_refused digests h haware hsell hposition hfills hbooked).mpr hboth
        exact ⟨fills, error, hfills, hbooked, (refusalCode_eq_cash_iff.mpr hsays).symm⟩

end Prepared

/-! ## Rejections before the fills -/

/-- A rejection that is for contracts is of a sale, and one that is for cash is not for the plan. -/
def PlanningRejects (request : OrderRequest) : Interruption → Prop
  | .rejected rejection => (rejection.code = .insufficientContracts → request.action = .sell) ∧
      rejection.code ≠ .insufficientCash
  | .raised _ => True

/-- A rejection that is for cash is of a purchase that costs more than there is. -/
def PurchaseRejects (request : OrderRequest) (arguments : ExecutionArguments)
    (calculations : List FeeCalculation) : Interruption → Prop
  | .rejected rejection => rejection.code ≠ .insufficientContracts ∧
      (rejection.code = .insufficientCash → request.action = .buy ∧
        arguments.portfolio.cashMicros < grossTotal calculations + feeTotal calculations)
  | .raised _ => True

theorem raisesOnly_rejectIf {errors : Interruption → Prop} {condition : Bool}
    {rejection : Rejection} (h : condition = true → errors (.rejected rejection)) :
    Checks.RaisesOnly errors (rejectIf condition rejection) := by
  unfold rejectIf
  split
  next hcondition => exact Checks.raisesOnly_error (h hcondition)
  next => exact Checks.raisesOnly_ok ()

theorem raisesOnly_rejecting {α : Type} {errors : Interruption → Prop} {caught : Raised → Bool}
    {rejection : Raised → Rejection} {x : Except Raised α}
    (hraised : ∀ error, errors (.raised error))
    (hrejected : ∀ error, errors (.rejected (rejection error))) :
    Checks.RaisesOnly errors (rejecting caught rejection x) := by
  cases x with
  | ok value => exact Checks.raisesOnly_ok value
  | error error =>
      exact Checks.raisesOnly_ite (Checks.raisesOnly_error (hrejected error))
        (Checks.raisesOnly_error (hraised error))

theorem raisesOnly_uncaught {α : Type} {errors : Interruption → Prop} (x : Except Raised α)
    (hraised : ∀ error, errors (.raised error)) : Checks.RaisesOnly errors (uncaught x) := by
  cases x with
  | ok value => exact Checks.raisesOnly_ok value
  | error error => exact Checks.raisesOnly_error (hraised error)

theorem planOrder_planningRejects (request : OrderRequest) (arguments : ExecutionArguments)
    (context : MarketContext) :
    Checks.RaisesOnly (PlanningRejects request) (broker.planOrder request arguments context) := by
  have hraised : ∀ error, PlanningRejects request (.raised error) := fun _ => trivial
  have hother : ∀ {condition : Bool} {rejection : Rejection},
      rejection.code ≠ .insufficientContracts → rejection.code ≠ .insufficientCash →
      Checks.RaisesOnly (PlanningRejects request) (rejectIf condition rejection) :=
    fun hcontracts hcash => raisesOnly_rejectIf fun _ =>
      ⟨fun hcode => absurd hcode hcontracts, hcash⟩
  unfold planOrder
  refine Checks.raisesOnly_bind (raisesOnly_rejecting hraised fun error => ?_) fun _ _ => ?_
  · unfold PlanningRejects contextErrorCode
    dsimp only
    split
    · exact ⟨nofun, nofun⟩
    · split <;> exact ⟨nofun, nofun⟩
  refine Checks.raisesOnly_bind ?_ fun policy _ => ?_
  · unfold checkFeePolicy
    split
    · exact Checks.raisesOnly_error ⟨nofun, nofun⟩
    · exact Checks.raisesOnly_bind (hother nofun nofun) fun _ _ =>
        Checks.raisesOnly_bind (hother nofun nofun) fun _ _ => Checks.raisesOnly_ok _
  refine Checks.raisesOnly_bind (raisesOnly_rejecting hraised fun _ => ⟨nofun, nofun⟩)
    fun ⟨levels, haircut⟩ _ => ?_
  refine Checks.raisesOnly_bind (raisesOnly_rejectIf fun hsale => ⟨fun _ => ?_, nofun⟩)
    fun _ _ => ?_
  · exact (of_decide_eq_true hsale).1
  refine Checks.raisesOnly_bind (raisesOnly_uncaught _ hraised) fun planned _ => ?_
  refine Checks.raisesOnly_bind (hother ?_ ?_) fun _ _ => ?_
  · dsimp only
    split <;> exact nofun
  · dsimp only
    split <;> exact nofun
  refine Checks.raisesOnly_bind (raisesOnly_uncaught _ hraised) fun ⟨fitted, calculations⟩ _ => ?_
  refine Checks.raisesOnly_bind (Checks.raisesOnly_ite ?_ (Checks.raisesOnly_ok ())) fun _ _ => ?_
  · refine Checks.raisesOnly_bind (raisesOnly_uncaught _ hraised) fun _ _ => hother ?_ ?_
    · dsimp only
      split <;> exact nofun
    · dsimp only
      split <;> exact nofun
  refine Checks.raisesOnly_bind (raisesOnly_rejectIf fun hsale => ⟨fun _ => ?_, nofun⟩)
    fun _ _ => Checks.raisesOnly_ok _
  exact (of_decide_eq_true hsale).2.1

theorem checkPurchase_purchaseRejects (request : OrderRequest) (arguments : ExecutionArguments)
    (haircut : HaircutAudit) (calculations : List FeeCalculation) :
    Checks.RaisesOnly (PurchaseRejects request arguments calculations)
      (broker.checkPurchase request arguments haircut calculations) := by
  have hraised : ∀ error, PurchaseRejects request arguments calculations (.raised error) :=
    fun _ => trivial
  unfold checkPurchase
  cases haction : request.action with
  | sell => exact Checks.raisesOnly_ok none
  | buy =>
      refine Checks.raisesOnly_bind (raisesOnly_rejectIf fun hmore => ⟨nofun, fun _ => ?_⟩)
        fun _ _ => ?_
      · exact ⟨haction, of_decide_eq_true hmore⟩
      refine Checks.raisesOnly_bind (raisesOnly_rejecting hraised fun _ => ⟨nofun, nofun⟩)
        fun accountValue _ => ?_
      refine Checks.raisesOnly_bind (raisesOnly_uncaught _ hraised) fun concentration _ => ?_
      exact Checks.raisesOnly_bind (raisesOnly_rejectIf fun _ => ⟨nofun, nofun⟩)
        fun _ _ => Checks.raisesOnly_ok _

end BinaryPaperBroker

/-! ## One unit -/

/-- One unit of a level cannot be paid, with its fee. -/
def UnitUnpaid (policy : FeePolicySnapshot) (cashMicros : ℤ) (level : CanonicalLevel) : Prop :=
  ∃ calculations, ExactFeeCalculator.calculateFills [(1, level.price)] policy .buy =
    .ok calculations ∧ cashMicros < totalCost calculations

theorem unitUnpaid_iff (policy : FeePolicySnapshot) (cashMicros : ℤ) (level : CanonicalLevel) :
    UnitUnpaid policy cashMicros level ↔ cashMicros < purchaseCost policy [(1, level.price)] := by
  have hchargeable : ∀ fill ∈ [((1 : ℤ), level.price)], Chargeable fill := by
    intro fill hmem
    rw [List.mem_singleton.mp hmem]
    exact ⟨one_pos, level.price_range⟩
  obtain ⟨calculations, hcalculations, hspec⟩ :=
    ExactFeeCalculator.calculateFillsFrom_calculated policy .buy hchargeable (le_refl 0)
      centMicros_pos
  have htotal := hspec.buy_total
  rw [zero_add] at htotal
  unfold UnitUnpaid purchaseCost
  rw [← htotal]
  constructor
  · rintro ⟨others, hothers, hmore⟩
    obtain rfl := Except.ok.inj (hcalculations.symm.trans hothers)
    exact hmore
  · exact fun hmore => ⟨calculations, hcalculations, hmore⟩

theorem fillCost_nonneg (policy : FeePolicySnapshot) {fill : ℤ × ℤ} (h : Chargeable fill) :
    0 ≤ fillCost policy fill := by
  have hmono := fillCost_mono policy h.2 (le_refl 0) h.1.le
  rw [fillCost_zero] at hmono
  exact hmono

/-- What pays for a plan pays for one unit of its first fill. -/
theorem purchaseCost_one_le (policy : FeePolicySnapshot) {fill : ℤ × ℤ} {rest : List (ℤ × ℤ)}
    (hfill : Chargeable fill) (hrest : ∀ other ∈ rest, Chargeable other) :
    purchaseCost policy [(1, fill.2)] ≤ purchaseCost policy (fill :: rest) := by
  have hone : fillCost policy (1, fill.2) ≤ fillCost policy fill :=
    fillCost_mono policy hfill.2 zero_le_one hfill.1
  unfold purchaseCost
  calc Carry.charged centMicros 0 [fillCost policy (1, fill.2)]
      ≤ Carry.charged centMicros 0 [fillCost policy fill] :=
        Carry.charged_cons_le centMicros_pos (le_refl 0) centMicros_pos hone []
    _ ≤ Carry.charged centMicros 0 ([fillCost policy fill] ++ rest.map (fillCost policy)) := by
        apply Carry.charged_le_append centMicros_pos centMicros_pos
        rw [List.forall_mem_map]
        exact fun other hmem => fillCost_nonneg policy (hrest other hmem)
    _ = Carry.charged centMicros 0 ((fill :: rest).map (fillCost policy)) := rfl

/-- A purchase is left without fills when the first unit of it cannot be paid. -/
theorem fitCashBudget_eq_nil_iff {request : OrderRequest} (hbuy : request.action = .buy)
    {portfolio : ContractPortfolio} {policy : FeePolicySnapshot} {item : PlannedFill}
    {rest items : List PlannedFill} {calculations : List FeeCalculation}
    (hchargeable : ∀ other ∈ item :: rest, Chargeable other.fill)
    (h : fitCashBudget request portfolio (item :: rest) policy = .ok (items, calculations)) :
    items = [] ↔ portfolio.cashMicros < purchaseCost policy [(1, item.priceMicros)] := by
  obtain ⟨items', calculations', hfitted, hcalculated, hpaid, hlongest⟩ :=
    fitCashBudget_longest hbuy portfolio policy hchargeable
  obtain ⟨rfl, rfl⟩ := Prod.mk.inj (Except.ok.inj (h.symm.trans hfitted))
  constructor
  · intro hnil
    subst hnil
    generalize hempty : ([] : List PlannedFill) = fitted at hlongest
    cases hlongest with
    | whole => cases hempty
    | @cut before after original units more plan nonneg less calculated beyond =>
        obtain ⟨rfl, hresized⟩ := List.append_eq_nil_iff.mp hempty.symm
        have hunits : units = 0 := by
          by_contra hne
          unfold PlannedFill.resized at hresized
          rw [if_pos hne] at hresized
          cases hresized
        obtain ⟨rfl, -⟩ := List.cons.inj plan
        have hone : item.resized (units + 1) = [⟨item.levelIndex, item.priceMicros, 1⟩] := by
          rw [hunits]
          rfl
        rw [List.nil_append, hone] at calculated
        obtain ⟨charged, hcharged, htotal⟩ := @calculatePlanned_buy request hbuy policy
          [⟨item.levelIndex, item.priceMicros, 1⟩] (List.forall_mem_singleton.mpr
            ⟨one_pos, (hchargeable item List.mem_cons_self).2⟩)
        obtain rfl := Except.ok.inj (calculated.symm.trans hcharged)
        rw [htotal] at beyond
        exact beyond
  · intro hunpaid
    by_contra hne
    obtain ⟨first, others, rfl, hprice, hall⟩ : ∃ first others, items = first :: others ∧
        first.priceMicros = item.priceMicros ∧ ∀ other ∈ items, Chargeable other.fill := by
      cases hlongest with
      | whole => exact ⟨item, rest, rfl, rfl, hchargeable⟩
      | @cut before after original units more plan nonneg less calculated beyond =>
          rw [plan] at hchargeable
          have hall : ∀ other ∈ before ++ original.resized units, Chargeable other.fill :=
            fun other hmem => chargeable_resized hchargeable nonneg other
              (List.mem_append_left _ hmem)
          cases before with
          | cons first before =>
              obtain ⟨rfl, -⟩ := List.cons.inj plan
              exact ⟨item, _, rfl, rfl, hall⟩
          | nil =>
              obtain ⟨rfl, -⟩ := List.cons.inj plan
              unfold PlannedFill.resized at hne hall ⊢
              by_cases hunits : units = 0
              · exact absurd (by simp [hunits]) hne
              · rw [if_pos hunits] at hall ⊢
                exact ⟨_, [], rfl, rfl, hall⟩
    obtain ⟨charged, hcharged, htotal⟩ := calculatePlanned_buy hbuy policy hall
    obtain rfl := Except.ok.inj (hcalculated.symm.trans hcharged)
    have hone := purchaseCost_one_le policy (hall first List.mem_cons_self)
      (List.forall_mem_map.mpr fun other hmem => hall other (List.mem_cons_of_mem _ hmem))
    have hsame : first.fill.2 = item.priceMicros := hprice
    rw [hsame] at hone
    rw [htotal] at hpaid
    exact absurd (hone.trans hpaid) (not_le.mpr hunpaid)

/-- Where a level gives something, the cash pays for a unit of it. -/
theorem levelQuantity_paid {request : OrderRequest} {remaining : Option ℤ} {cash : ℤ}
    {level : CanonicalLevel} (hcash : 0 ≤ cash)
    (h : 0 < levelQuantity request remaining cash level) :
    request.amountType = .cash → level.price ≤ 100 * cash := by
  intro hamount
  have hpaid := levelQuantity_mul_le hamount hcash remaining level
  have hunit : 1 ≤ levelQuantity request remaining cash level := h
  have hone := mul_le_mul_of_nonneg_right hunit level.price_range.1
  rw [one_mul] at hone
  exact hone.trans hpaid

/-- The first fill that is planned for a purchase is at the best level within the limit, unless it
is for too little cash. -/
theorem TakesFrom.first_of_buy {request : OrderRequest} {index : ℕ} {remaining : Option ℤ}
    {cash : ℤ} {levels : List CanonicalLevel} {planned : List PlannedFill}
    (h : TakesFrom request index remaining cash levels planned)
    (hpriced : levels.Pairwise (PricedBefore .buy)) (hcash : 0 ≤ cash)
    (hremaining : ∀ units ∈ remaining, 0 < units) :
    planned.head?.map PlannedFill.priceMicros =
      ((withinLimit request levels).head?.filter fun level =>
        ¬ (request.amountType = .cash ∧ 100 * cash < level.price)).map CanonicalLevel.price := by
  induction h with
  | done => rfl
  | @skip index remaining cash level rest planned none hrest ih =>
      rw [List.pairwise_cons] at hpriced
      have hlater := ih hpriced.2 hcash hremaining
      cases hbeyond : beyondLimit request level with
      | true =>
          have hkept : withinLimit request (level :: rest) = withinLimit request rest := by
            simp [withinLimit, hbeyond]
          rw [hkept]
          exact hlater
      | false =>
          have hkept : withinLimit request (level :: rest) = level :: withinLimit request rest := by
            simp [withinLimit, hbeyond]
          have hnothing : levelQuantity request remaining cash level ≤ 0 :=
            none.resolve_left (by simp [hbeyond])
          -- What does not pay for a unit here does not pay for one at a higher price.
          have hpoor : request.amountType = .cash ∧ 100 * cash < level.price := by
            rcases levelQuantity_most request remaining cash level with hall | hwanted | hpaid
            · have := level.quantity_pos
              omega
            · have := hremaining _ hwanted
              omega
            · have hone := mul_le_mul_of_nonneg_right hnothing level.price_range.1
              exact ⟨hpaid.1, by linarith [hpaid.2]⟩
          rw [hkept, List.head?_cons, Option.filter_some, if_neg (by simp [hpoor]), hlater]
          cases hhead : (withinLimit request rest).head? with
          | none => rfl
          | some next =>
              have hmem := List.mem_filter.mp (List.mem_of_head? hhead)
              have hhigher : level.price < next.price := hpriced.1 next hmem.1
              rw [Option.filter_some, if_neg]
              simp only [decide_not, Bool.not_eq_true', decide_eq_false_iff_not, not_not]
              exact ⟨hpoor.1, hpoor.2.trans hhigher⟩
  | @last index remaining cash level rest within positive _ =>
      have hkept : withinLimit request (level :: rest) = level :: withinLimit request rest := by
        simp [withinLimit, within]
      rw [hkept, List.head?_cons, List.head?_cons, Option.filter_some,
        if_pos (by simpa [imp_iff_not_or] using levelQuantity_paid hcash positive)]
      rfl
  | @take index remaining cash spent level rest later within positive _ _ _ _ =>
      have hkept : withinLimit request (level :: rest) = level :: withinLimit request rest := by
        simp [withinLimit, within]
      rw [hkept, List.head?_cons, List.head?_cons, Option.filter_some,
        if_pos (by simpa [imp_iff_not_or] using levelQuantity_paid hcash positive)]
      rfl

namespace BinaryPaperBroker

variable (broker : BinaryPaperBroker) (digests : Digests)

section Executed

variable {request : OrderRequest} {arguments : ExecutionArguments} {context : MarketContext}
  {order : PlannedOrder}

/-- A purchase is planned without fills when the first unit of its best level cannot be paid. -/
theorem planned_eq_nil_iff (h : broker.Plans request arguments context order)
    (hbuy : request.action = .buy) :
    order.planned = [] ↔ ∃ level, (eligibleLevels request context.orderBook).head? = some level ∧
      UnitUnpaid order.policy arguments.portfolio.cashMicros level := by
  obtain ⟨levels, first, hhaircut, hfirst, hnonempty, hbudget⟩ := h.planned
  have heligible : eligibleLevels request context.orderBook = withinLimit request levels := by
    simp [eligibleLevels, hhaircut]
  have hpriced : levels.Pairwise (PricedBefore .buy) := by
    have hside := executedSide_pricedBefore context.orderBook request.outcome request.action
    rw [hbuy] at hside hhaircut
    exact hside.sublist (applyBestLevelHaircut_sublist hhaircut)
  obtain ⟨planned, hplanned, hplans, -⟩ := plan_isOk request levels
    (arguments.portfolio.position request.positionKey)
  obtain rfl := Except.ok.inj (hfirst.symm.trans hplanned)
  have hcash : 0 ≤ request.cashAmountMicros.getD 0 := by
    unfold OrderRequest.cashAmountMicros
    split
    · exact request.amount_pos.le
    · exact le_refl 0
  have hwanted : ∀ units ∈ planTarget request (arguments.portfolio.position request.positionKey),
      0 < units := by
    rw [planTarget_of_buy hbuy]
    intro units hmem
    unfold OrderRequest.contractUnits at hmem
    split at hmem
    · cases hmem
      exact request.amount_pos
    · cases hmem
  have hhead := (TakesFrom.of_planLevels hfirst).first_of_buy hpriced hcash hwanted
  cases first with
  | nil => exact absurd rfl hnonempty
  | cons item rest =>
      obtain ⟨level, hlevel, hprice⟩ : ∃ level, (withinLimit request levels).head? = some level ∧
          level.price = item.priceMicros := by
        obtain ⟨level, hlevel, hprice⟩ := Option.map_eq_some_iff.mp hhead.symm
        exact ⟨level, (Option.filter_eq_some_iff.mp hlevel).1, hprice⟩
      rw [fitCashBudget_eq_nil_iff hbuy hplans.chargeable hbudget, ← hprice, ← unitUnpaid_iff,
        heligible, hlevel]
      simp

theorem executeContext_createdAt {operationId : String} {result : OrderResult}
    (h : broker.executeContext digests request arguments context operationId = .ok result) :
    request.createdAt ≤ arguments.now.instant := by
  have hordered := result.accounts.ordered
  unfold executeContext at h
  split at h
  next =>
    rw [OrderResult.make_eq_ok_iff.mp h] at hordered
    exact hordered
  next => cases h
  next prepared _ =>
    obtain ⟨fills, -, h⟩ := Checks.bind_eq_ok.mp h
    split at h
    · split at h
      · rw [OrderResult.make_eq_ok_iff.mp h] at hordered
        exact hordered
      · cases h
    · obtain ⟨audit, -, h⟩ := Checks.bind_eq_ok.mp h
      rw [OrderResult.make_eq_ok_iff.mp h] at hordered
      exact hordered

/-- Where the error code of an execution comes from. -/
theorem executeContext_errorCode {operationId : String} {result : OrderResult}
    {code : SemanticExecutionError}
    (h : broker.executeContext digests request arguments context operationId = .ok result)
    (hcode : result.errorCode = some code) :
    (∃ rejection, broker.prepare request arguments context = .error (.rejected rejection) ∧
        rejection.code = code) ∨
      ∃ prepared, broker.prepare request arguments context = .ok prepared ∧
        finish digests request arguments operationId prepared = .ok result := by
  unfold executeContext at h
  split at h
  next rejection hrejection =>
    rw [OrderResult.make_eq_ok_iff.mp h] at hcode
    exact .inl ⟨rejection, hrejection, Option.some.inj hcode⟩
  next => cases h
  next prepared hprepared => exact .inr ⟨prepared, hprepared, h⟩

/-- What a rejection before the fills is for. -/
theorem prepare_rejected {rejection : Rejection}
    (h : broker.prepare request arguments context = .error (.rejected rejection)) :
    (rejection.code = .insufficientContracts → request.action = .sell) ∧
      (rejection.code = .insufficientCash → request.action = .buy ∧
        ∃ order, broker.Plans request arguments context order ∧
          arguments.portfolio.cashMicros <
            grossTotal order.calculations + feeTotal order.calculations) := by
  rcases Checks.bind_eq_error.mp h with hplan | ⟨order, horder, h⟩
  · have hrejects := broker.planOrder_planningRejects request arguments context _ hplan
    exact ⟨hrejects.1, fun hcash => absurd hcash hrejects.2⟩
  · rcases Checks.bind_eq_error.mp h with hpurchase | ⟨_, -, hok⟩
    · have hrejects := broker.checkPurchase_purchaseRejects request arguments order.haircut
        order.calculations _ hpurchase
      refine ⟨fun hcontracts => absurd hcontracts hrejects.1, fun hcash => ?_⟩
      obtain ⟨hbuy, hmore⟩ := hrejects.2 hcash
      exact ⟨hbuy, order, broker.planOrder_eq_ok_iff.mp horder, hmore⟩
    · cases hok

end Executed

/-! ## Executions -/

section Execution

variable (state : BrokerState) (request : OrderRequest) (arguments : ExecutionArguments)

/-- A purchase that takes what it can at once, for which there is liquidity within its limit, and
of that not one unit that can be paid with its fee. -/
structure Unaffordable (context : MarketContext) (policy : FeePolicySnapshot) : Prop where
  aware : arguments.now.isAware = true
  created : request.createdAt ≤ arguments.now.instant
  reaches : Reaches state request arguments context
  buy : request.action = .buy
  ioc : request.timeInForce = .ioc
  context_valid : broker.validateContext request context arguments.now = .ok ()
  policy_eq : arguments.feePolicy = some policy
  authorizes : Authorizes policy arguments.now
  eligible : eligibleLevels request context.orderBook ≠ []
  unpaid : ∀ level ∈ eligibleLevels request context.orderBook,
    UnitUnpaid policy arguments.portfolio.cashMicros level

/-- A new purchase is not rejected for want of contracts, nor a new sale for want of cash; and a
purchase that is unaffordable is rejected for want of cash. -/
structure RejectsProperly : Prop where
  purchase : state.result (request.agentId, request.idempotencyKey) = none →
    request.action = .buy → ∀ result, (broker.execute digests state request arguments).2 =
      .ok result → result.errorCode ≠ some .insufficientContracts
  sale : state.result (request.agentId, request.idempotencyKey) = none →
    request.action = .sell → ∀ result, (broker.execute digests state request arguments).2 =
      .ok result → result.errorCode ≠ some .insufficientCash
  unaffordable : ∀ context policy,
    broker.Unaffordable state request arguments context policy →
    ∃ result, (broker.execute digests state request arguments).2 = .ok result ∧
      result.errorCode = some .insufficientCash

/-- A sale with a fill whose fee takes all that it brings. -/
def SellsForNothing (context : MarketContext) : Prop :=
  ∃ policy levels audit position planned calculations, arguments.feePolicy = some policy ∧
    applyBestLevelHaircut context.orderBook request.outcome request.action =
      .ok (levels, audit) ∧
    arguments.portfolio.position request.positionKey = some position ∧
    plan request levels (some position) = .ok planned ∧
    calculatePlanned request policy planned = .ok calculations ∧
    BringsNothing position.contractUnits position.grossCostBasisMicros position.entryFeesMicros
      (plannedSales request planned calculations)

/-- The orders whose rejection is for the other side of the market, and those whose is not for the
cash that they want. -/
inductive Misjudged : Prop
  | purchase {context : MarketContext} {order : PlannedOrder}
      (aware : arguments.now.isAware = true) (created : request.createdAt ≤ arguments.now.instant)
      (reaches : Reaches state request arguments context)
      (prepares : broker.Prepares request arguments context order)
      (buy : request.action = .buy)
      (cause : request.agentId ≠ arguments.portfolio.agentId ∨
        ∃ level, (eligibleLevels request context.orderBook).head? = some level ∧
          UnitUnpaid order.policy arguments.portfolio.cashMicros level)
  | sale {context : MarketContext} {order : PlannedOrder}
      (aware : arguments.now.isAware = true) (created : request.createdAt ≤ arguments.now.instant)
      (reaches : Reaches state request arguments context)
      (prepares : broker.Prepares request arguments context order)
      (sell : request.action = .sell) (agent : request.agentId = arguments.portfolio.agentId)
      (nothing : SellsForNothing request arguments context)
  | unaffordable {context : MarketContext} {policy : FeePolicySnapshot}
      (h : broker.Unaffordable state request arguments context policy)

variable {state request arguments}

theorem execute_of_reaches {context : MarketContext} (haware : arguments.now.isAware = true)
    (h : Reaches state request arguments context) :
    (broker.execute digests state request arguments).2 =
      broker.executeContext digests request arguments context
        (digests.operationUuid request.agentId request.idempotencyKey) := by
  unfold execute
  simp only [haware, Bool.true_eq_false, if_false, h.unknown, if_neg h.unblocked, h.not_pending,
    h.context]
  exact BrokerState.remember_snd _ _ _

/-- A new order that is rejected for want of cash or of contracts reaches its context. -/
theorem exists_reaches {result : OrderResult}
    (hunknown : state.result (request.agentId, request.idempotencyKey) = none)
    (h : (broker.execute digests state request arguments).2 = .ok result)
    (hcode : result.errorCode = some .insufficientCash ∨
      result.errorCode = some .insufficientContracts) :
    arguments.now.isAware = true ∧ ∃ context, Reaches state request arguments context ∧
      broker.executeContext digests request arguments context
        (digests.operationUuid request.agentId request.idempotencyKey) = .ok result := by
  have hother : result.errorCode ≠ some .reconciliationRequired := by
    rcases hcode with hcode | hcode <;> simp [hcode]
  by_cases haware : arguments.now.isAware = true
  · refine ⟨haware, ?_⟩
    unfold execute at h
    simp only [haware, Bool.true_eq_false, if_false, hunknown] at h
    split at h
    · rw [BrokerState.remember_snd] at h
      rw [OrderResult.make_eq_ok_iff.mp h] at hother
      exact absurd rfl hother
    next hunblocked =>
      split at h
      next context hpending hcontext =>
        rw [BrokerState.remember_snd] at h
        exact ⟨context, ⟨hunknown, hunblocked, hpending, hcontext⟩, h⟩
      next =>
        split at h
        next pending hpending =>
          cases h
          rw [OrderResult.make_eq_ok_iff.mp hpending] at hother
          exact absurd rfl hother
        next => cases h
  · unfold execute at h
    rw [if_pos (Bool.eq_false_of_not_eq_true haware)] at h
    cases h

/-- What a sale is planned for and charged, before its fills. -/
theorem sellsForNothing_iff {context : MarketContext} {order : PlannedOrder}
    {position : ContractPosition} (h : broker.Plans request arguments context order)
    (hsell : request.action = .sell)
    (hposition : arguments.portfolio.position request.positionKey = some position) :
    SellsForNothing request arguments context ↔
      BringsNothing position.contractUnits position.grossCostBasisMicros position.entryFeesMicros
        (plannedSales request order.planned order.calculations) := by
  obtain ⟨levels, first, hhaircut, hfirst, -, hbudget⟩ := h.planned
  have hfitted : order.planned = first ∧
      calculatePlanned request order.policy first = .ok order.calculations := by
    obtain ⟨calculations, hcalculations, hbudget⟩ := Checks.bind_eq_ok.mp hbudget
    rw [if_pos (.inl (by simp [hsell]))] at hbudget
    obtain ⟨hplanned, hcharged⟩ := Prod.mk.inj (Except.ok.inj hbudget)
    exact ⟨hplanned.symm, hcharged ▸ hcalculations⟩
  rw [hposition] at hfirst
  constructor
  · rintro ⟨policy, levels', audit, position', planned, calculations, hpolicy, hhaircut',
      hposition', hplanned, hcalculations, hnothing⟩
    obtain rfl := Option.some.inj (hposition.symm.trans hposition')
    obtain rfl := Option.some.inj (h.policy.symm.trans hpolicy)
    obtain ⟨rfl, -⟩ := Prod.mk.inj (Except.ok.inj (hhaircut.symm.trans hhaircut'))
    obtain rfl := Except.ok.inj (hfirst.symm.trans hplanned)
    obtain rfl := Except.ok.inj (hfitted.2.symm.trans hcalculations)
    rw [hfitted.1]
    exact hnothing
  · intro hnothing
    rw [hfitted.1] at hnothing
    exact ⟨order.policy, levels, order.haircut, position, first, order.calculations, h.policy,
      hhaircut, hposition, hfirst, hfitted.2, hnothing⟩

/-- Nothing that is unaffordable is rejected for want of cash. -/
theorem Unaffordable.errorCode_ne {context : MarketContext} {policy : FeePolicySnapshot}
    (h : broker.Unaffordable state request arguments context policy) {result : OrderResult}
    (hresult : (broker.execute digests state request arguments).2 = .ok result) :
    result.errorCode ≠ some .insufficientCash := by
  intro hcode
  rw [broker.execute_of_reaches digests h.aware h.reaches] at hresult
  have hempty : ∀ order, broker.Plans request arguments context order → order.planned = [] := by
    intro order hplans
    obtain ⟨level, hlevel⟩ := Option.ne_none_iff_exists'.mp
      (fun hnone => h.eligible (List.head?_eq_none_iff.mp hnone))
    rw [broker.planned_eq_nil_iff hplans h.buy]
    obtain rfl := Option.some.inj (h.policy_eq.symm.trans hplans.policy)
    exact ⟨level, hlevel, h.unpaid level (List.mem_of_head? hlevel)⟩
  rcases broker.executeContext_errorCode digests hresult hcode with
    ⟨rejection, hrejection, hcash⟩ | ⟨prepared, hprepared, hfinish⟩
  · obtain ⟨-, order, hplans, hmore⟩ := (broker.prepare_rejected hrejection).2 hcash
    obtain ⟨levels, hsound⟩ := hplans.sound
    have hfees := hsound.fees
    rw [hempty order hplans, List.forall₂_nil_left_iff] at hfees
    rw [hfees] at hmore
    exact absurd arguments.portfolio.cashMicros_nonneg (not_le.mpr hmore)
  · have hprepares := broker.prepares_of_prepare hprepared
    obtain ⟨fills, error, hfills, hrefused, hcash⟩ :=
      (broker.finish_errorCode_iff digests hprepares h.created).mp ⟨result, hfinish, hcode⟩
    have hsilent := (broker.purchase_refused digests hprepares h.aware h.buy hfills hrefused).mpr
      (.inr (hempty _ hprepares.plans))
    exact hsilent (refusalCode_eq_cash_iff.mp hcash.symm)

end Execution

/-- An order is rejected for what it wants unless it is one of the misjudged: a purchase that
passes every check for another agent, or of whose best level not one unit can be paid; a sale with
a fill whose fee takes all that it brings; a purchase that is unaffordable. -/
theorem execute_rejectsProperly_iff (state : BrokerState) (request : OrderRequest)
    (arguments : ExecutionArguments) :
    broker.RejectsProperly digests state request arguments ↔
      ¬ broker.Misjudged state request arguments := by
  constructor
  · intro hproper hmisjudged
    cases hmisjudged with
    | purchase aware created reaches prepares buy cause =>
        obtain ⟨prepared, hprepared, rfl⟩ := broker.exists_prepare_of_prepares prepares
        obtain ⟨result, hresult, hcode⟩ :=
          (broker.finish_wantsContracts_iff digests prepares aware created buy).mpr
            (cause.imp_right (broker.planned_eq_nil_iff prepares.plans buy).mpr)
        refine hproper.purchase reaches.unknown buy result ?_ hcode
        rw [broker.execute_of_reaches digests aware reaches]
        unfold executeContext
        rw [hprepared]
        exact hresult
    | sale aware created reaches prepares sell agent nothing =>
        obtain ⟨prepared, hprepared, rfl⟩ := broker.exists_prepare_of_prepares prepares
        obtain ⟨position, hposition⟩ :=
          Option.ne_none_iff_exists'.mp (prepares.plans.owned sell)
        rw [broker.sellsForNothing_iff prepares.plans sell hposition] at nothing
        obtain ⟨result, hresult, hcode⟩ :=
          (broker.finish_wantsCash_iff digests prepares aware created sell hposition).mpr
            ⟨agent, nothing⟩
        refine hproper.sale reaches.unknown sell result ?_ hcode
        rw [broker.execute_of_reaches digests aware reaches]
        unfold executeContext
        rw [hprepared]
        exact hresult
    | unaffordable h =>
        obtain ⟨result, hresult, hcode⟩ := hproper.unaffordable _ _ h
        exact Unaffordable.errorCode_ne broker digests h hresult hcode
  · intro hnot
    constructor
    case purchase =>
      intro hunknown hbuy result hresult hcode
      obtain ⟨haware, context, hreaches, hexecuted⟩ :=
        broker.exists_reaches digests hunknown hresult (.inr hcode)
      have hcreated := broker.executeContext_createdAt digests hexecuted
      rcases broker.executeContext_errorCode digests hexecuted hcode with
        ⟨rejection, hrejection, hcontracts⟩ | ⟨prepared, hprepared, hfinish⟩
      · have hsell := (broker.prepare_rejected hrejection).1 hcontracts
        rw [hbuy] at hsell
        cases hsell
      · have hprepares := broker.prepares_of_prepare hprepared
        have hcause := (broker.finish_wantsContracts_iff digests hprepares haware hcreated
          hbuy).mp ⟨result, hfinish, hcode⟩
        exact hnot (.purchase haware hcreated hreaches hprepares hbuy
          (hcause.imp_right (broker.planned_eq_nil_iff hprepares.plans hbuy).mp))
    case sale =>
      intro hunknown hsell result hresult hcode
      obtain ⟨haware, context, hreaches, hexecuted⟩ :=
        broker.exists_reaches digests hunknown hresult (.inl hcode)
      have hcreated := broker.executeContext_createdAt digests hexecuted
      rcases broker.executeContext_errorCode digests hexecuted hcode with
        ⟨rejection, hrejection, hcash⟩ | ⟨prepared, hprepared, hfinish⟩
      · have hbuy := ((broker.prepare_rejected hrejection).2 hcash).1
        rw [hsell] at hbuy
        cases hbuy
      · have hprepares := broker.prepares_of_prepare hprepared
        obtain ⟨position, hposition⟩ :=
          Option.ne_none_iff_exists'.mp (hprepares.plans.owned hsell)
        obtain ⟨hagent, hnothing⟩ := (broker.finish_wantsCash_iff digests hprepares haware hcreated
          hsell hposition).mp ⟨result, hfinish, hcode⟩
        exact hnot (.sale haware hcreated hreaches hprepares hsell hagent
          ((broker.sellsForNothing_iff hprepares.plans hsell hposition).mpr hnothing))
    case unaffordable =>
      intro context policy h
      exact absurd (.unaffordable h) hnot

end BinaryPaperBroker

namespace Sample

/-- A portfolio of one micro-dollar. -/
def pauper : ContractPortfolio :=
  ⟨{ agentId := "agent", cashMicros := 1, positions := [] }, by decide⟩

end Sample

set_option maxRecDepth 10000 in
/-- A purchase that cannot be paid is rejected for want of contracts. -/
theorem execute_rejects_pauper :
    ¬ Sample.broker.RejectsProperly Sample.digests .empty Sample.purchase
      (Sample.arguments Sample.pauper false) := by
  intro hproper
  obtain ⟨result, hresult, hcode⟩ := Checks.exists_ok_of_any
    (Sample.broker.execute Sample.digests .empty Sample.purchase
      (Sample.arguments Sample.pauper false)).2
    (fun result => result.errorCode = some .insufficientContracts) (by decide +kernel)
  exact hproper.purchase rfl rfl result hresult (of_decide_eq_true hcode)

end VTrade
