/-
# The contract portfolio

The immutable snapshot the paper broker works on: cash, long YES/NO positions
with their cost basis and outstanding entry fees, and realized P&L.

`applyOrderFills` books the fills of one order on a snapshot and builds the one
ledger entry of the order; a sale removes cost basis and entry fees pro rata.
`replayContractPortfolio` goes the other way and rebuilds a snapshot from ledger
entries alone.
-/

import Mathlib.Data.List.Sort
import VTrade.Domain.Market
import VTrade.Ledger
import VTrade.Lib.DecimalContext

namespace VTrade

/-- The share of `total` that `part` is of `whole`, in the program's decimal
arithmetic: the product and the quotient are each rounded to 28 significant
digits, and the quotient then to an integer, half up. -/
def decimalShare (total part whole : ℤ) : ℤ :=
  (DecimalContext.toIntegralHalfUp
    (DecimalContext.div 28
      (DecimalContext.mul 28 (.ofNat total.toNat) (.ofNat part.toNat))
      (.ofNat whole.toNat)) : ℕ)

def proRata (total part whole : ℤ) : Except Raised ℤ :=
  if total < 0 ∨ part < 0 ∨ whole ≤ 0 ∨ part > whole then
    .error (.valueError "invalid proportional accounting input")
  else if part = whole then .ok total
  else .ok (decimalShare total part whole)

structure ContractPositionFields where
  marketRef : MarketKey
  outcome : OutcomeSide
  contractUnits : ℤ
  grossCostBasisMicros : ℤ
  entryFeesMicros : ℤ := 0
  realizedPnlMicros : ℤ := 0
  updatedAt : Instant
  deriving DecidableEq

def ContractPositionFields.postInit (position : ContractPositionFields) : Except Raised Unit :=
  Checks.raiseFirst [
    (position.contractUnits < 0, .valueError "position contract units cannot be negative"),
    (position.grossCostBasisMicros < 0 ∨ position.entryFeesMicros < 0,
      .valueError "position cost and entry fees cannot be negative"),
    (position.contractUnits = 0 ∧
        (position.grossCostBasisMicros ≠ 0 ∨ position.entryFeesMicros ≠ 0),
      .valueError "an empty position cannot retain basis or entry fees")]

/-- One long YES/NO position measured in hundredths of a contract. -/
structure ContractPosition extends ContractPositionFields where
  valid : toContractPositionFields.postInit = .ok ()
  deriving DecidableEq

namespace ContractPosition

def make (fields : ContractPositionFields) : Except Raised ContractPosition :=
  Checks.build fields.postInit fun h => ⟨fields, h⟩

theorem make_eq_ok_iff {fields : ContractPositionFields} {position : ContractPosition} :
    make fields = .ok position ↔ position.toContractPositionFields = fields :=
  Checks.build_fields_eq_ok_iff ContractPositionFields.postInit mk toContractPositionFields (fun _ _ => rfl)
    fun position => ⟨position.valid, rfl⟩

theorem make_eq_ok {fields : ContractPositionFields} (h : fields.postInit = .ok ()) :
    make fields = .ok ⟨fields, h⟩ := Checks.build_eq_ok h _

theorem postInit_eq_ok_iff {fields : ContractPositionFields} :
    fields.postInit = .ok () ↔ 0 ≤ fields.contractUnits ∧ 0 ≤ fields.grossCostBasisMicros ∧
      0 ≤ fields.entryFeesMicros ∧
      (fields.contractUnits = 0 → fields.grossCostBasisMicros = 0 ∧ fields.entryFeesMicros = 0) := by
  simp only [ContractPositionFields.postInit, Checks.raiseFirst_cons_eq_ok,
    Checks.raiseFirst_nil, decide_eq_false_iff_not, not_or, not_lt, not_and, not_not, and_true,
    and_assoc, ne_eq]

theorem contractUnits_nonneg (position : ContractPosition) : 0 ≤ position.contractUnits :=
  (postInit_eq_ok_iff.mp position.valid).1

theorem grossCostBasisMicros_nonneg (position : ContractPosition) :
    0 ≤ position.grossCostBasisMicros :=
  (postInit_eq_ok_iff.mp position.valid).2.1

theorem entryFeesMicros_nonneg (position : ContractPosition) : 0 ≤ position.entryFeesMicros :=
  (postInit_eq_ok_iff.mp position.valid).2.2.1

/-- An empty position carries neither cost nor fees. -/
theorem carries_nothing (position : ContractPosition) (h : position.contractUnits = 0) :
    position.grossCostBasisMicros = 0 ∧ position.entryFeesMicros = 0 :=
  (postInit_eq_ok_iff.mp position.valid).2.2.2 h

/-- What tells a position of a portfolio apart. -/
def key (position : ContractPosition) : PositionKey := (position.marketRef, position.outcome)

/-- The text positions are ordered by. -/
def sortKey (position : ContractPosition) : String :=
  position.marketRef.canonical ++ position.outcome.value

end ContractPosition

def sortPositions (positions : List ContractPosition) : List ContractPosition :=
  positions.insertionSort fun first second => first.sortKey ≤ second.sortKey

structure ContractPortfolioFields where
  agentId : String
  cashMicros : ℤ
  positions : List ContractPosition := []
  version : ℤ := 0
  reconciliationBlocked : Bool := false
  realizedPnlMicros : ℤ := 0
  deriving DecidableEq

def ContractPortfolioFields.postInit (portfolio : ContractPortfolioFields) : Except Raised Unit :=
  Checks.raiseFirst [
    (portfolio.agentId = "", .valueError "portfolio agent_id is required"),
    (portfolio.cashMicros < 0, .valueError "portfolio cash cannot be negative"),
    (portfolio.version < 0, .valueError "portfolio version cannot be negative"),
    (¬ (portfolio.positions.map ContractPosition.key).Nodup,
      .valueError "portfolio cannot contain duplicate market outcomes")]

/-- Immutable portfolio snapshot used by the semantic paper broker. -/
structure ContractPortfolio extends ContractPortfolioFields where
  valid : toContractPortfolioFields.postInit = .ok ()
  deriving DecidableEq

namespace ContractPortfolio

def make (fields : ContractPortfolioFields) : Except Raised ContractPortfolio :=
  Checks.build fields.postInit fun h => ⟨fields, h⟩

theorem make_eq_ok_iff {fields : ContractPortfolioFields} {portfolio : ContractPortfolio} :
    make fields = .ok portfolio ↔ portfolio.toContractPortfolioFields = fields :=
  Checks.build_fields_eq_ok_iff ContractPortfolioFields.postInit mk toContractPortfolioFields (fun _ _ => rfl)
    fun portfolio => ⟨portfolio.valid, rfl⟩

theorem make_eq_ok {fields : ContractPortfolioFields} (h : fields.postInit = .ok ()) :
    make fields = .ok ⟨fields, h⟩ := Checks.build_eq_ok h _

theorem postInit_eq_ok_iff {fields : ContractPortfolioFields} :
    fields.postInit = .ok () ↔ fields.agentId ≠ "" ∧ 0 ≤ fields.cashMicros ∧
      0 ≤ fields.version ∧ (fields.positions.map ContractPosition.key).Nodup := by
  simp only [ContractPortfolioFields.postInit, Checks.raiseFirst_cons_eq_ok,
    Checks.raiseFirst_nil, decide_eq_false_iff_not, not_lt, not_not, and_true, ne_eq]

theorem agentId_ne_empty (portfolio : ContractPortfolio) : portfolio.agentId ≠ "" :=
  (postInit_eq_ok_iff.mp portfolio.valid).1

theorem cashMicros_nonneg (portfolio : ContractPortfolio) : 0 ≤ portfolio.cashMicros :=
  (postInit_eq_ok_iff.mp portfolio.valid).2.1

theorem version_nonneg (portfolio : ContractPortfolio) : 0 ≤ portfolio.version :=
  (postInit_eq_ok_iff.mp portfolio.valid).2.2.1

/-- A portfolio holds at most one position of a market outcome. -/
theorem unique_keys (portfolio : ContractPortfolio) :
    (portfolio.positions.map ContractPosition.key).Nodup :=
  (postInit_eq_ok_iff.mp portfolio.valid).2.2.2

def position (portfolio : ContractPortfolio) (key : PositionKey) : Option ContractPosition :=
  KeyedList.lookup ContractPosition.key key portfolio.positions

def marketCostBasisMicros (portfolio : ContractPortfolio) (marketRef : MarketKey) : ℤ :=
  ((portfolio.positions.filter fun position => position.marketRef = marketRef).map
    fun position => position.grossCostBasisMicros).sum

end ContractPortfolio

structure FillAccounting where
  fill : EconomicFill
  removedBasisMicros : ℤ
  removedEntryFeesMicros : ℤ
  realizedPnlMicros : ℤ
  deriving DecidableEq

/-- Put `position` in the place of the position of its key, or drop that one
when `position` is empty. -/
def replacePosition (portfolio : ContractPortfolio) (position : ContractPosition)
    (cashMicros realizedPnlMicros : ℤ) : Except Raised ContractPortfolio :=
  let others := KeyedList.erase ContractPosition.key position.key portfolio.positions
  ContractPortfolio.make {
    agentId := portfolio.agentId
    cashMicros := cashMicros
    positions := sortPositions
      (if position.contractUnits ≠ 0 then others ++ [position] else others)
    version := portfolio.version
    reconciliationBlocked := portfolio.reconciliationBlocked
    realizedPnlMicros := realizedPnlMicros }

/-- The local variables of the loop over an order's fills. -/
structure FillLoop where
  working : ContractPortfolio
  accounting : List FillAccounting
  cashDelta : ℤ
  positionCostDelta : ℤ
  unitsDelta : ℤ
  feeExpenseDelta : ℤ
  realizedPosting : ℤ

def FillLoop.start (portfolio : ContractPortfolio) : FillLoop :=
  ⟨portfolio, [], 0, 0, 0, 0, 0⟩

/-- The position after a BUY fill. -/
def boughtPosition (request : OrderRequest) (current : Option ContractPosition)
    (fill : EconomicFill) : ContractPositionFields where
  marketRef := request.marketRef
  outcome := request.outcome
  contractUnits := current.elim 0 (·.contractUnits) + fill.contractUnits
  grossCostBasisMicros := current.elim 0 (·.grossCostBasisMicros) + fill.grossCashMicros
  entryFeesMicros := current.elim 0 (·.entryFeesMicros) + fill.feeMicros
  realizedPnlMicros := current.elim 0 (·.realizedPnlMicros)
  updatedAt := fill.filledAt

/-- The position after a SELL fill, for the cost and the entry fees it removes. -/
def soldPosition (request : OrderRequest) (current : ContractPosition) (fill : EconomicFill)
    (removedBasis removedFees : ℤ) : ContractPositionFields where
  marketRef := request.marketRef
  outcome := request.outcome
  contractUnits := current.contractUnits - fill.contractUnits
  grossCostBasisMicros := current.grossCostBasisMicros - removedBasis
  entryFeesMicros := current.entryFeesMicros - removedFees
  realizedPnlMicros := current.realizedPnlMicros +
    (fill.grossCashMicros - removedBasis - removedFees - fill.feeMicros)
  updatedAt := fill.filledAt

/-- One BUY fill adds its units, cost and fee to the position. -/
def applyBuyFill (request : OrderRequest) (loop : FillLoop) (fill : EconomicFill) :
    Except Raised FillLoop := do
  let updated ← ContractPosition.make
    (boughtPosition request (loop.working.position request.positionKey) fill)
  if fill.netCashDeltaMicros ≥ 0 then
    .error (.valueError "BUY fill must have a negative cash delta")
  else
    let working ← replacePosition loop.working updated
      (loop.working.cashMicros + fill.netCashDeltaMicros) loop.working.realizedPnlMicros
    if working.cashMicros < 0 then
      .error (.valueError "fill accounting would make cash negative")
    else
      .ok {
        working := working
        accounting := loop.accounting ++ [⟨fill, 0, 0, 0⟩]
        cashDelta := loop.cashDelta + fill.netCashDeltaMicros
        positionCostDelta := loop.positionCostDelta + fill.grossCashMicros
        unitsDelta := loop.unitsDelta + fill.contractUnits
        feeExpenseDelta := loop.feeExpenseDelta + fill.feeMicros
        realizedPosting := loop.realizedPosting }

/-- One SELL fill removes its share of the position's cost and entry fees and
realizes the rest of its proceeds. -/
def applySellFill (request : OrderRequest) (loop : FillLoop) (fill : EconomicFill) :
    Except Raised FillLoop :=
  match loop.working.position request.positionKey with
  | none => .error (.valueError "SELL fill exceeds the owned contract position")
  | some current =>
      if current.contractUnits < fill.contractUnits then
        .error (.valueError "SELL fill exceeds the owned contract position")
      else do
        let removedBasis ← proRata current.grossCostBasisMicros fill.contractUnits
          current.contractUnits
        let removedFees ← proRata current.entryFeesMicros fill.contractUnits
          current.contractUnits
        let realized := fill.grossCashMicros - removedBasis - removedFees - fill.feeMicros
        let updated ← ContractPosition.make
          (soldPosition request current fill removedBasis removedFees)
        if fill.netCashDeltaMicros ≤ 0 then
          .error (.valueError "SELL fill must have a positive cash delta")
        else
          let working ← replacePosition loop.working updated
            (loop.working.cashMicros + fill.netCashDeltaMicros)
            (loop.working.realizedPnlMicros + realized)
          if working.cashMicros < 0 then
            .error (.valueError "fill accounting would make cash negative")
          else
            .ok {
              working := working
              accounting := loop.accounting ++ [⟨fill, removedBasis, removedFees, realized⟩]
              cashDelta := loop.cashDelta + fill.netCashDeltaMicros
              positionCostDelta := loop.positionCostDelta - removedBasis
              unitsDelta := loop.unitsDelta - fill.contractUnits
              feeExpenseDelta := loop.feeExpenseDelta + (fill.feeMicros - removedFees)
              realizedPosting := loop.realizedPosting
                + (removedBasis + removedFees - fill.grossCashMicros) }

def applyFill (request : OrderRequest) (loop : FillLoop) (fill : EconomicFill) :
    Except Raised FillLoop :=
  match request.action with
  | .buy => applyBuyFill request loop fill
  | .sell => applySellFill request loop fill

/-- The entry fees the order allocates to the position, or releases from it. -/
def entryFeesDelta (request : OrderRequest) (accounting : List FillAccounting) : ℤ :=
  match request.action with
  | .buy => (accounting.map fun item => item.fill.feeMicros).sum
  | .sell => -(accounting.map fun item => item.removedEntryFeesMicros).sum

/-- The postings of one order.  The fee posting and the realized posting are
left out when their amount is zero. -/
def orderPostings (request : OrderRequest) (loop : FillLoop) : MovementPostings where
  key := request.positionKey
  cash := loop.cashDelta
  cost := loop.positionCostDelta
  units := loop.unitsDelta
  fees :=
    if loop.feeExpenseDelta ≠ 0 then
      some (loop.feeExpenseDelta, entryFeesDelta request loop.accounting)
    else none
  result := if loop.realizedPosting ≠ 0 then some loop.realizedPosting else none

/-- Apply all confirmed fills atomically and build one balanced ledger event. -/
def applyOrderFills (portfolio : ContractPortfolio) (request : OrderRequest)
    (fills : List EconomicFill) (operationId : String) (occurredAt : Datetime) :
    Except Raised (ContractPortfolio × LedgerEntry × List FillAccounting) :=
  if request.agentId ≠ portfolio.agentId then
    .error (.valueError "order agent does not own the portfolio")
  else if fills = [] then
    .error (.valueError "financial accounting requires at least one fill")
  else if occurredAt.isAware = false then
    .error (.valueError "accounting timestamp must be timezone-aware")
  else do
    let loop ← fills.foldlM (applyFill request) (FillLoop.start portfolio)
    let postings ← (orderPostings request loop).postings
    let entry ← LedgerEntry.make ("ledger-order-" ++ operationId) portfolio.agentId
      ("order-accounting:" ++ operationId) "paper_order_fill" occurredAt postings
    let result ← ContractPortfolio.make {
      agentId := loop.working.agentId
      cashMicros := loop.working.cashMicros
      positions := sortPositions loop.working.positions
      version := portfolio.version + 1
      reconciliationBlocked := portfolio.reconciliationBlocked
      realizedPnlMicros := loop.working.realizedPnlMicros }
    .ok (result, entry, loop.accounting)

/-- A held quantity at a price, rounded half up to a micro-dollar. -/
def positionValue (contractUnits priceMicros : ℤ) : ℤ :=
  let numerator := contractUnits * priceMicros
  numerator / 100 + if numerator % 100 ≥ 50 then 1 else 0

/-- The contexts positions are valued at, given by market key or by reference. -/
structure ValuationContexts where
  byKey : MarketKey → Option MarketContext
  byRef : String → Option MarketContext

/-- Value open positions at a cutoff-compatible executable bid.  A missing bid is
an error rather than an exposure valued at zero. -/
def ContractPortfolio.accountValueMicros (portfolio : ContractPortfolio)
    (contexts : Option ValuationContexts) : Except Raised ℤ :=
  portfolio.positions.foldlM (fun total position =>
    match contexts with
    | none => .ok (total + position.grossCostBasisMicros)
    | some contexts =>
        match contexts.byKey position.marketRef <|> contexts.byRef position.marketRef.marketRef with
        | none => .error (.valueError "missing context for held position valuation")
        | some context =>
            match context.orderBook.bestBid position.outcome with
            | none => .error (.valueError "held position has no cutoff-compatible bid")
            | some level => .ok (total + positionValue position.contractUnits level.price))
    portfolio.cashMicros

/-- The local variables of the replay loop. -/
structure ReplayLoop where
  ledger : AppendOnlyLedger
  cash : ℤ
  positions : List ContractPosition
  realizedPnlMicros : ℤ

/-- The amounts an entry posts on one account for one position. -/
def dimensionAmount (entry : LedgerEntry) (account : LedgerAccount) (key : PositionKey) : ℤ :=
  ((entry.postings.filter fun item => item.account = account ∧ item.positionKey = some key).map
    fun item => item.amountMicros).sum

/-- The entry fees an entry allocates to one position. -/
def dimensionEntryFees (entry : LedgerEntry) (key : PositionKey) : ℤ :=
  ((entry.postings.filter fun item => item.positionKey = some key).map
    fun item => item.entryFeesDeltaMicros.getD 0).sum

/-- Put the new state of a position in the place of its key. -/
def replayPosition (occurredAt : Instant) (loop : ReplayLoop) (key : PositionKey)
    (units basis entryFees realized realizedDelta : ℤ) : Except Raised ReplayLoop :=
  if units < 0 ∨ basis < 0 ∨ entryFees < 0 then
    .error (.valueError "ledger replay produced negative position state")
  else if units = 0 then
    if basis ≠ 0 ∨ entryFees ≠ 0 then
      .error (.valueError "ledger replay left an empty position with accounting state")
    else
      .ok { loop with
        positions := KeyedList.erase ContractPosition.key key loop.positions
        realizedPnlMicros := loop.realizedPnlMicros + realizedDelta }
  else do
    let updated ← ContractPosition.make {
      marketRef := key.1
      outcome := key.2
      contractUnits := units
      grossCostBasisMicros := basis
      entryFeesMicros := entryFees
      realizedPnlMicros := realized
      updatedAt := occurredAt }
    .ok { loop with
      positions := KeyedList.upsert ContractPosition.key updated loop.positions
      realizedPnlMicros := loop.realizedPnlMicros + realizedDelta }

/-- Move the units, the cost, the fees and the result that an entry posts for one
position. -/
def replayUnits (entry : LedgerEntry) (loop : ReplayLoop) (key : PositionKey)
    (unitsDelta amountMicros : ℤ) : Except Raised ReplayLoop :=
  let current := KeyedList.lookup ContractPosition.key key loop.positions
  let entryFeeDelta := dimensionEntryFees entry key
  let feeExpenseDelta := dimensionAmount entry .fees key
  let realizedDelta := -dimensionAmount entry .realizedPnl key
    - if unitsDelta < 0 then feeExpenseDelta - entryFeeDelta else 0
  replayPosition entry.occurredAt loop key
    (current.elim 0 (·.contractUnits) + unitsDelta)
    (current.elim 0 (·.grossCostBasisMicros) + amountMicros)
    (current.elim 0 (·.entryFeesMicros) + entryFeeDelta)
    (current.elim 0 (·.realizedPnlMicros) + realizedDelta)
    realizedDelta

/-- One posting of the replay: only a posting with contract units moves a position. -/
def replayPosting (entry : LedgerEntry) (loop : ReplayLoop) (posting : Posting) :
    Except Raised ReplayLoop :=
  match posting.contractUnitsDelta with
  | none => .ok loop
  | some unitsDelta =>
      match posting.positionKey with
      | none => .error (.valueError "contract posting dimensions are incomplete")
      | some key => replayUnits entry loop key unitsDelta posting.amountMicros

def replayEntry (agentId : String) (loop : ReplayLoop) (entry : LedgerEntry) :
    Except Raised ReplayLoop :=
  if entry.agentId ≠ agentId then .error (.valueError "ledger replay cannot mix agents")
  else do
    let (ledger, _) ← loop.ledger.append entry
    let cash := loop.cash +
      ((entry.postings.filter fun posting => posting.account = .cash).map
        fun posting => posting.amountMicros).sum
    entry.postings.foldlM (replayPosting entry) { loop with ledger := ledger, cash := cash }

/-- Replay contract-dimension postings for an audit/checksum verification. -/
def replayContractPortfolio (initial : ContractPortfolio) (entries : List LedgerEntry) :
    Except Raised ContractPortfolio := do
  let loop ← entries.foldlM (replayEntry initial.agentId)
    ⟨AppendOnlyLedger.empty, initial.cashMicros, initial.positions, initial.realizedPnlMicros⟩
  if loop.cash < 0 then .error (.valueError "ledger replay produced negative cash")
  else
    ContractPortfolio.make {
      agentId := initial.agentId
      cashMicros := loop.cash
      positions := loop.positions
      version := initial.version + entries.length
      reconciliationBlocked := initial.reconciliationBlocked
      realizedPnlMicros := loop.realizedPnlMicros }

end VTrade
