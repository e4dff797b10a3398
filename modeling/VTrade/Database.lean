/-
# The tables

What the repository writes and the runtime reads back, as far as one of them
reads it again: the agents with their portfolio versions, the intents and the
orders with their fills, the evidence they were executed on, the ledger, the
projected positions, the fee allocations, and the observations and settlements of
markets.

Identifiers that the repository derives from a text are that text, and markets
and outcomes are told apart by what they are about.
-/

import Mathlib.Algebra.Order.Group.Int
import Mathlib.Data.List.Dedup
import VTrade.Domain.Evidence
import VTrade.OrderResult
import VTrade.Schema
import VTrade.Settlement

namespace VTrade

structure AgentRow where
  id : String
  portfolioVersion : ℤ
  paused : Bool
  deriving DecidableEq

structure CycleRow where
  id : String
  agentId : String
  dataCutoff : Option Instant
  deriving DecidableEq

inductive IntentStatus
  | opened
  | finalized
  deriving DecidableEq

/-- A row of `order_operation_intents`. -/
structure IntentRow where
  agentId : String
  marketOutcome : PositionKey
  frozenCutoff : Instant
  requestedAt : Instant
  idempotencyKey : String
  requestFingerprint : Sha256
  status : IntentStatus
  operationId : Option String
  deriving DecidableEq

def IntentRow.key (row : IntentRow) : String × String := (row.agentId, row.idempotencyKey)

/-- A row of `order_operations` with the row of `order_operation_current` that a
trigger makes for it. -/
structure OperationRow where
  id : String
  agentId : String
  marketOutcome : PositionKey
  orderSide : Side
  idempotencyKey : String
  requestFingerprint : Sha256
  state : OrderState
  reconciliationState : ReconciliationState
  deriving DecidableEq

namespace OperationRow

def key (row : OperationRow) : String × String := (row.agentId, row.idempotencyKey)

/-- What blocks further orders of the agent. -/
def unresolved (row : OperationRow) : Bool :=
  row.reconciliationState = .required ∨ row.reconciliationState = .conflict

end OperationRow

structure FillRow where
  id : String
  operationId : String
  fillId : String
  fillFingerprint : Sha256
  contractUnits : ℤ
  priceMicros : ℤ
  grossCashMicros : ℤ
  authoritativeFeeMicros : ℤ
  netCashDeltaMicros : ℤ
  executionContextId : Option String
  tradeFeeMicros : ℤ
  roundingFeeMicros : ℤ
  rebateMicros : ℤ
  feePolicySnapshotId : Option String
  deriving DecidableEq

/-! ## What an order was executed on -/

structure RawArtifactRow where
  sha256 : Sha256
  byteLength : ℤ
  uri : String
  requestIdentity : Option String
  observedAt : Instant
  deriving DecidableEq

/-- A row of `fee_policy_snapshots`, apart from what the policy is made of. -/
structure FeePolicyRow where
  id : String
  marketId : MarketKey
  policyFingerprint : Sha256
  cutoff : Instant
  deriving DecidableEq

/-- A row of `execution_contexts` with the identifiers of its market and its book. -/
structure ExecutionContextRow where
  id : String
  operationId : String
  agentId : String
  marketId : MarketKey
  frozenCutoff : Instant
  refreshedAt : Instant
  executionCutoff : Instant
  feePolicySnapshotId : Option String
  marketSnapshotId : String
  bookSnapshotId : String
  deriving DecidableEq

structure HaircutAuditRow where
  snapshotId : String
  outcomeSide : OutcomeSide
  ruleVersion : String
  capturedRawLevels : ℕ
  effectiveLevels : ℕ
  rawDepthUnits : ℤ
  ignoredQuantityUnits : ℤ
  effectiveDepthUnits : ℤ
  consumedQuantityUnits : ℤ
  cancelledQuantityUnits : ℤ
  remainingQuantityUnits : ℤ
  executable : Bool
  deriving DecidableEq

structure EvidenceTables where
  rawArtifacts : List RawArtifactRow
  feePolicies : List FeePolicyRow
  executionContexts : List ExecutionContextRow
  haircutAudits : List HaircutAuditRow
  feePolicies_unique : (feePolicies.map FeePolicyRow.id).Nodup
  deriving DecidableEq

/-! ## The books -/

/-- A row of `ledger_entries` with the rows of its postings. -/
structure LedgerEntryRow where
  id : String
  agentId : String
  eventType : String
  sourceTable : String
  sourceId : String
  idempotencyKey : String
  postings : List PostingRow
  deriving DecidableEq

structure PositionRow where
  agentId : String
  marketId : MarketKey
  outcomeSide : OutcomeSide
  contractUnits : ℤ
  grossCostBasisMicros : ℤ
  entryFeesMicros : ℤ
  realizedPnlMicros : ℤ
  portfolioVersion : ℤ
  updatedAt : Instant
  deriving DecidableEq

namespace PositionRow

def marketOutcome (row : PositionRow) : PositionKey := (row.marketId, row.outcomeSide)

def key (row : PositionRow) : String × PositionKey := (row.agentId, row.marketOutcome)

end PositionRow

inductive AllocationKind
  | entry
  | sellRelease
  | settlement
  deriving DecidableEq

/-- Entry fees that a fill or a settlement moves in or out of a position. -/
structure FeeAllocationRow where
  position : String × PositionKey
  sourceId : String
  contractUnits : ℤ
  feeMicros : ℤ
  allocationKind : AllocationKind
  deriving DecidableEq

structure ResolutionRow where
  id : String
  marketId : MarketKey
  lifecycleStatus : MarketStatus
  result : Option OutcomeSide
  observedAt : Instant
  sourceTimestamp : Option Instant
  settlementTs : Option Instant
  cutoff : Instant
  rawArtifactId : String
  blocked : Bool
  deriving DecidableEq

structure SettlementRow where
  id : String
  agentId : String
  positionId : String × PositionKey
  resolutionId : String
  marketId : MarketKey
  settlementTs : Instant
  outcomeSide : OutcomeSide
  contractUnits : ℤ
  grossPayoutMicros : ℤ
  entryFeesDeductedMicros : ℤ
  realizedPnlMicros : ℤ
  ledgerEntryId : String
  idempotencyKey : String
  settlementFingerprint : Sha256
  deriving DecidableEq

/-- The tables.  The unique keys that reading the portfolio relies on come along. -/
structure Database where
  agents : List AgentRow
  cycles : List CycleRow
  /-- The price ranges of the markets that are known. -/
  markets : List (MarketKey × List PriceRange)
  intents : List IntentRow
  operations : List OperationRow
  fills : List FillRow
  evidence : EvidenceTables
  ledgerEntries : List LedgerEntryRow
  positions : List PositionRow
  feeAllocations : List FeeAllocationRow
  resolutions : List ResolutionRow
  settlements : List SettlementRow
  positions_unique : (positions.map PositionRow.key).Nodup
  deriving DecidableEq

namespace Database

variable (db : Database)

def agent (agentId : String) : Option AgentRow := KeyedList.lookup AgentRow.id agentId db.agents

def operation (agentId idempotencyKey : String) : Option OperationRow :=
  KeyedList.lookup OperationRow.key (agentId, idempotencyKey) db.operations

def intent (agentId idempotencyKey : String) : Option IntentRow :=
  KeyedList.lookup IntentRow.key (agentId, idempotencyKey) db.intents

def position (agentId : String) (key : PositionKey) : Option PositionRow :=
  KeyedList.lookup PositionRow.key (agentId, key) db.positions

/-- Whether an order of the agent waits for reconciliation. -/
def isBlocked (agentId : String) : Bool :=
  db.operations.any fun row => row.agentId = agentId ∧ row.unresolved

/-- The postings of an agent's entries. -/
def ledgerPostings (agentId : String) : List PostingRow :=
  (db.ledgerEntries.filter fun row => row.agentId = agentId).flatMap fun row => row.postings

end Database

/-! ## Totals of postings -/

/-- What postings bring in on the cash account. -/
def cashAmount (rows : List PostingRow) : ℤ :=
  ((rows.filter fun row => row.account = "cash").map fun row => row.amountMicros).sum

/-- The market and the outcome of a posting, as far as it has them. -/
abbrev Dimensions := Option MarketKey × Option OutcomeSide

def PostingRow.dimensions (row : PostingRow) : Dimensions := (row.marketId, row.outcomeSide)

def costRows (rows : List PostingRow) : List PostingRow :=
  rows.filter fun row => row.account = "position_cost"

/-- What postings bring in as the cost of a position. -/
def costAmount (rows : List PostingRow) (dimensions : Dimensions) : ℤ :=
  (((costRows rows).filter fun row => row.dimensions = dimensions).map
    fun row => row.amountMicros).sum

@[simp]
theorem cashAmount_append (first second : List PostingRow) :
    cashAmount (first ++ second) = cashAmount first + cashAmount second := by
  simp [cashAmount]

@[simp]
theorem costAmount_append (first second : List PostingRow) (dimensions : Dimensions) :
    costAmount (first ++ second) dimensions =
      costAmount first dimensions + costAmount second dimensions := by
  simp [costAmount, costRows]

/-! ## What the runtime reads -/

/-- The position that a row is read as. -/
def PositionRow.fields (row : PositionRow) : ContractPositionFields where
  marketRef := row.marketId
  outcome := row.outcomeSide
  contractUnits := row.contractUnits
  grossCostBasisMicros := row.grossCostBasisMicros
  entryFeesMicros := row.entryFeesMicros
  realizedPnlMicros := row.realizedPnlMicros
  updatedAt := row.updatedAt

/-- `ORDER BY market_ref, outcome_side`. -/
def PositionRow.precedes (first second : PositionRow) : Bool :=
  first.marketId.marketRef < second.marketId.marketRef ∨
    first.marketId.marketRef = second.marketId.marketRef ∧
      first.outcomeSide.value ≤ second.outcomeSide.value

namespace Database

variable (db : Database)

/-- The rows of an agent's positions that still have units. -/
def openPositions (agentId : String) : List PositionRow :=
  (db.positions.filter fun row => row.agentId = agentId ∧ 0 < row.contractUnits).insertionSort
    fun first second => first.precedes second

/-- The realized result of all of an agent's rows, the empty ones among them. -/
def realizedPnlMicros (agentId : String) : ℤ :=
  ((db.positions.filter fun row => row.agentId = agentId).map
    fun row => row.realizedPnlMicros).sum

/-- The portfolio of an agent, as the tables have it. -/
def loadContractPortfolio (agentId : String) : Except Raised ContractPortfolio :=
  match db.agent agentId with
  | none => .error (.runtimeError "agent account is missing")
  | some account => do
      let positions ← (db.openPositions agentId).mapM fun row => ContractPosition.make row.fields
      ContractPortfolio.make {
        agentId := agentId
        cashMicros := cashAmount (db.ledgerPostings agentId)
        positions := positions
        version := account.portfolioVersion
        reconciliationBlocked := db.isBlocked agentId
        realizedPnlMicros := db.realizedPnlMicros agentId }

/-- The cost that the row of a position has. -/
def cachedBasis (agentId : String) : Dimensions → ℤ
  | (some marketId, some outcomeSide) =>
      (db.position agentId (marketId, outcomeSide)).elim 0 fun row => row.grossCostBasisMicros
  | _ => 0

/-- How far the cost in the rows of positions is from the cost in the ledger, over
the dimensions that either has. -/
def ledgerMismatch (agentId : String) : ℤ :=
  let postings := db.ledgerPostings agentId
  let ledger := ((costRows postings).map PostingRow.dimensions).dedup
  let unposted := db.positions.filter fun row =>
    row.agentId = agentId ∧ (some row.marketId, some row.outcomeSide) ∉ ledger
  (ledger.map fun dimensions =>
      |costAmount postings dimensions - db.cachedBasis agentId dimensions|).sum +
    (unposted.map fun row => |row.grossCostBasisMicros|).sum

end Database

end VTrade
