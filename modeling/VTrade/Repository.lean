/-
# Persisting orders and settlements

The two calls that move an agent's books in the database.  Each is one
transaction: it gives the tables it leaves, or raises and leaves none.  A call
for something that is already recorded answers with the record and writes
nothing; anything that moves money is checked against the stored version of the
portfolio it was decided on and raises that version.
-/

import VTrade.ExecutionContexts
import VTrade.Resolution

namespace VTrade

structure PersistenceResult where
  recordId : String
  created : Bool
  deriving DecidableEq

namespace Database

variable (db : Database)

/-! ## The portfolio version -/

/-- `_assert_contract_portfolio_version`. -/
def assertContractPortfolioVersion (agentId : String) (expected : ℤ) : Except Raised Unit :=
  match db.agent agentId with
  | none => .error (.valueError "agent does not exist")
  | some row =>
      if row.portfolioVersion ≠ expected then
        .error (.valueError "stale contract portfolio projection")
      else .ok ()

/-- `_advance_contract_portfolio_version`. -/
def advanceContractPortfolioVersion (agentId : String) (version : ℤ) : Database :=
  match db.agent agentId with
  | none => db
  | some row =>
      let advanced := { row with portfolioVersion := version }
      { db with agents := KeyedList.upsert AgentRow.id advanced db.agents }

/-! ## The ledger -/

end Database

/-- The rows written for an entry about one market outcome. -/
def ledgerEntryRow (agentId sourceTable sourceId : String) (key : PositionKey)
    (entry : LedgerEntry) : LedgerEntryRow where
  id := entry.id
  agentId := agentId
  eventType := entry.eventType
  sourceTable := sourceTable
  sourceId := sourceId
  idempotencyKey := entry.idempotencyKey
  postings := entry.postingRows (some key)

/-- Whether two rows of `ledger_entries` cannot both be there. -/
def LedgerEntryRow.clashes (first second : LedgerEntryRow) : Bool :=
  first.id = second.id ∨ first.idempotencyKey = second.idempotencyKey ∨
    (first.sourceTable = second.sourceTable ∧ first.sourceId = second.sourceId ∧
      first.eventType = second.eventType)

/-- `_insert_contract_ledger`, for a vocabulary of accounts. -/
def Database.insertContractLedger (vocabulary : List String) (db : Database)
    (row : LedgerEntryRow) : Except Raised Database :=
  if db.ledgerEntries.any fun other => other.clashes row then
    .error (.databaseError "duplicate key value violates a unique constraint of ledger_entries")
  else do
    insertPostings vocabulary row.postings
    .ok { db with ledgerEntries := db.ledgerEntries ++ [row] }

/-! ## Orders -/

def operationRow (digests : Digests) (result : OrderResultFields) (operationId : String) :
    OperationRow where
  id := operationId
  agentId := result.request.agentId
  marketOutcome := result.request.positionKey
  orderSide := result.request.action
  idempotencyKey := result.request.idempotencyKey
  requestFingerprint := digests.fingerprint result.request
  state := result.state
  reconciliationState := result.reconciliationState

/-- The row of a fill.  Its identifier is made from the operation the result
names, its reference from the operation it is recorded under; its fees are those of
its calculation, when there is one. -/
def fillRow (result : OrderResultFields) (operationId : String) (feePolicyId : Option String)
    (fill : EconomicFill) (calculation : Option FeeCalculation) : FillRow where
  id := result.operationId ++ ":" ++ fill.fillId
  operationId := operationId
  fillId := fill.fillId
  fillFingerprint := fill.fingerprint
  contractUnits := fill.contractUnits
  priceMicros := fill.priceMicros
  grossCashMicros := fill.grossCashMicros
  authoritativeFeeMicros := fill.feeMicros
  netCashDeltaMicros := fill.netCashDeltaMicros
  executionContextId := fill.executionContextId
  tradeFeeMicros := calculation.elim fill.tradeFeeMicros FeeCalculation.tradeFeeMicros
  roundingFeeMicros := calculation.elim fill.roundingFeeMicros FeeCalculation.roundingFeeMicros
  rebateMicros := calculation.elim fill.rebateMicros FeeCalculation.rebateMicros
  feePolicySnapshotId := feePolicyId

/-- `_uuid_or_none` on the contexts that a fill refers to. -/
def checkFillContexts (fill : EconomicFillFields) : Except Raised Unit :=
  Checks.raiseFirst [
    (fill.frozenContextId.any (¬ isUuid ·) ∨ fill.executionContextId.any (¬ isUuid ·),
      .valueError "execution context reference must be a UUID")]

namespace FillRow

/-- Whether two rows of `fills` cannot both be there. -/
def clashes (first second : FillRow) : Bool :=
  first.id = second.id ∨ (first.operationId = second.operationId ∧
    (first.fillId = second.fillId ∨ first.fillFingerprint = second.fillFingerprint))

/-- `vtrade_guard_fill_fee_policy`. -/
def guardFeePolicy (operation : OperationRow) (tables : EvidenceTables) (row : FillRow) :
    Except Raised Unit :=
  match row.feePolicySnapshotId with
  | none => .error (.databaseError "financial fill requires an immutable fee policy snapshot")
  | some policyId =>
      let executionPolicyId := row.executionContextId.bind fun id =>
        (tables.executionContext id).bind ExecutionContextRow.feePolicySnapshotId
      Checks.raiseFirst [
        (((tables.feePolicy policyId).all fun policy =>
              policy.marketId ≠ operation.marketOutcome.1) ∨
            (row.executionContextId.isSome ∧ executionPolicyId ≠ some policyId) ∨
            row.tradeFeeMicros + row.roundingFeeMicros < row.rebateMicros ∨
            row.authoritativeFeeMicros ≠
              row.tradeFeeMicros + row.roundingFeeMicros - row.rebateMicros,
          .databaseError "fill fee accounting does not match its immutable policy")]

/-- `vtrade_guard_fill_cash_delta` and the checks of `fills`. -/
def check (side : Side) (row : FillRow) : Except Raised Unit :=
  Checks.raiseFirst [
    (side = .buy ∧
        row.netCashDeltaMicros ≠ -(row.grossCashMicros + row.authoritativeFeeMicros),
      .databaseError "BUY fill net cash delta does not include authoritative fee"),
    (side = .sell ∧ row.netCashDeltaMicros ≠ row.grossCashMicros - row.authoritativeFeeMicros,
      .databaseError "SELL fill net cash delta does not include authoritative fee"),
    (row.fillId = "" ∨ 512 < row.fillId.toList.length, .databaseError "fills_fill_id_check"),
    (row.contractUnits ≤ 0, .databaseError "fills_contract_units_check"),
    (¬ (0 ≤ row.priceMicros ∧ row.priceMicros ≤ 1000000),
      .databaseError "fills_price_micros_check"),
    (row.grossCashMicros < 0, .databaseError "fills_gross_cash_micros_check"),
    (row.authoritativeFeeMicros < 0, .databaseError "fills_authoritative_fee_micros_check"),
    (row.tradeFeeMicros < 0 ∨ row.roundingFeeMicros < 0 ∨ row.rebateMicros < 0,
      .databaseError "fills_fee_components_nonnegative"),
    (row.feePolicySnapshotId.isSome ∧ row.executionContextId = none,
      .databaseError "fills_fee_policy_requires_execution_context")]

end FillRow

/-- Insert a row of `fills` with its guards. -/
def Database.insertFill (db : Database) (row : FillRow) : Except Raised Database :=
  match db.operations.find? fun operation => operation.id = row.operationId with
  | none => .error (.databaseError "fills_operation_id_fkey")
  | some operation => do
      row.guardFeePolicy operation db.evidence
      row.check operation.orderSide
      if db.fills.any fun other => other.clashes row then
        .error (.databaseError "duplicate key value violates a unique constraint of fills")
      else .ok { db with fills := db.fills ++ [row] }

/-! ### The haircut audit -/

def haircutAuditRow (audit : HaircutAuditFields) (snapshotId : String) : HaircutAuditRow where
  snapshotId := snapshotId
  outcomeSide := audit.outcome
  ruleVersion := audit.ruleVersion
  capturedRawLevels := audit.capturedLevelCount
  effectiveLevels := audit.effectiveLevelCount
  rawDepthUnits := audit.rawQuantityUnits
  ignoredQuantityUnits := audit.ignoredQuantityUnits
  effectiveDepthUnits := audit.effectiveQuantityUnits
  consumedQuantityUnits := audit.consumedQuantityUnits
  cancelledQuantityUnits := audit.cancelledQuantityUnits
  remainingQuantityUnits := audit.remainingQuantityUnits
  executable := audit.effectiveQuantityUnits ≠ 0

/-- The checks of `liquidity_haircut_audits`. -/
def HaircutAuditRow.check (row : HaircutAuditRow) : Except Raised Unit :=
  Checks.raiseFirst [
    (row.ruleVersion ≠ "best-level-haircut-v1",
      .databaseError "liquidity_haircut_audits_rule_version_check"),
    (row.capturedRawLevels ≠ 6,
      .databaseError "liquidity_haircut_audits_captured_raw_levels_check"),
    (row.effectiveLevels ≠ 5,
      .databaseError "liquidity_haircut_audits_effective_levels_check"),
    (row.rawDepthUnits < 0 ∨ row.ignoredQuantityUnits < 0 ∨ row.effectiveDepthUnits < 0 ∨
        row.consumedQuantityUnits < 0 ∨ row.cancelledQuantityUnits < 0 ∨
        row.remainingQuantityUnits < 0,
      .databaseError "liquidity_haircut_audits_units_check"),
    (row.rawDepthUnits ≠ row.ignoredQuantityUnits + row.effectiveDepthUnits,
      .databaseError "liquidity_haircut_audits_check"),
    (row.rawDepthUnits * 50 < row.ignoredQuantityUnits * 100,
      .databaseError "liquidity_haircut_audits_check1"),
    (row.effectiveDepthUnits < row.consumedQuantityUnits + row.remainingQuantityUnits,
      .databaseError "liquidity_haircut_audits_check2")]

/-- Insert the audit of a book and an outcome, unless they have one. -/
def EvidenceTables.insertHaircutAudit (tables : EvidenceTables) (row : HaircutAuditRow) :
    Except Raised EvidenceTables := do
  row.check
  if tables.haircutAudits.any fun other =>
      other.snapshotId = row.snapshotId ∧ other.outcomeSide = row.outcomeSide then
    .ok tables
  else .ok { tables with haircutAudits := tables.haircutAudits ++ [row] }

/-! ### Positions -/

/-- The row that `_upsert_contract_position` writes: what the portfolio holds under
the key, or a row of zeros. -/
def contractPositionRow (portfolio : ContractPortfolio) (agentId : String) (key : PositionKey)
    (updatedAt : Instant) : PositionRow :=
  let position := portfolio.position key
  { agentId := agentId
    marketId := key.1
    outcomeSide := key.2
    contractUnits := position.elim 0 fun position => position.contractUnits
    grossCostBasisMicros := position.elim 0 fun position => position.grossCostBasisMicros
    entryFeesMicros := position.elim 0 fun position => position.entryFeesMicros
    realizedPnlMicros := position.elim 0 fun position => position.realizedPnlMicros
    portfolioVersion := portfolio.version
    updatedAt := updatedAt }

/-- Write a position in the place of the row of its agent, market and outcome. -/
def Database.upsertPosition (db : Database) (row : PositionRow) : Database :=
  { db with
    positions := KeyedList.upsert PositionRow.key row db.positions
    positions_unique := KeyedList.nodup_upsert db.positions_unique row }

/-- The entry fees that the fills of an order bring to the position or release
from it.  A release is written once, under the first fill. -/
def feeAllocationRows (result : OrderResultFields) (before after : ContractPortfolio)
    (agentId : String) : List FeeAllocationRow :=
  let key := result.request.positionKey
  match result.request.action with
  | .buy => result.fills.map fun fill => {
      position := (agentId, key)
      sourceId := result.operationId ++ ":" ++ fill.fillId
      contractUnits := fill.contractUnits
      feeMicros := fill.feeMicros
      allocationKind := .entry }
  | .sell =>
      let removed := (before.position key).elim 0 fun position =>
        position.entryFeesMicros -
          (after.position key).elim 0 fun position => position.entryFeesMicros
      match result.fills with
      | [] => []
      | fill :: _ =>
          if 0 < removed then [{
            position := (agentId, key)
            sourceId := result.operationId ++ ":" ++ fill.fillId
            contractUnits := (result.fills.map fun fill => fill.contractUnits).sum
            feeMicros := removed
            allocationKind := .sellRelease }]
          else []

namespace Database

variable (vocabulary : List String) (digests : Digests) (db : Database)

/-- `_assert_semantic_replay`: a recorded order is the one that is asked for. -/
def assertSemanticReplay (existing : OperationRow) (result : OrderResultFields) : Except Raised Unit :=
  let recorded := (db.fills.filter fun row => row.operationId = existing.id).map
    fun row => (row.fillId, row.fillFingerprint)
  let expected := result.fills.map fun fill => (fill.fillId, fill.fingerprint)
  let sorted (fills : List (String × Sha256)) :=
    fills.insertionSort fun first second => first.1 ≤ second.1
  if existing.state ≠ result.state ∨
      existing.reconciliationState ≠ result.reconciliationState then
    .error (.valueError "semantic order replay has divergent lifecycle evidence")
  else if sorted recorded ≠ sorted expected then
    .error (.valueError "semantic order replay has divergent fill evidence")
  else .ok ()

/-- `vtrade_guard_order_operation`, once no order of the agent waits. -/
def guardOperation (result : OrderResultFields) (agentCycleId : String) : Except Raised Unit :=
  let frozenCutoff := result.request.frozenCutoff.getD result.submittedAt
  let cycleCutoff := (KeyedList.lookup CycleRow.id agentCycleId db.cycles).bind
    CycleRow.dataCutoff
  let ranges := (KeyedList.lookup Prod.fst result.request.marketRef db.markets).elim []
    Prod.snd
  Checks.raiseFirst [
    (cycleCutoff.all (· < frozenCutoff) ∨ result.updatedAt < frozenCutoff ∨
        result.submittedAt < frozenCutoff ∨ result.updatedAt < result.submittedAt,
      .databaseError "order operation has invalid temporal evidence"),
    (result.request.limitPriceMicros.any fun price =>
        ¬ ranges.any fun range => range.contains price,
      .databaseError "limit price is not on the market grid")]

/-- The rows of a new order itself. -/
def insertOperation (result : OrderResultFields) (operationId agentCycleId : String) :
    Except Raised Database := do
  Checks.raiseFirst [
    (db.isBlocked result.request.agentId,
      .databaseError "agent has an unresolved pending reconciliation")]
  db.guardOperation result agentCycleId
  Checks.raiseFirst [
    (db.operations.any fun row => row.id = operationId,
      .databaseError "duplicate key value violates order_operations_pkey")]
  .ok { db with operations := db.operations ++ [operationRow digests result operationId] }

/-- The intent of an order is final once the order is recorded. -/
def finalizeIntent (request : OrderRequest) (operationId : String) : Database :=
  { db with
    intents := db.intents.map fun row =>
      if row.key = (request.agentId, request.idempotencyKey) ∧
          row.requestFingerprint = digests.fingerprint request ∧ row.status = .opened then
        { row with
          status := .finalized
          operationId := some operationId }
      else row }

/-- The row of the fee policy that fills are recorded with. -/
def persistedFeePolicyId (marketId : MarketKey) :
    Option FeePolicyEvidence → Except Raised (Option String)
  | none => .ok none
  | some policy =>
      match db.evidence.feePolicyId marketId policy.fingerprint with
      | none => .error (.valueError "fee policy snapshot is not persisted")
      | some id => .ok (some id)

/-- The fills of an order and the audit of the liquidity that they took. -/
def insertFills (result : OrderResultFields) (operationId : String)
    (feePolicy : Option FeePolicyEvidence) (snapshotId : Option String) :
    Except Raised Database := do
  let feePolicyId ← db.persistedFeePolicyId result.request.marketRef feePolicy
  let filled ← result.fills.zipIdx.foldlM (fun (db : Database) item => do
    checkFillContexts item.1.toEconomicFillFields
    db.insertFill (fillRow result operationId feePolicyId item.1
      result.feeCalculations[item.2]?)) db
  match result.liquidityAudit, snapshotId with
  | some audit, some snapshotId => do
      let evidence ← filled.evidence.insertHaircutAudit
        (haircutAuditRow audit.toHaircutAuditFields snapshotId)
      .ok { filled with evidence := evidence }
  | _, _ => .ok filled

/-- What a new order with fills writes besides the fills. -/
def insertAccounting (result : OrderResultFields) (agentId operationId : String)
    (before after : ContractPortfolio) : Except Raised Database := do
  let posted ← (result.ledgerEntries.map
      (ledgerEntryRow agentId "order_operations" operationId
        result.request.positionKey)).foldlM (insertContractLedger vocabulary) db
  let positioned := posted.upsertPosition
    (contractPositionRow after agentId result.request.positionKey result.updatedAt)
  let allocated := { positioned with
    feeAllocations := positioned.feeAllocations ++
      feeAllocationRows result before after agentId }
  .ok (allocated.advanceContractPortfolioVersion agentId after.version)

/-- The row of a new order with its context, and its intent: what an order writes with or
without fills.  The context gives the snapshot of its book. -/
def recordOrder (result : OrderResultFields) (agentId operationId agentCycleId : String)
    (evidence : OrderEvidence) : Except Raised (Database × Option String) := do
  let recorded ← db.insertOperation digests result operationId agentCycleId
  let (tables, snapshotId) ← recorded.evidence.persistExecutionContext result evidence agentId
    operationId
  .ok ({ recorded with evidence := tables }.finalizeIntent digests result.request operationId,
    snapshotId)

/-- What a new order writes. -/
def insertOrder (result : OrderResult) (agentId operationId agentCycleId : String)
    (evidence : OrderEvidence) : Except Raised Database := do
  let (recorded, snapshotId) ← db.recordOrder digests result.toOrderResultFields agentId
    operationId agentCycleId evidence
  match result.fills with
  | [] => .ok recorded
  | _ :: _ =>
      match result.portfolioBefore, result.portfolioAfter with
      | some before, some after => do
          recorded.assertContractPortfolioVersion agentId before.version
          let filled ← recorded.insertFills result.toOrderResultFields operationId
            evidence.feePolicy (snapshotId <|> evidence.bookSnapshotId)
          filled.insertAccounting vocabulary result.toOrderResultFields agentId operationId
            before after
      | _, _ => .error (.valueError "semantic fills require contract portfolio projections")

/-- Persist one semantic order and its fill/accounting evidence atomically. -/
def persistOrderResult (result : OrderResult) (agentId agentCycleId : String)
    (operationId : Option String) (evidence : OrderEvidence) :
    Except Raised (Database × PersistenceResult) :=
  if result.request.agentId ≠ agentId then
    .error (.valueError "database agent does not own the semantic order")
  else
    match db.operation agentId result.request.idempotencyKey with
    | some existing =>
        if existing.requestFingerprint ≠ digests.fingerprint result.request then
          .error (.valueError "semantic idempotency key was reused with different evidence")
        else do
          db.assertSemanticReplay existing result.toOrderResultFields
          .ok (db, ⟨existing.id, false⟩)
    | none =>
        match db.agent agentId with
        | none => .error (.valueError "agent does not exist")
        | some agent =>
            if agent.paused then .error (.valueError "agent is paused")
            else do
              let operationId := operationId.getD result.operationId
              let written ← db.insertOrder vocabulary digests result agentId operationId
                agentCycleId evidence
              .ok (written, ⟨operationId, true⟩)

end Database

/-! ## Settlements -/

def settlementRow (digests : Digests) (record : SettlementRecord) (agentId : String)
    (key : PositionKey) (resolutionId : String) : SettlementRow where
  id := record.settlementId
  agentId := agentId
  positionId := (agentId, key)
  resolutionId := resolutionId
  marketId := key.1
  settlementTs := record.settlementTs
  outcomeSide := record.outcome
  contractUnits := record.contractUnits
  grossPayoutMicros := record.grossPayoutMicros
  entryFeesDeductedMicros := record.entryFeesDeductedMicros
  realizedPnlMicros := record.realizedPnlMicros
  ledgerEntryId := record.ledgerEntry.id
  idempotencyKey := record.ledgerEntry.idempotencyKey
  settlementFingerprint := digests.settlement record.canonicalPayload

/-- The entry fees that a settlement releases. -/
def settlementAllocationRow (record : SettlementRecord) (agentId : String) (key : PositionKey) :
    FeeAllocationRow where
  position := (agentId, key)
  sourceId := record.settlementId
  contractUnits := record.contractUnits
  feeMicros := record.entryFeesDeductedMicros
  allocationKind := .settlement

namespace Database

variable (vocabulary : List String) (digests : Digests) (db : Database)

/-- The settled position's row: nothing is left in it, and the result is added. -/
def settlePosition (record : SettlementRecord) (agentId : String) (key : PositionKey)
    (version : ℤ) : Except Raised Database :=
  match db.position agentId key with
  | none => .error (.valueError "settlement position update did not match its owner")
  | some row => .ok (db.upsertPosition { row with
      contractUnits := 0
      grossCostBasisMicros := 0
      entryFeesMicros := 0
      realizedPnlMicros := row.realizedPnlMicros + record.realizedPnlMicros
      portfolioVersion := version
      updatedAt := record.settlementTs })

/-- What a new settlement writes. -/
def insertSettlement (record : SettlementRecord) (agentId : String) (key : PositionKey)
    (resolutionId : String) (before after : ContractPortfolio) : Except Raised Database := do
  let row := settlementRow digests record agentId key resolutionId
  db.assertContractPortfolioVersion agentId before.version
  let posted ← db.insertContractLedger vocabulary
    (ledgerEntryRow agentId "settlements" record.settlementId (key.1, record.outcome)
      record.ledgerEntry)
  let settlement ← posted.insertSettlementRow row
  let allocated := { settlement with
    feeAllocations := settlement.feeAllocations ++ [settlementAllocationRow record agentId key] }
  let settled ← allocated.settlePosition record agentId key after.version
  .ok (settled.advanceContractPortfolioVersion agentId after.version)

/-- Persist one validated FINALIZED payout and its atomic projection. -/
def persistSettlementRecord (record : SettlementRecord) (agentId : String) (key : PositionKey)
    (resolutionId : String) (before after : ContractPortfolio) :
    Except Raised (Database × PersistenceResult) :=
  if before.agentId ≠ agentId ∨ after.agentId ≠ agentId then
    .error (.valueError "settlement portfolio is owned by another agent")
  else
    match db.settlement record.ledgerEntry.idempotencyKey (agentId, key) resolutionId with
    | some existing =>
        if existing.settlementFingerprint ≠ digests.settlement record.canonicalPayload then
          .error (.valueError "terminal settlement evidence conflicts with prior evidence")
        else .ok (db, ⟨existing.id, false⟩)
    | none => do
        let written ← db.insertSettlement vocabulary digests record agentId key resolutionId
          before after
        .ok (written, ⟨record.settlementId, true⟩)

end Database

end VTrade
