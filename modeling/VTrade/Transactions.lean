/-
# What the transactions write

A transaction that records an order or a settlement either finds it recorded already
and writes nothing, or writes all of it.  What it writes is said once here, table by
table; everything that holds of runs is derived from that.
-/

import VTrade.Repository

namespace VTrade

/-! ## Orders -/

/-- The row of a new order, whose agent waits for nothing. -/
theorem Database.insertOperation_spec {digests : Digests} {db recorded : Database}
    {result : OrderResultFields} {operationId agentCycleId : String}
    (h : db.insertOperation digests result operationId agentCycleId = .ok recorded) :
    recorded = { db with
      operations := db.operations ++ [operationRow digests result operationId] } ∧
      db.isBlocked result.request.agentId = false ∧
      ∀ row ∈ db.operations, row.id ≠ operationId := by
  obtain ⟨_, hblocked, h⟩ := Checks.bind_eq_ok.mp h
  obtain ⟨-, -, h⟩ := Checks.bind_eq_ok.mp h
  obtain ⟨_, hunique, h⟩ := Checks.bind_eq_ok.mp h
  cases h
  refine ⟨rfl, (Checks.raiseFirst_cons_eq_ok.mp hblocked).1, fun row hmem hid => ?_⟩
  have hnone := (Checks.raiseFirst_cons_eq_ok.mp hunique).1
  rw [List.any_eq_false] at hnone
  exact hnone row hmem (decide_eq_true hid)

/-- Recording an order adds its row and its evidence, and makes its intent final. -/
theorem Database.recordOrder_spec {digests : Digests} {db recorded : Database}
    {result : OrderResultFields} {agentId operationId agentCycleId : String}
    {evidence : OrderEvidence} {snapshotId : Option String}
    (h : db.recordOrder digests result agentId operationId agentCycleId evidence =
      .ok (recorded, snapshotId)) :
    (∀ row ∈ db.operations, row.id ≠ operationId) ∧
      db.isBlocked result.request.agentId = false ∧
      ∃ tables, db.evidence.persistExecutionContext result evidence agentId operationId =
          .ok (tables, snapshotId) ∧
        recorded = { db with
          operations := db.operations ++ [operationRow digests result operationId]
          evidence := tables }.finalizeIntent digests result.request operationId := by
  obtain ⟨inserted, hinserted, h⟩ := Checks.bind_eq_ok.mp h
  obtain ⟨⟨tables, _⟩, htables, h⟩ := Checks.bind_eq_ok.mp h
  cases h
  obtain ⟨rfl, hblocked, hnew⟩ := insertOperation_spec hinserted
  exact ⟨hnew, hblocked, tables, htables, rfl⟩

/-- An order that is recorded is found by its identifier. -/
theorem Database.find?_recordOrder {digests : Digests} {db recorded : Database}
    {result : OrderResultFields} {agentId operationId agentCycleId : String}
    {evidence : OrderEvidence} {snapshotId : Option String}
    (h : db.recordOrder digests result agentId operationId agentCycleId evidence =
      .ok (recorded, snapshotId)) :
    recorded.operations.find? (fun row => row.id = operationId) =
      some (operationRow digests result operationId) := by
  obtain ⟨hnew, -, tables, -, rfl⟩ := recordOrder_spec h
  have hnone : db.operations.find? (fun row => row.id = operationId) = none := by
    rw [List.find?_eq_none]
    intro row hmem hid
    exact hnew row hmem (of_decide_eq_true hid)
  change (db.operations ++ [operationRow digests result operationId]).find? _ = _
  rw [List.find?_append, hnone, Option.none_or]
  simp [operationRow]

theorem Database.insertFill_eq {db next : Database} {row : FillRow}
    (h : db.insertFill row = .ok next) : next = { db with fills := db.fills ++ [row] } := by
  unfold insertFill at h
  split at h
  · cases h
  · obtain ⟨-, -, h⟩ := Checks.bind_eq_ok.mp h
    obtain ⟨-, -, h⟩ := Checks.bind_eq_ok.mp h
    obtain ⟨-, h⟩ := Checks.ite_error_eq_ok.mp h
    cases h
    rfl

/-- The rows of an order's fills: one for each fill, under the order's identifier. -/
structure RowsOfFills (result : OrderResultFields) (operationId : String) (rows : List FillRow) :
    Prop where
  operation : ∀ row ∈ rows, row.operationId = operationId
  fills : rows.map (fun row => (row.fillId, row.fillFingerprint)) =
    result.fills.map fun fill => (fill.fillId, fill.fingerprint)

namespace Database

variable {vocabulary : List String} {digests : Digests} {db next : Database}
  {result : OrderResultFields} {agentId operationId agentCycleId : String}

/-- Inserting fills adds their rows, and the audit of their liquidity. -/
theorem insertFills_eq {feePolicy : Option FeePolicyEvidence} {snapshotId : Option String}
    (h : db.insertFills result operationId feePolicy snapshotId = .ok next) :
    ∃ rows tables, RowsOfFills result operationId rows ∧
      next = { db with fills := db.fills ++ rows, evidence := tables } := by
  obtain ⟨feePolicyId, -, h⟩ := Checks.bind_eq_ok.mp h
  obtain ⟨filled, hfilled, h⟩ := Checks.bind_eq_ok.mp h
  let row (item : EconomicFill × ℕ) : FillRow :=
    fillRow result operationId feePolicyId item.1 result.feeCalculations[item.2]?
  have hrun := Checks.foldlM_invariant
    (fun seen reached => reached = { db with fills := db.fills ++ seen.map row }) []
    (fun seen item reached after _ hreached hstep => by
      obtain ⟨-, -, hinsert⟩ := Checks.bind_eq_ok.mp hstep
      rw [insertFill_eq hinsert, hreached, List.map_append, ← List.append_assoc]
      rfl) hfilled (by rw [List.map_nil, List.append_nil])
  have hrows : RowsOfFills result operationId (result.fills.zipIdx.map row) := by
    constructor
    · intro other hmem
      obtain ⟨item, -, rfl⟩ := List.mem_map.mp hmem
      rfl
    · rw [List.map_map]
      conv_rhs => rw [← List.zipIdx_map_fst 0 result.fills, List.map_map]
      rfl
  rw [List.nil_append] at hrun
  split at h
  · obtain ⟨tables, -, h⟩ := Checks.bind_eq_ok.mp h
    cases h
    exact ⟨_, tables, hrows, by rw [hrun]⟩
  · cases h
    exact ⟨_, db.evidence, hrows, hrun⟩

theorem insertContractLedger_eq {row : LedgerEntryRow}
    (h : db.insertContractLedger vocabulary row = .ok next) :
    next = { db with ledgerEntries := db.ledgerEntries ++ [row] } := by
  obtain ⟨-, h⟩ := Checks.ite_error_eq_ok.mp h
  obtain ⟨-, -, h⟩ := Checks.bind_eq_ok.mp h
  cases h
  rfl

/-- Advancing an agent's version writes its row. -/
theorem advanceContractPortfolioVersion_eq {row : AgentRow} {version : ℤ}
    (h : db.agent agentId = some row) :
    db.advanceContractPortfolioVersion agentId version =
      { db with
        agents := KeyedList.upsert AgentRow.id { row with portfolioVersion := version }
          db.agents } := by
  rw [advanceContractPortfolioVersion, h]

theorem assertContractPortfolioVersion_eq_ok {expected : ℤ}
    (h : db.assertContractPortfolioVersion agentId expected = .ok ()) :
    ∃ row, db.agent agentId = some row ∧ row.portfolioVersion = expected := by
  unfold assertContractPortfolioVersion at h
  split at h
  · cases h
  next row hrow =>
    obtain ⟨hversion, -⟩ := Checks.ite_error_eq_ok.mp h
    exact ⟨row, hrow, not_not.mp hversion⟩

/-- The books of all agents, and the evidence that settlements rest on. -/
structure SameBooks (db next : Database) : Prop where
  agents : next.agents = db.agents
  fills : next.fills = db.fills
  ledgerEntries : next.ledgerEntries = db.ledgerEntries
  positions : next.positions = db.positions
  feeAllocations : next.feeAllocations = db.feeAllocations
  settlements : next.settlements = db.settlements

/-- What a new order with fills writes to the books: the version of its agent goes from
the portfolio it was decided on to the one it leaves, its fills and its entries are added,
and its position is written. -/
structure MovesOrder (db : Database) (result : OrderResultFields) (agentId operationId : String)
    (before after : ContractPortfolio) (next : Database) : Prop where
  agents : ∃ row, db.agent agentId = some row ∧ row.portfolioVersion = before.version ∧
    next.agents = KeyedList.upsert AgentRow.id { row with portfolioVersion := after.version }
      db.agents
  fills : ∃ rows, RowsOfFills result operationId rows ∧ next.fills = db.fills ++ rows
  ledgerEntries : next.ledgerEntries = db.ledgerEntries ++ result.ledgerEntries.map
    (ledgerEntryRow agentId "order_operations" operationId result.request.positionKey)
  positions : next.positions = KeyedList.upsert PositionRow.key
    (contractPositionRow after agentId result.request.positionKey result.updatedAt) db.positions
  feeAllocations : next.feeAllocations = db.feeAllocations ++
    feeAllocationRows result before after agentId
  settlements : next.settlements = db.settlements

/-- What a new order writes. -/
structure RecordsOrder (digests : Digests) (db : Database) (result : OrderResultFields)
    (agentId operationId : String) (next : Database) : Prop where
  unrecorded : db.operation agentId result.request.idempotencyKey = none
  operations : next.operations = db.operations ++ [operationRow digests result operationId]
  intents : next.intents = (db.finalizeIntent digests result.request operationId).intents
  cycles : next.cycles = db.cycles
  markets : next.markets = db.markets
  resolutions : next.resolutions = db.resolutions
  books : (result.fills = [] ∧ SameBooks db next) ∨
    (result.fills ≠ [] ∧ ∃ before after, result.portfolioBefore = some before ∧
      result.portfolioAfter = some after ∧
      MovesOrder db result agentId operationId before after next)

theorem RecordsOrder.settlements {digests : Digests} {db next : Database}
    {result : OrderResultFields} {agentId operationId : String}
    (h : RecordsOrder digests db result agentId operationId next) :
    next.settlements = db.settlements := by
  rcases h.books with ⟨-, hbooks⟩ | ⟨-, before, after, -, -, hmoves⟩
  · exact hbooks.settlements
  · exact hmoves.settlements

/-- The accounting of an order adds its entries, writes its position and advances the
version. -/
theorem insertAccounting_eq {before after : ContractPortfolio} {row : AgentRow}
    (h : db.insertAccounting vocabulary result agentId operationId before after = .ok next)
    (hrow : db.agent agentId = some row) :
    next = { db.upsertPosition
        (contractPositionRow after agentId result.request.positionKey result.updatedAt) with
      ledgerEntries := db.ledgerEntries ++ result.ledgerEntries.map
        (ledgerEntryRow agentId "order_operations" operationId result.request.positionKey)
      feeAllocations := db.feeAllocations ++ feeAllocationRows result before after agentId
      agents := KeyedList.upsert AgentRow.id { row with portfolioVersion := after.version }
        db.agents } := by
  obtain ⟨posted, hposted, h⟩ := Checks.bind_eq_ok.mp h
  have hrun := Checks.foldlM_invariant
    (fun seen reached => reached = { db with ledgerEntries := db.ledgerEntries ++ seen }) []
    (fun seen item reached after _ hreached hstep => by
      rw [insertContractLedger_eq hstep, hreached, List.append_assoc]) hposted
    (by rw [List.append_nil])
  rw [List.nil_append] at hrun
  cases h
  rw [hrun]
  exact advanceContractPortfolioVersion_eq hrow

theorem insertOrder_spec {result : OrderResult} {evidence : OrderEvidence}
    (hnew : db.operation agentId result.request.idempotencyKey = none)
    (h : db.insertOrder vocabulary digests result agentId operationId agentCycleId evidence =
      .ok next) : RecordsOrder digests db result.toOrderResultFields agentId operationId next := by
  obtain ⟨⟨recorded, snapshotId⟩, hrecorded, h⟩ := Checks.bind_eq_ok.mp h
  obtain ⟨-, -, tables, -, rfl⟩ := recordOrder_spec hrecorded
  dsimp only at h
  split at h
  next hfills =>
    cases h
    exact ⟨hnew, rfl, rfl, rfl, rfl, rfl, Or.inl ⟨hfills, ⟨rfl, rfl, rfl, rfl, rfl, rfl⟩⟩⟩
  next fill fills hfills =>
    split at h
    next before after hbefore hafter =>
      obtain ⟨⟨⟩, hversion, h⟩ := Checks.bind_eq_ok.mp h
      obtain ⟨filled, hfilled, h⟩ := Checks.bind_eq_ok.mp h
      obtain ⟨row, hrow, hrowVersion⟩ := assertContractPortfolioVersion_eq_ok hversion
      obtain ⟨rows, tables', hrows, rfl⟩ := insertFills_eq hfilled
      obtain rfl := insertAccounting_eq h hrow
      refine ⟨hnew, rfl, rfl, rfl, rfl, rfl, Or.inr ⟨by simp [hfills], before, after, hbefore,
        hafter, ?_⟩⟩
      exact ⟨⟨row, hrow, hrowVersion, rfl⟩, ⟨rows, hrows, rfl⟩, rfl, rfl, rfl, rfl⟩
    next => cases h

/-- Persisting an order finds it recorded and writes nothing, or records it. -/
theorem persistOrderResult_spec {result : OrderResult} {operationId : Option String}
    {evidence : OrderEvidence} {persisted : PersistenceResult}
    (h : db.persistOrderResult vocabulary digests result agentId agentCycleId operationId
      evidence = .ok (next, persisted)) :
    result.request.agentId = agentId ∧
      ((persisted.created = false ∧ next = db ∧
          (db.operation agentId result.request.idempotencyKey).isSome = true) ∨
        (persisted.created = true ∧ RecordsOrder digests db result.toOrderResultFields agentId
          (operationId.getD result.operationId) next)) := by
  obtain ⟨howned, h⟩ := Checks.ite_error_eq_ok.mp h
  refine ⟨not_not.mp howned, ?_⟩
  split at h
  next existing hexisting =>
    obtain ⟨-, h⟩ := Checks.ite_error_eq_ok.mp h
    obtain ⟨-, -, h⟩ := Checks.bind_eq_ok.mp h
    cases h
    exact Or.inl ⟨rfl, rfl, by rw [hexisting]; rfl⟩
  next hnew =>
    split at h
    · cases h
    · obtain ⟨-, h⟩ := Checks.ite_error_eq_ok.mp h
      obtain ⟨written, hwritten, h⟩ := Checks.bind_eq_ok.mp h
      cases h
      exact Or.inr ⟨rfl, insertOrder_spec hnew hwritten⟩

/-! ## Settlements -/

/-- What a new settlement writes: the version of its agent advances, its entry and its
row are added, and its position is emptied. -/
structure RecordsSettlement (digests : Digests) (db : Database) (record : SettlementRecord)
    (agentId : String) (key : PositionKey) (resolutionId : String)
    (before after : ContractPortfolio) (next : Database) : Prop where
  unrecorded : db.settlement record.ledgerEntry.idempotencyKey (agentId, key) resolutionId = none
  guarded : db.guardSettlement (settlementRow digests record agentId key resolutionId) = .ok ()
  agents : ∃ row, db.agent agentId = some row ∧ row.portfolioVersion = before.version ∧
    next.agents = KeyedList.upsert AgentRow.id { row with portfolioVersion := after.version }
      db.agents
  ledgerEntries : next.ledgerEntries = db.ledgerEntries ++
    [ledgerEntryRow agentId "settlements" record.settlementId (key.1, record.outcome)
      record.ledgerEntry]
  settlements : next.settlements = db.settlements ++
    [settlementRow digests record agentId key resolutionId]
  positions : ∃ row, db.position agentId key = some row ∧
    next.positions = KeyedList.upsert PositionRow.key { row with
      contractUnits := 0
      grossCostBasisMicros := 0
      entryFeesMicros := 0
      realizedPnlMicros := row.realizedPnlMicros + record.realizedPnlMicros
      portfolioVersion := after.version
      updatedAt := record.settlementTs } db.positions
  feeAllocations : next.feeAllocations = db.feeAllocations ++
    [settlementAllocationRow record agentId key]
  operations : next.operations = db.operations
  intents : next.intents = db.intents
  fills : next.fills = db.fills
  cycles : next.cycles = db.cycles
  markets : next.markets = db.markets
  resolutions : next.resolutions = db.resolutions

/-- A settlement row that is not there yet is added, once it passes its guard. -/
theorem insertSettlementRow_eq {row : SettlementRow}
    (hnew : db.settlement row.idempotencyKey row.positionId row.resolutionId = none)
    (h : db.insertSettlementRow row = .ok next) :
    db.guardSettlement row = .ok () ∧
      next = { db with settlements := db.settlements ++ [row] } := by
  obtain ⟨⟨⟩, hguard, h⟩ := Checks.bind_eq_ok.mp h
  simp only [hnew] at h
  obtain ⟨-, -, h⟩ := Checks.bind_eq_ok.mp h
  obtain ⟨-, -, h⟩ := Checks.bind_eq_ok.mp h
  cases h
  exact ⟨hguard, rfl⟩

theorem settlePosition_eq {record : SettlementRecord} {key : PositionKey} {version : ℤ}
    (h : db.settlePosition record agentId key version = .ok next) :
    ∃ row, db.position agentId key = some row ∧ next = db.upsertPosition { row with
      contractUnits := 0
      grossCostBasisMicros := 0
      entryFeesMicros := 0
      realizedPnlMicros := row.realizedPnlMicros + record.realizedPnlMicros
      portfolioVersion := version
      updatedAt := record.settlementTs } := by
  unfold settlePosition at h
  split at h
  · cases h
  next row hrow =>
    cases h
    exact ⟨row, hrow, rfl⟩

/-- Persisting a settlement finds it recorded and writes nothing, or records it. -/
theorem persistSettlementRecord_spec {record : SettlementRecord} {key : PositionKey}
    {resolutionId : String} {before after : ContractPortfolio} {persisted : PersistenceResult}
    (h : db.persistSettlementRecord vocabulary digests record agentId key resolutionId before
      after = .ok (next, persisted)) :
    before.agentId = agentId ∧ after.agentId = agentId ∧
      ((persisted.created = false ∧ next = db ∧
          ∃ existing, db.settlement record.ledgerEntry.idempotencyKey (agentId, key)
            resolutionId = some existing) ∨
        (persisted.created = true ∧ RecordsSettlement digests db record agentId key resolutionId
          before after next)) := by
  obtain ⟨howned, h⟩ := Checks.ite_error_eq_ok.mp h
  rw [not_or, not_not, not_not] at howned
  refine ⟨howned.1, howned.2, ?_⟩
  split at h
  next existing hexisting =>
    obtain ⟨-, h⟩ := Checks.ite_error_eq_ok.mp h
    cases h
    exact Or.inl ⟨rfl, rfl, existing, hexisting⟩
  next hnew =>
    obtain ⟨written, hwritten, h⟩ := Checks.bind_eq_ok.mp h
    cases h
    refine Or.inr ⟨rfl, ?_⟩
    obtain ⟨⟨⟩, hversion, hwritten⟩ := Checks.bind_eq_ok.mp hwritten
    obtain ⟨posted, hposted, hwritten⟩ := Checks.bind_eq_ok.mp hwritten
    obtain ⟨settlement, hsettlement, hwritten⟩ := Checks.bind_eq_ok.mp hwritten
    obtain ⟨settled, hsettled, hwritten⟩ := Checks.bind_eq_ok.mp hwritten
    cases hwritten
    obtain ⟨row, hrow, hrowVersion⟩ := assertContractPortfolioVersion_eq_ok hversion
    obtain rfl := insertContractLedger_eq hposted
    obtain ⟨hguard, rfl⟩ := insertSettlementRow_eq hnew hsettlement
    obtain ⟨position, hposition, hsettled⟩ := settlePosition_eq hsettled
    have hagent : settled.agent agentId = some row := by
      rw [hsettled]
      exact hrow
    rw [advanceContractPortfolioVersion_eq hagent, hsettled]
    exact ⟨hnew, hguard, ⟨row, hrow, hrowVersion, rfl⟩, rfl, rfl, ⟨position, hposition, rfl⟩,
      rfl, rfl, rfl, rfl, rfl, rfl, rfl⟩

end Database

end VTrade
