/-
# Entry fees are conserved

Fills bring entry fees into a position, and sales and settlements release them.  Each of
these leaves an allocation; what the allocations leave in a position is what its row says.

An order or a settlement keeps that when it was made on a portfolio that has the entry fees
of the row.  The ledger of the schema has no account for fees, so under it no fees are ever
recorded.  Under a ledger that has one, portfolios have the fees of the rows as long as no
settlement pass comes upon a settlement that it does not remember.
-/

import VTrade.ProjectionRuns

namespace VTrade

namespace Database

variable {db next : Database} {agentId : String} {key : PositionKey}

/-! ## Allocations -/

/-- The entry fees that allocations of one kind move at a position. -/
def feesOfKind (rows : List FeeAllocationRow) (kind : AllocationKind)
    (position : String × PositionKey) : ℤ :=
  ((rows.filter fun row => row.position = position ∧ row.allocationKind = kind).map
    fun row => row.feeMicros).sum

/-- The entry fees that the allocations of one kind have moved. -/
def allocatedFees (db : Database) (kind : AllocationKind) (agentId : String) (key : PositionKey) :
    ℤ :=
  feesOfKind db.feeAllocations kind (agentId, key)

/-- The entry fees that the row of a position has. -/
def outstandingFees (db : Database) (agentId : String) (key : PositionKey) : ℤ :=
  (db.position agentId key).elim 0 fun row => row.entryFeesMicros

/-- Allocations leave in every position what its row has, and nothing in one without units;
and none of them is negative. -/
structure FeesConserved (db : Database) : Prop where
  outstanding : ∀ agentId key,
    db.allocatedFees .entry agentId key - db.allocatedFees .sellRelease agentId key -
      db.allocatedFees .settlement agentId key = db.outstandingFees agentId key
  closed : ∀ row ∈ db.positions, row.contractUnits = 0 → row.entryFeesMicros = 0
  nonneg : ∀ row ∈ db.feeAllocations, 0 ≤ row.feeMicros

/-- What allocations leave in a position. -/
def netFees (rows : List FeeAllocationRow) (position : String × PositionKey) : ℤ :=
  ((rows.filter fun row => row.position = position).map fun row =>
    if row.allocationKind = .entry then row.feeMicros else -row.feeMicros).sum

@[simp]
theorem netFees_append (first second : List FeeAllocationRow) (position : String × PositionKey) :
    netFees (first ++ second) position = netFees first position + netFees second position := by
  simp [netFees]

/-- Allocations to another position leave nothing in this one. -/
theorem netFees_of_ne {rows : List FeeAllocationRow} {position : String × PositionKey}
    (h : ∀ row ∈ rows, row.position ≠ position) : netFees rows position = 0 := by
  have hnone : rows.filter (fun row => row.position = position) = [] := by
    rw [List.filter_eq_nil_iff]
    intro row hmem
    simpa using h row hmem
  rw [netFees, hnone]
  rfl

theorem netFees_cons (row : FeeAllocationRow) (rows : List FeeAllocationRow)
    (position : String × PositionKey) :
    netFees (row :: rows) position =
      (if row.position = position then
        if row.allocationKind = .entry then row.feeMicros else -row.feeMicros
      else 0) + netFees rows position := by
  by_cases hposition : row.position = position
  · simp [netFees, hposition]
  · simp [netFees, hposition]

theorem feesOfKind_cons (row : FeeAllocationRow) (rows : List FeeAllocationRow)
    (kind : AllocationKind) (position : String × PositionKey) :
    feesOfKind (row :: rows) kind position =
      (if row.position = position ∧ row.allocationKind = kind then row.feeMicros else 0) +
        feesOfKind rows kind position := by
  by_cases hrow : row.position = position ∧ row.allocationKind = kind
  · simp [feesOfKind, hrow]
  · simp [feesOfKind, hrow]

/-- Entries less releases less settlements is what allocations leave. -/
theorem feesOfKind_eq_netFees (rows : List FeeAllocationRow) (position : String × PositionKey) :
    feesOfKind rows .entry position - feesOfKind rows .sellRelease position -
      feesOfKind rows .settlement position = netFees rows position := by
  induction rows with
  | nil => rfl
  | cons row rows ih =>
      rw [netFees_cons, ← ih, feesOfKind_cons, feesOfKind_cons, feesOfKind_cons]
      by_cases hposition : row.position = position
      · cases hkind : row.allocationKind with
        | entry => simp [hposition]; ring
        | sellRelease => simp [hposition]; ring
        | settlement => simp [hposition]; ring
      · simp [hposition]

/-- Where every position is left what its row has, another step that leaves rows and allocations
keeps that. -/
theorem FeesConserved.of_same (h : db.FeesConserved) (hpositions : next.positions = db.positions)
    (hallocations : next.feeAllocations = db.feeAllocations) : next.FeesConserved where
  outstanding agentId key := by
    unfold allocatedFees outstandingFees position
    rw [hallocations, hpositions]
    exact h.outstanding agentId key
  closed row hmem := h.closed row (hpositions ▸ hmem)
  nonneg row hmem := h.nonneg row (hallocations ▸ hmem)

/-- A step that writes one row, and allocations to it that make up for what it changes, keeps
every position at what its allocations leave. -/
theorem FeesConserved.upsert (h : db.FeesConserved) {row : PositionRow}
    {rows : List FeeAllocationRow}
    (hpositions : next.positions = KeyedList.upsert PositionRow.key row db.positions)
    (hallocations : next.feeAllocations = db.feeAllocations ++ rows)
    (hkey : row.key = (agentId, key)) (hrows : ∀ allocation ∈ rows, allocation.position = row.key)
    (hnonneg : ∀ allocation ∈ rows, 0 ≤ allocation.feeMicros)
    (hclosed : row.contractUnits = 0 → row.entryFeesMicros = 0)
    (hfees : row.entryFeesMicros = db.outstandingFees agentId key + netFees rows row.key) :
    next.FeesConserved := by
  constructor
  · intro other otherKey
    have hold := h.outstanding other otherKey
    unfold allocatedFees at hold ⊢
    rw [feesOfKind_eq_netFees] at hold
    rw [feesOfKind_eq_netFees, hallocations, netFees_append, hold]
    by_cases hsame : (other, otherKey) = row.key
    · obtain ⟨rfl, rfl⟩ := Prod.mk.inj (hsame.trans hkey)
      have hfound : next.position other otherKey = some row := by
        rw [position, hpositions, hsame]
        exact KeyedList.lookup_upsert_self row db.positions
      rw [hsame, ← hfees, outstandingFees, hfound]
      rfl
    · have hkept : next.position other otherKey = db.position other otherKey := by
        rw [position, hpositions]
        exact KeyedList.lookup_upsert_of_ne hsame db.positions
      rw [netFees_of_ne (fun allocation hmem hposition =>
        hsame (hposition.symm.trans (hrows allocation hmem))), add_zero, outstandingFees,
        outstandingFees, hkept]
  · intro other hmem
    rw [hpositions] at hmem
    rcases KeyedList.mem_upsert hmem with rfl | hold
    · exact hclosed
    · exact h.closed other hold
  · intro allocation hmem
    rw [hallocations] at hmem
    rcases List.mem_append.mp hmem with hold | hnew
    · exact h.nonneg allocation hold
    · exact hnonneg allocation hnew

end Database

/-! ## What orders and settlements move -/

/-- A sale takes entry fees, if any. -/
theorem OrderBooked.sell_fees_nonpos {portfolio after : ContractPortfolio} {request : OrderRequest}
    {fills : List EconomicFill} {operationId : String} {occurredAt : Datetime}
    {entry : LedgerEntry} {loop : FillLoop}
    (h : OrderBooked portfolio request fills operationId occurredAt after entry loop)
    (haction : request.action = .sell) : (loop.movement request).fees ≤ 0 := by
  apply Checks.foldlM_invariant (fun _ loop => (loop.movement request).fees ≤ 0) [] _ h.run
  · rw [FillLoop.start_movement]
    exact le_refl 0
  · intro seen loop fill next _ hloop hstep
    simp only [applyFill, haction] at hstep
    obtain ⟨current, removedBasis, removedFees, -, -, -, hfees, hstep, -, -⟩ :=
      applySellFill_spec haction hstep
    obtain ⟨htotal, -, -, -, rfl⟩ := proRata_eq_ok_iff.mp hfees
    have hshare := share_nonneg htotal fill.contractUnits current.contractUnits
    rw [hstep.movement_eq]
    change (loop.movement request).fees + -_ ≤ 0
    omega

/-- An order leaves the entry fees of its position changed by what it moves. -/
theorem OrderBooked.entryFees {portfolio after : ContractPortfolio} {request : OrderRequest}
    {fills : List EconomicFill} {operationId : String} {occurredAt : Datetime}
    {entry : LedgerEntry} {loop : FillLoop}
    (h : OrderBooked portfolio request fills operationId occurredAt after entry loop)
    (hopen : portfolio.AllOpen) :
    (after.account.holding request.positionKey).fees =
      (portfolio.account.holding request.positionKey).fees + (loop.movement request).fees := by
  rw [h.account hopen, show request.positionKey = (loop.movement request).key from rfl,
    Books.Account.holding_post_self, Books.Holding.closeOut_fees, Books.Holding.add_fees]
  rfl

theorem ContractPortfolio.entryFees_eq_holding (portfolio : ContractPortfolio)
    (key : PositionKey) :
    ((portfolio.position key).elim 0 fun position => position.entryFeesMicros) =
      (portfolio.account.holding key).fees := by
  rw [portfolio.account_holding]
  cases portfolio.position key with
  | none => rfl
  | some position => rfl

/-- The allocations of an order leave what it moves, and none of them is negative. -/
theorem netFees_feeAllocationRows {portfolio after : ContractPortfolio}
    {result : OrderResultFields} {agentId : String} {occurredAt : Datetime} {entry : LedgerEntry}
    {loop : FillLoop}
    (h : OrderBooked portfolio result.request result.fills result.operationId occurredAt after
      entry loop) (hopen : portfolio.AllOpen) :
    Database.netFees (feeAllocationRows result portfolio after agentId)
        (agentId, result.request.positionKey) = (loop.movement result.request).fees ∧
      (∀ row ∈ feeAllocationRows result portfolio after agentId, 0 ≤ row.feeMicros) ∧
      ∀ row ∈ feeAllocationRows result portfolio after agentId,
        row.position = (agentId, result.request.positionKey) := by
  unfold feeAllocationRows
  cases haction : result.request.action with
  | buy =>
      rw [h.loopTotals.buy_fees haction]
      refine ⟨?_, ?_, ?_⟩
      · induction result.fills with
        | nil => rfl
        | cons fill fills ih =>
            simp only [List.map_cons, Database.netFees_cons, if_true, List.sum_cons, ih]
      · intro row hmem
        obtain ⟨fill, -, rfl⟩ := List.mem_map.mp hmem
        exact fill.feeMicros_nonneg
      · intro row hmem
        obtain ⟨fill, -, rfl⟩ := List.mem_map.mp hmem
        rfl
  | sell =>
      obtain ⟨fill, rest, hfills⟩ := List.exists_cons_of_ne_nil h.fills_ne_nil
      obtain ⟨current, hcurrent⟩ := h.sell_position haction
      have hmoved := h.entryFees hopen
      have hnonpos := h.sell_fees_nonpos haction
      rw [← ContractPortfolio.entryFees_eq_holding, ← ContractPortfolio.entryFees_eq_holding,
        hcurrent, Option.elim_some] at hmoved
      simp only [hfills, hcurrent, Option.elim_some]
      by_cases hremoved : 0 < current.entryFeesMicros -
          (after.position result.request.positionKey).elim 0 fun position =>
            position.entryFeesMicros
      · rw [if_pos hremoved]
        refine ⟨?_, ?_, ?_⟩
        · simp only [Database.netFees_cons, if_true, reduceCtorEq, if_false]
          rw [Database.netFees_of_ne (by simp)]
          omega
        · intro row hmem
          rw [List.mem_singleton.mp hmem]
          exact hremoved.le
        · intro row hmem
          rw [List.mem_singleton.mp hmem]
      · rw [if_neg hremoved]
        refine ⟨?_, by simp, by simp⟩
        rw [Database.netFees_of_ne (by simp)]
        omega

namespace Database

variable {db next : Database} {agentId : String}

/-- An order that was decided on a portfolio with the entry fees of the row keeps what
allocations leave. -/
theorem FeesConserved.order (h : db.FeesConserved) {before after : ContractPortfolio}
    {result : OrderResultFields} {operationId : String} {occurredAt : Datetime}
    {entry : LedgerEntry} {loop : FillLoop}
    (hbooked : OrderBooked before result.request result.fills result.operationId occurredAt after
      entry loop) (hopen : before.AllOpen)
    (hmoves : MovesOrder db result agentId operationId before after next)
    (hfees : db.outstandingFees agentId result.request.positionKey =
      (before.account.holding result.request.positionKey).fees) : next.FeesConserved := by
  obtain ⟨hnet, hnonneg, hrows⟩ := @netFees_feeAllocationRows _ _ _ agentId _ _ _ hbooked hopen
  apply h.upsert hmoves.positions hmoves.feeAllocations rfl hrows hnonneg
  · unfold contractPositionRow
    cases hposition : after.position result.request.positionKey with
    | none => exact fun _ => rfl
    | some position =>
        intro hzero
        have hpos := (hbooked.allOpen hopen).contractUnits_pos hposition
        exact absurd hzero hpos.ne'
  · change _ = db.outstandingFees agentId result.request.positionKey +
      netFees _ (agentId, result.request.positionKey)
    rw [hnet, hfees, ← hbooked.entryFees hopen]
    exact after.entryFees_eq_holding _

/-- A settlement of a position with the entry fees of the row keeps what allocations leave. -/
theorem FeesConserved.settlement (h : db.FeesConserved) {digests : Digests} {key : PositionKey}
    {before after : ContractPortfolio} {position : ContractPosition} {result : OutcomeSide}
    {settlementTs settledAt : Datetime} {resolutionId observationId : String}
    {record : SettlementRecord}
    (hbooked : SettlementBooked before position result settlementTs resolutionId settledAt after
      record)
    (hrecords : RecordsSettlement digests db record agentId key observationId before after next)
    (hfees : db.outstandingFees agentId key = position.entryFeesMicros) : next.FeesConserved := by
  obtain ⟨row, hrow, hpositions⟩ := hrecords.positions
  have hkey : row.key = (agentId, key) := KeyedList.key_of_lookup_eq_some hrow
  have hdeducted : record.entryFeesDeductedMicros = position.entryFeesMicros := by
    rw [hbooked.record_eq]
  apply h.upsert hpositions hrecords.feeAllocations hkey
  · intro allocation hmem
    rw [List.mem_singleton.mp hmem]
    exact hkey.symm
  · intro allocation hmem
    rw [List.mem_singleton.mp hmem]
    change 0 ≤ record.entryFeesDeductedMicros
    rw [hdeducted]
    exact position.entryFeesMicros_nonneg
  · exact fun _ => rfl
  · have hreleased : netFees [settlementAllocationRow record agentId key] (agentId, key) =
        -record.entryFeesDeductedMicros := by
      rw [netFees_cons, netFees_of_ne (by simp), add_zero]
      simp [settlementAllocationRow]
    change 0 = _ + netFees _ row.key
    rw [hkey, hreleased, hdeducted, hfees]
    exact (add_neg_cancel _).symm

/-- Tables that show a portfolio have its entry fees. -/
theorem Shows.outstandingFees {portfolio : ContractPortfolio} (h : db.Shows agentId portfolio)
    (key : PositionKey) :
    db.outstandingFees agentId key = (portfolio.account.holding key).fees := by
  have hfees := congrArg Books.Holding.fees (h.holdings key)
  change (db.holding agentId key).fees = (portfolio.account.holding key).fees at hfees
  rw [← hfees, Database.outstandingFees, holding]
  cases db.position agentId key with
  | none => rfl
  | some row => rfl

end Database

/-! ## Ledgers without an account for fees -/

/-- An entry that states fees has a row on the account for fees. -/
theorem fees_mem_postingRows {entry : LedgerEntry} {movement : Books.Movement PositionKey}
    {expense : ℤ} (h : entry.Posts (postingsOf movement expense)) (key : Option PositionKey)
    (hfees : movement.fees + expense ≠ 0) :
    ∃ row ∈ entry.postingRows key, row.account = "fees" := by
  rw [h.postingRows_eq]
  refine ⟨_, List.mem_map_of_mem (a := PostingFields.ofFees movement.key
    (movement.fees + expense) movement.fees) ?_, rfl⟩
  simp [MovementPostings.fields, postingsOf, hfees]

namespace Database

variable {vocabulary : List String} {digests : Digests} {db next : Database}

/-- New entries are on accounts of a vocabulary. -/
def Posted (vocabulary : List String) (db next : Database) : Prop :=
  ∃ rows, next.ledgerEntries = db.ledgerEntries ++ rows ∧
    ∀ row ∈ rows, ∀ posting ∈ row.postings, posting.account ∈ vocabulary

theorem Posted.of_eq (h : next.ledgerEntries = db.ledgerEntries) : Posted vocabulary db next :=
  ⟨[], by rw [h, List.append_nil], by simp⟩

/-- No row on another account is among the new ones. -/
theorem Posted.account_mem {rows : List LedgerEntryRow} (h : Posted vocabulary db next)
    (hrows : next.ledgerEntries = db.ledgerEntries ++ rows) {row : LedgerEntryRow}
    (hrow : row ∈ rows) {posting : PostingRow} (hposting : posting ∈ row.postings) :
    posting.account ∈ vocabulary := by
  obtain ⟨posted, hposted, haccounts⟩ := h
  obtain rfl := List.append_cancel_left (hrows.symm.trans hposted)
  exact haccounts row hrow posting hposting

theorem insertContractLedger_posted {row : LedgerEntryRow}
    (h : db.insertContractLedger vocabulary row = .ok next) :
    ∀ posting ∈ row.postings, posting.account ∈ vocabulary := by
  obtain ⟨-, h⟩ := Checks.ite_error_eq_ok.mp h
  obtain ⟨⟨⟩, hpostings, -⟩ := Checks.bind_eq_ok.mp h
  intro posting hmem
  exact (PostingRow.check_eq_ok_iff.mp
    ((insertPostings_eq_ok_iff.mp hpostings).1 posting hmem)).2.2.1

theorem insertAccounting_posted {result : OrderResultFields} {agentId operationId : String}
    {before after : ContractPortfolio}
    (h : db.insertAccounting vocabulary result agentId operationId before after = .ok next) :
    Posted vocabulary db next := by
  obtain ⟨posted, hposted, h⟩ := Checks.bind_eq_ok.mp h
  have hrun := Checks.foldlM_invariant
    (fun seen reached => reached.ledgerEntries = db.ledgerEntries ++ seen ∧
      ∀ row ∈ seen, ∀ posting ∈ row.postings, posting.account ∈ vocabulary) []
    (fun seen reached row after _ hreached hstep => by
      refine ⟨?_, ?_⟩
      · rw [insertContractLedger_eq hstep, ← List.append_assoc, ← hreached.1]
      · intro other hmem
        rcases List.mem_append.mp hmem with hold | hnew
        · exact hreached.2 other hold
        · rw [List.mem_singleton.mp hnew]
          exact insertContractLedger_posted hstep) hposted ⟨by rw [List.append_nil], by simp⟩
  cases h
  refine ⟨_, ?_, hrun.2⟩
  rw [← hrun.1]
  unfold advanceContractPortfolioVersion
  split
  · rfl
  · rfl

/-- An order that is persisted posts on accounts of the ledger. -/
theorem persistOrderResult_posted {result : OrderResult} {agentId agentCycleId : String}
    {operationId : Option String} {evidence : OrderEvidence} {persisted : PersistenceResult}
    (h : db.persistOrderResult vocabulary digests result agentId agentCycleId operationId
      evidence = .ok (next, persisted)) : Posted vocabulary db next := by
  obtain ⟨-, h⟩ := Checks.ite_error_eq_ok.mp h
  split at h
  · obtain ⟨-, h⟩ := Checks.ite_error_eq_ok.mp h
    obtain ⟨-, -, h⟩ := Checks.bind_eq_ok.mp h
    cases h
    exact .of_eq rfl
  · split at h
    · cases h
    · obtain ⟨-, h⟩ := Checks.ite_error_eq_ok.mp h
      obtain ⟨written, hwritten, h⟩ := Checks.bind_eq_ok.mp h
      cases h
      obtain ⟨⟨recorded, snapshotId⟩, hrecorded, hwritten⟩ := Checks.bind_eq_ok.mp hwritten
      obtain ⟨-, -, tables, -, rfl⟩ := recordOrder_spec hrecorded
      dsimp only at hwritten
      split at hwritten
      · cases hwritten
        exact .of_eq rfl
      · split at hwritten
        · obtain ⟨-, -, hwritten⟩ := Checks.bind_eq_ok.mp hwritten
          obtain ⟨filled, hfilled, hwritten⟩ := Checks.bind_eq_ok.mp hwritten
          obtain ⟨rows, tables', -, rfl⟩ := insertFills_eq hfilled
          obtain ⟨posted, hposted, haccounts⟩ := insertAccounting_posted hwritten
          exact ⟨posted, hposted, haccounts⟩
        · cases hwritten

/-- A settlement that is persisted posts on accounts of the ledger. -/
theorem persistSettlementRecord_posted {record : SettlementRecord} {agentId : String}
    {key : PositionKey} {resolutionId : String} {before after : ContractPortfolio}
    {persisted : PersistenceResult}
    (h : db.persistSettlementRecord vocabulary digests record agentId key resolutionId before
      after = .ok (next, persisted)) : Posted vocabulary db next := by
  obtain ⟨-, -, ⟨-, rfl, -⟩ | ⟨hcreated, hrecords⟩⟩ := persistSettlementRecord_spec h
  · exact .of_eq rfl
  · refine ⟨_, hrecords.ledgerEntries, ?_⟩
    intro row hmem
    rw [List.mem_singleton.mp hmem]
    obtain ⟨-, h⟩ := Checks.ite_error_eq_ok.mp h
    split at h
    · obtain ⟨-, h⟩ := Checks.ite_error_eq_ok.mp h
      cases h
      cases hcreated
    · obtain ⟨written, hwritten, -⟩ := Checks.bind_eq_ok.mp h
      obtain ⟨-, -, hwritten⟩ := Checks.bind_eq_ok.mp hwritten
      obtain ⟨posted, hposted, -⟩ := Checks.bind_eq_ok.mp hwritten
      exact insertContractLedger_posted hposted

/-- No row has entry fees. -/
def FeeFree (db : Database) : Prop :=
  ∀ row ∈ db.positions, row.entryFeesMicros = 0

theorem FeeFree.outstandingFees (h : db.FeeFree) (agentId : String) (key : PositionKey) :
    db.outstandingFees agentId key = 0 := by
  unfold Database.outstandingFees
  cases hrow : db.position agentId key with
  | none => rfl
  | some row => exact h row (KeyedList.mem_of_lookup_eq_some hrow)

/-- What is loaded from rows without entry fees has none. -/
theorem FeeFree.entryFees_of_load (h : db.FeeFree) {agentId : String}
    {portfolio : ContractPortfolio} (hload : db.loadContractPortfolio agentId = .ok portfolio)
    (key : PositionKey) : (portfolio.account.holding key).fees = 0 := by
  rw [← portfolio.entryFees_eq_holding]
  have hread := (load_spec hload).positions key
  cases hposition : portfolio.position key with
  | none => rfl
  | some position =>
      rw [hposition, Option.map_some, eq_comm, Option.map_eq_some_iff] at hread
      obtain ⟨row, hrow, hfields⟩ := hread
      have hmem := KeyedList.mem_of_lookup_eq_some (Option.filter_eq_some_iff.mp hrow).1
      exact (congrArg ContractPositionFields.entryFeesMicros hfields).symm.trans (h row hmem)

/-- A step that writes one row keeps rows free of fees when it writes none. -/
theorem FeeFree.upsert (h : db.FeeFree) {row : PositionRow} (hrow : row.entryFeesMicros = 0)
    (hpositions : next.positions = KeyedList.upsert PositionRow.key row db.positions) :
    next.FeeFree := by
  intro other hmem
  rw [hpositions] at hmem
  rcases KeyedList.mem_upsert hmem with rfl | hold
  · exact hrow
  · exact h other hold

end Database

/-- An order whose entry states no fees adds none to a position that has none. -/
theorem OrderBooked.entryFees_eq_zero {portfolio after : ContractPortfolio}
    {request : OrderRequest} {fills : List EconomicFill} {operationId : String}
    {occurredAt : Datetime} {entry : LedgerEntry} {loop : FillLoop}
    (h : OrderBooked portfolio request fills operationId occurredAt after entry loop)
    (hopen : portfolio.AllOpen)
    (hbefore : (portfolio.account.holding request.positionKey).fees = 0)
    (hstates : (loop.movement request).fees + saleFees request fills = 0) :
    (after.account.holding request.positionKey).fees = 0 := by
  have hmoved := h.entryFees hopen
  rw [hbefore, zero_add] at hmoved
  cases haction : request.action with
  | buy =>
      simp only [saleFees, haction, add_zero] at hstates
      rw [hmoved, hstates]
  | sell =>
      have hnonpos := h.sell_fees_nonpos haction
      have hnonneg : 0 ≤ (after.account.holding request.positionKey).fees := by
        rw [← after.entryFees_eq_holding]
        cases after.position request.positionKey with
        | none => exact le_refl 0
        | some position => exact position.entryFeesMicros_nonneg
      omega

/-! ## Runs -/

namespace Runtime

variable {runtime : Runtime} {earlier : Database → Prop} {state : Workers}
  {action : WorkerAction}

/-- What every step posts is on accounts of the ledger. -/
theorem step_posted (h : state.Kept runtime.digests earlier) (action : WorkerAction) :
    Database.Posted runtime.vocabulary state.db (runtime.step state action).1.db := by
  cases step_writes h action with
  | nothing hunchanged => exact .of_eq (by rw [hunchanged])
  | beside _ _ _ _ hledger => exact .of_eq hledger
  | order haction =>
      subst haction
      unfold step persist
      dsimp only
      split
      · split
        · exact .of_eq rfl
        next db persisted hpersist => exact Database.persistOrderResult_posted hpersist
      · exact .of_eq rfl
  | settlement haction =>
      subst haction
      unfold step settle
      dsimp only
      split
      · split
        · split
          · exact .of_eq rfl
          · split
            · exact .of_eq rfl
            next db persisted hpersist => exact Database.persistSettlementRecord_posted hpersist
        · exact .of_eq rfl
        · exact .of_eq rfl
      · exact .of_eq rfl

/-- The portfolio that an order or a settlement of this step is made on has the entry fees of
its row. -/
structure HasFees (state : Workers) (reached : Workers × Except Raised WorkerEvent)
    (digests : Digests) : Prop where
  order : ∀ worker call reservedId portfolio decision,
    state.jobs worker = .decided call reservedId portfolio decision →
      Database.RecordsOrder digests state.db decision.result.toOrderResultFields call.agentId
        reservedId reached.1.db → decision.result.fills ≠ [] →
      portfolio.AllOpen ∧ state.db.outstandingFees call.agentId
          decision.result.request.positionKey =
        (portfolio.account.holding decision.result.request.positionKey).fees
  settlement : ∀ worker pass portfolio after (row : EligibleRow) record position result
    settlementTs resolutionId settledAt, state.jobs worker = .settling pass → pass.portfolio = some portfolio →
      SettlementBooked portfolio position result settlementTs resolutionId settledAt after record →
      portfolio.position row.key = some position →
      Database.RecordsSettlement digests state.db record pass.agentId row.key row.observation.id
        portfolio after reached.1.db →
      state.db.outstandingFees pass.agentId row.key = position.entryFeesMicros

theorem HasFees.conserved (h : HasFees state (runtime.step state action) runtime.digests)
    (hkept : state.Kept runtime.digests earlier) (hconserved : state.db.FeesConserved) :
    (runtime.step state action).1.db.FeesConserved := by
  cases step_writes hkept action with
  | nothing hunchanged =>
      rw [hunchanged]
      exact hconserved
  | beside _ _ _ _ _ hpositions hallocations => exact hconserved.of_same hpositions hallocations
  | order _ hjob _ _ hrecords =>
      rcases hrecords.books with ⟨-, hbooks⟩ | ⟨hfills, before, after, hbefore, hafter, hmoves⟩
      · exact hconserved.of_same hbooks.positions hbooks.feeAllocations
      · obtain ⟨hopen, hfees⟩ := h.order _ _ _ _ _ hjob hrecords hfills
        cases (hkept.decides hjob).accounted with
        | unfilled hnone => exact absurd hnone hfills
        | filled hbooked hbefore' hafter' =>
            obtain rfl := Option.some.inj (hbefore.symm.trans hbefore')
            obtain rfl := Option.some.inj (hafter.symm.trans hafter')
            obtain ⟨loop, -, hbooked⟩ := applyOrderFills_spec hbooked
            exact hconserved.order hbooked hopen hmoves hfees
  | settlement _ hjob hloaded _ hcreated hsettles =>
      cases hsettles with
      | replayed hcreated' =>
          rw [hcreated] at hcreated'
          cases hcreated'
      | recorded _ hbooked hposition _ _ hrecords =>
          exact hconserved.settlement hbooked hrecords
            (h.settlement _ _ _ _ _ _ _ _ _ _ _ hjob hloaded hbooked hposition hrecords)

/-- Where the tables show the portfolios, these have the entry fees of the rows. -/
theorem Projected.hasFees (h : runtime.Projected state) :
    HasFees state (runtime.step state action) runtime.digests := by
  constructor
  · intro worker call reservedId portfolio decision hjob hrecords hfills
    obtain ⟨hshows, -⟩ := h.order hjob hrecords hfills
    exact ⟨hshows.allOpen, hshows.outstandingFees _⟩
  · intro worker pass portfolio after row record position result settlementTs resolutionId
      settledAt hjob hloaded hbooked hposition hrecords
    obtain ⟨hshows, -⟩ := h.settlement hjob hloaded hbooked hposition hrecords
    rw [hshows.outstandingFees, ← ContractPortfolio.entryFees_eq_holding, hposition]
    rfl

/-- What every step keeps true under a ledger without an account for fees. -/
structure Feeless (runtime : Runtime) (state : Workers) : Prop where
  kept : state.Kept runtime.digests Database.FeeFree
  free : state.db.FeeFree

/-- The order of a worker was decided on a portfolio without entry fees. -/
theorem Feeless.entryFees_of_decided (h : runtime.Feeless state) {worker : ℕ} {call : Submission}
    {reservedId : String} {portfolio : ContractPortfolio} {decision : Decision}
    (hjob : state.jobs worker = .decided call reservedId portfolio decision) :
    portfolio.AllOpen ∧ ∀ key, (portfolio.account.holding key).fees = 0 := by
  have hsound := h.kept.jobs worker
  rw [hjob] at hsound
  obtain ⟨-, -, loaded, hfree, hloaded⟩ := hsound
  exact ⟨(Database.load_spec hloaded.load).allOpen, hfree.entryFees_of_load hloaded.load⟩

/-- A position that is settled under a ledger without an account for fees has none. -/
theorem Feeless.settled (h : runtime.Feeless state) (hfees : "fees" ∉ runtime.vocabulary)
    {digests : Digests} {portfolio after : ContractPortfolio} {position : ContractPosition}
    {result : OutcomeSide} {settlementTs settledAt : Datetime}
    {resolutionId agentId observationId : String} {key : PositionKey} {record : SettlementRecord}
    (hbooked : SettlementBooked portfolio position result settlementTs resolutionId settledAt
      after record)
    (hrecords : Database.RecordsSettlement digests state.db record agentId key observationId
      portfolio after (runtime.step state action).1.db) :
    position.entryFeesMicros = 0 := by
  by_contra hsome
  obtain ⟨posting, hposting, haccount⟩ :=
    fees_mem_postingRows hbooked.posts_movement (some (key.1, record.outcome))
      (by simpa [settlementMovement] using hsome)
  apply hfees
  rw [← haccount]
  exact (step_posted h.kept action).account_mem hrecords.ledgerEntries (List.mem_singleton_self _)
    hposting

theorem Feeless.hasFees (h : runtime.Feeless state) (hfees : "fees" ∉ runtime.vocabulary) :
    HasFees state (runtime.step state action) runtime.digests := by
  constructor
  · intro worker call reservedId portfolio decision hjob hrecords hfills
    obtain ⟨hopen, hnone⟩ := h.entryFees_of_decided hjob
    exact ⟨hopen, by rw [h.free.outstandingFees, hnone]⟩
  · intro worker pass portfolio after row record position result settlementTs resolutionId
      settledAt hjob hloaded hbooked hposition hrecords
    rw [h.free.outstandingFees, h.settled hfees hbooked hrecords]

theorem Feeless.step (h : runtime.Feeless state) (hfees : "fees" ∉ runtime.vocabulary)
    (action : WorkerAction) : runtime.Feeless (runtime.step state action).1 := by
  refine ⟨(step_kept h.kept h.free action).kept, ?_⟩
  cases step_writes h.kept action with
  | nothing hunchanged =>
      rw [hunchanged]
      exact h.free
  | beside _ _ _ _ _ hpositions =>
      intro row hmem
      exact h.free row (hpositions ▸ hmem)
  | @order _ _ _ _ decision _ _ hjob _ _ hrecords =>
      rcases hrecords.books with ⟨-, hbooks⟩ | ⟨hfills, before, after, hbefore, hafter, hmoves⟩
      · intro row hmem
        exact h.free row (hbooks.positions ▸ hmem)
      · obtain ⟨hopen, hnone⟩ := h.entryFees_of_decided hjob
        cases (h.kept.decides hjob).accounted with
        | unfilled hnone => exact absurd hnone hfills
        | filled hbooked hbefore' hafter' hentries =>
            obtain rfl := Option.some.inj (hbefore.symm.trans hbefore')
            obtain rfl := Option.some.inj (hafter.symm.trans hafter')
            obtain ⟨loop, -, hbooked⟩ := applyOrderFills_spec hbooked
            apply h.free.upsert _ hmoves.positions
            rw [show (contractPositionRow after _ _ _).entryFeesMicros = _ from
              after.entryFees_eq_holding _]
            apply hbooked.entryFees_eq_zero hopen (hnone _)
            -- What is posted has no account for the fees that the entry would state.
            by_contra hstates
            obtain ⟨posting, hposting, haccount⟩ := fees_mem_postingRows hbooked.posts_movement
              (some decision.result.request.positionKey) hstates
            apply hfees
            rw [← haccount]
            have hentry := hentries ▸ List.mem_singleton_self _
            exact (step_posted h.kept action).account_mem hmoves.ledgerEntries
              (List.mem_map_of_mem hentry) hposting
  | settlement _ hjob hloaded _ hcreated hsettles =>
      cases hsettles with
      | replayed hcreated' =>
          rw [hcreated] at hcreated'
          cases hcreated'
      | recorded _ hbooked hposition _ _ hrecords =>
          obtain ⟨row, -, hpositions⟩ := hrecords.positions
          exact h.free.upsert rfl hpositions

/-- However the steps of any number of workers are interleaved: after every step, entry
allocations less releases less settlement allocations are the entry fees of every position,
none for one without units, and no allocation is negative.  The ledger has no account for
fees, as the schema has it; or whatever its accounts are, no settlement pass comes upon a
settlement that it does not remember. -/
theorem fees_conserved (runtime : Runtime) {start : Workers} (h : start.Bootstrapped)
    (hallocations : start.db.feeAllocations = []) {actions : List WorkerAction}
    (hledger : "fees" ∉ runtime.vocabulary ∨
      Runs.Along runtime.step KnowsSettlements start actions) :
    ∀ before after, actions = before ++ after →
      (Runs.final runtime.step start before).db.FeesConserved := by
  rintro before after rfl
  have hstart : start.db.FeesConserved := by
    constructor
    · intro agentId key
      unfold Database.allocatedFees Database.outstandingFees Database.position
      rw [hallocations, h.positions]
      rfl
    · intro row hmem
      rw [h.positions] at hmem
      cases hmem
    · intro row hmem
      rw [hallocations] at hmem
      cases hmem
  rcases hledger with hfees | hknows
  · have hfree : runtime.Feeless start := by
      refine ⟨h.kept, ?_⟩
      intro row hmem
      rw [h.positions] at hmem
      cases hmem
    exact (Runs.final_invariant runtime.step
      (fun _ state => runtime.Feeless state ∧ state.db.FeesConserved) ⟨hfree, hstart⟩
      (fun _ _ action hstate => ⟨hstate.1.step hfees action,
        (hstate.1.hasFees hfees).conserved hstate.1.kept hstate.2⟩) before).2
  · have hprojected : runtime.Projected start := .atRest h.toAtRest h.agree
    have hpreserved (state : Workers) (action : WorkerAction)
        (hstate : runtime.Projected state ∧ state.db.FeesConserved)
        (haction : KnowsSettlements state action) :
        runtime.Projected (runtime.step state action).1 ∧
          (runtime.step state action).1.db.FeesConserved :=
      ⟨hstate.1.step haction, hstate.1.hasFees.conserved hstate.1.kept hstate.2⟩
    exact (Runs.final_of_along runtime.step hpreserved ⟨hprojected, hstart⟩
      ((Runs.along_append _ start before after).mp hknows).1).2

end Runtime

set_option maxRecDepth 10000 in
/-- A purchase that pays fees is settled, and its fees are released. -/
theorem fees_conserved_observedPurchase :
    ∃ db, db = (Runs.final Sample.runtime.step Sample.workers
        (Sample.observedPurchase ++ [.settle 1 Sample.moment])).db ∧ db.FeesConserved ∧
      db.allocatedFees .entry "agent" (Sample.market, .yes) = 20000 ∧
      db.allocatedFees .settlement "agent" (Sample.market, .yes) = 20000 := by
  refine ⟨_, rfl, ?_, by decide +kernel, by decide +kernel⟩
  exact Sample.runtime.fees_conserved Sample.workers_bootstrapped rfl
    (Or.inr Sample.observedPurchase_knows) _ [] (List.append_nil _).symm

end VTrade
