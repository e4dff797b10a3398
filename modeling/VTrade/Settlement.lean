/-
# The settlement engine

A finalized observation of a market turns a position into cash: its units at one
cent each when its outcome is the result, nothing otherwise.  The engine
remembers what it has settled and returns the remembered result when the same
settlement is asked for again; evidence that disagrees with what it remembers
marks the agent as conflicted.

The engine is a value that every call takes and gives back, also a call that
raises: marking an agent outlives the exception.
-/

import VTrade.Portfolio

namespace VTrade

structure SettlementRecordFields where
  settlementId : String
  marketRef : MarketKey
  outcome : OutcomeSide
  resolutionId : String
  settlementTs : Instant
  contractUnits : ℤ
  grossPayoutMicros : ℤ
  entryFeesDeductedMicros : ℤ
  realizedPnlMicros : ℤ
  ledgerEntry : LedgerEntry
  deriving DecidableEq

def SettlementRecordFields.postInit (record : SettlementRecordFields) : Except Raised Unit :=
  Checks.raiseFirst [
    (Text.isBlank record.settlementId, .valueError "settlement_id must be a non-empty string"),
    (Text.isBlank record.resolutionId, .valueError "resolution_id must be a non-empty string"),
    (record.contractUnits ≤ 0, .valueError "settlement quantity must be positive"),
    (record.grossPayoutMicros < 0 ∨ record.entryFeesDeductedMicros < 0,
      .valueError "settlement money values cannot be negative")]

structure SettlementRecord extends SettlementRecordFields where
  valid : toSettlementRecordFields.postInit = .ok ()
  deriving DecidableEq

namespace SettlementRecord

def make (fields : SettlementRecordFields) : Except Raised SettlementRecord :=
  Checks.build fields.postInit fun h => ⟨fields, h⟩

theorem make_eq_ok_iff {fields : SettlementRecordFields} {record : SettlementRecord} :
    make fields = .ok record ↔ record.toSettlementRecordFields = fields :=
  Checks.build_fields_eq_ok_iff SettlementRecordFields.postInit mk toSettlementRecordFields (fun _ _ => rfl)
    fun record => ⟨record.valid, rfl⟩

theorem make_eq_ok {fields : SettlementRecordFields} (h : fields.postInit = .ok ()) :
    make fields = .ok ⟨fields, h⟩ := Checks.build_eq_ok h _

def canonicalPayload (record : SettlementRecord) : SettlementPayload where
  settlementId := record.settlementId
  marketRef := record.marketRef.canonical
  outcome := record.outcome
  resolutionId := record.resolutionId
  settlementTs := record.settlementTs
  contractUnits := record.contractUnits
  grossPayoutMicros := record.grossPayoutMicros
  entryFeesDeductedMicros := record.entryFeesDeductedMicros
  realizedPnlMicros := record.realizedPnlMicros

end SettlementRecord

/-- One cent for every hundredth of a winning contract. -/
def settlementPayout (position : ContractPosition) (result : OutcomeSide) : ℤ :=
  if position.outcome = result then position.contractUnits * 10000 else 0

def settlementRealized (position : ContractPosition) (payout : ℤ) : ℤ :=
  payout - position.grossCostBasisMicros - position.entryFeesMicros

/-- The postings of one settlement.  Only the fee posting is ever left out. -/
def settlementPostings (position : ContractPosition) (payout : ℤ) : MovementPostings where
  key := position.key
  cash := payout
  cost := -position.grossCostBasisMicros
  units := -position.contractUnits
  fees :=
    if position.entryFeesMicros ≠ 0 then
      some (-position.entryFeesMicros, -position.entryFeesMicros)
    else none
  result := some (position.grossCostBasisMicros + position.entryFeesMicros - payout)

/-- The id of a settlement's ledger entry, which is also the settlement's. -/
def settlementLedgerId (agentId : String) (settlementTs : Datetime) : String :=
  "ledger-settlement-" ++ agentId ++ "-" ++ settlementTs.isoformat

def settlementIdempotencyKey (agentId : String) (marketRef : MarketKey)
    (settlementTs : Datetime) : String :=
  "settlement:" ++ agentId ++ ":" ++ marketRef.canonical ++ ":" ++ settlementTs.isoformat

/-- Pay a position out: the portfolio without it, and the record of the payment. -/
def bookSettlement (portfolio : ContractPortfolio) (position : ContractPosition)
    (result : OutcomeSide) (settlementTs : Datetime) (resolutionId : String)
    (settledAt : Datetime) : Except Raised (ContractPortfolio × SettlementRecord) := do
  let payout := settlementPayout position result
  let realized := settlementRealized position payout
  let updated ← ContractPortfolio.make {
    agentId := portfolio.agentId
    cashMicros := portfolio.cashMicros + payout
    positions := KeyedList.erase ContractPosition.key position.key portfolio.positions
    version := portfolio.version + 1
    reconciliationBlocked := portfolio.reconciliationBlocked
    realizedPnlMicros := portfolio.realizedPnlMicros + realized }
  let postings ← (settlementPostings position payout).postings
  let ledgerEntry ← LedgerEntry.make (settlementLedgerId portfolio.agentId settlementTs)
    portfolio.agentId
    (settlementIdempotencyKey portfolio.agentId position.marketRef settlementTs)
    "binary_settlement" settledAt postings
  let record ← SettlementRecord.make {
    settlementId := ledgerEntry.id
    marketRef := position.marketRef
    outcome := position.outcome
    resolutionId := resolutionId
    settlementTs := settlementTs.instant
    contractUnits := position.contractUnits
    grossPayoutMicros := payout
    entryFeesDeductedMicros := position.entryFeesMicros
    realizedPnlMicros := realized
    ledgerEntry := ledgerEntry }
  .ok (updated, record)

/-- What a settlement is remembered under. -/
structure SettlementKey where
  agentId : String
  market : String
  settlementTs : Instant
  deriving DecidableEq

def settlementKey (agentId : String) (marketRef : MarketKey) (settlementTs : Datetime) :
    SettlementKey :=
  ⟨agentId, marketRef.canonical, settlementTs.instant⟩

/-- FINALIZED-only, idempotent binary settlement over contract positions. -/
structure BinarySettlementEngine where
  settlements : List (SettlementKey × ContractPortfolio × SettlementRecord)
  terminalByMarket : List ((String × String) × SettlementRecord)
  conflictedAgents : List String
  deriving DecidableEq

namespace BinarySettlementEngine

def empty : BinarySettlementEngine := ⟨[], [], []⟩

variable (engine : BinarySettlementEngine)

/-- The remembered result of a settlement. -/
def stored (key : SettlementKey) : Option (ContractPortfolio × SettlementRecord) :=
  (KeyedList.lookup Prod.fst key engine.settlements).map Prod.snd

/-- The last record of an agent and market. -/
def priorTerminal (agentId market : String) : Option SettlementRecord :=
  (KeyedList.lookup Prod.fst (agentId, market) engine.terminalByMarket).map Prod.snd

def markConflicted (agentId : String) : BinarySettlementEngine :=
  { engine with conflictedAgents := engine.conflictedAgents.insert agentId }

def remember (key : SettlementKey) (settled : ContractPortfolio × SettlementRecord) :
    BinarySettlementEngine :=
  { engine with
    settlements := KeyedList.upsert Prod.fst (key, settled) engine.settlements
    terminalByMarket := KeyedList.upsert Prod.fst ((key.agentId, key.market), settled.2)
      engine.terminalByMarket }

theorem stored_remember_self (key : SettlementKey)
    (settled : ContractPortfolio × SettlementRecord) :
    (engine.remember key settled).stored key = some settled := by
  have h := @KeyedList.lookup_upsert_self _ _ _ Prod.fst (key, settled) engine.settlements
  simp only [stored, remember, h, Option.map_some]

theorem stored_remember_of_ne {key other : SettlementKey} (hne : other ≠ key)
    (settled : ContractPortfolio × SettlementRecord) :
    (engine.remember key settled).stored other = engine.stored other := by
  have h := @KeyedList.lookup_upsert_of_ne _ _ _ Prod.fst _ (key, settled) hne
    engine.settlements
  simp only [stored, remember, h]

/-- The part of `settle` after its arguments are found to fit together. -/
def settleTerminal (portfolio : ContractPortfolio) (position : ContractPosition)
    (result : OutcomeSide) (settlementTs : Datetime) (resolutionId : String)
    (settledAt : Datetime) :
    BinarySettlementEngine × Except Raised (ContractPortfolio × SettlementRecord) :=
  let key := settlementKey portfolio.agentId position.marketRef settlementTs
  if (engine.priorTerminal key.agentId key.market).any fun prior =>
      prior.settlementTs ≠ settlementTs.instant ∨ prior.outcome ≠ result then
    (engine.markConflicted portfolio.agentId,
      .error (.settlementBlockedError "conflicting terminal settlement evidence"))
  else
    match engine.stored key with
    | some (previousPortfolio, previousRecord) =>
        if previousRecord.outcome ≠ result ∨
            previousRecord.contractUnits ≠ position.contractUnits then
          (engine.markConflicted portfolio.agentId,
            .error (.settlementBlockedError "conflicting terminal settlement evidence"))
        else
          (engine, .ok (previousPortfolio, previousRecord))
    | none =>
        match bookSettlement portfolio position result settlementTs resolutionId settledAt with
        | .error error => (engine, .error error)
        | .ok settled => (engine.remember key settled, .ok settled)

def settle (observation : ResolutionObservation) (position : ContractPosition)
    (portfolio : ContractPortfolio) (asOf settledAt : Datetime) :
    BinarySettlementEngine × Except Raised (ContractPortfolio × SettlementRecord) :=
  if asOf.isAware = false then
    (engine, .error (.valueError "settlement as_of must be timezone-aware"))
  else if settledAt.isAware = false then
    (engine, .error (.valueError "settlement settled_at must be timezone-aware"))
  else if observation.marketKey ≠ position.marketRef then
    (engine, .error (.valueError "resolution market does not match position"))
  else
    match observation.terminal, observation.result, observation.settlementTs with
    | true, some result, some settlementTs =>
        if asOf.instant < observation.observedAt ∨ asOf.instant < settlementTs.instant then
          (engine, .error (.settlementBlockedError
            "finalized evidence is newer than the settlement cutoff"))
        else if portfolio.position position.key ≠ some position then
          (engine, .error (.valueError "settlement position does not match current portfolio"))
        else
          engine.settleTerminal portfolio position result settlementTs observation.snapshotId
            settledAt
    | _, _, _ =>
        (engine, .error (.settlementBlockedError
          "only an unblocked FINALIZED binary observation can settle"))

/-- A settlement that succeeds was remembered, or is booked and remembered. -/
theorem settle_spec {observation : ResolutionObservation} {position : ContractPosition}
    {portfolio updated : ContractPortfolio} {asOf settledAt : Datetime}
    {next : BinarySettlementEngine} {record : SettlementRecord}
    (h : engine.settle observation position portfolio asOf settledAt =
      (next, .ok (updated, record))) :
    ∃ result settlementTs, observation.result = some result ∧
      observation.settlementTs = some settlementTs ∧ settledAt.isAware = true ∧
      portfolio.position position.key = some position ∧
      ((engine.stored (settlementKey portfolio.agentId position.marketRef settlementTs) =
          some (updated, record) ∧ next = engine) ∨
        (engine.stored (settlementKey portfolio.agentId position.marketRef settlementTs) = none ∧
          bookSettlement portfolio position result settlementTs observation.snapshotId settledAt =
            .ok (updated, record) ∧
          next = engine.remember
            (settlementKey portfolio.agentId position.marketRef settlementTs)
            (updated, record))) := by
  unfold settle at h
  split at h
  · cases h
  split at h
  · cases h
  next hsettledAt =>
  split at h
  · cases h
  split at h
  next result settlementTs hterminal hresult hsettlementTs =>
    split at h
    · cases h
    split at h
    · cases h
    next hposition =>
    refine ⟨result, settlementTs, hresult, hsettlementTs, by simpa using hsettledAt,
      not_not.mp hposition, ?_⟩
    unfold settleTerminal at h
    dsimp only at h
    split at h
    · cases h
    split at h
    next previousPortfolio previousRecord hstored =>
      split at h
      · cases h
      · cases h
        exact Or.inl ⟨hstored, rfl⟩
    next hstored =>
      split at h
      next => cases h
      next settled hbooked =>
        cases h
        exact Or.inr ⟨hstored, hbooked, rfl⟩
  next => cases h

/-- A settlement that raises leaves what is remembered as it is. -/
theorem stored_of_settle_error {observation : ResolutionObservation}
    {position : ContractPosition} {portfolio : ContractPortfolio} {asOf settledAt : Datetime}
    {next : BinarySettlementEngine} {error : Raised}
    (h : engine.settle observation position portfolio asOf settledAt = (next, .error error)) :
    next.stored = engine.stored := by
  unfold settle at h
  split at h
  · cases h; rfl
  split at h
  · cases h; rfl
  split at h
  · cases h; rfl
  split at h
  · split at h
    · cases h; rfl
    split at h
    · cases h; rfl
    unfold settleTerminal at h
    dsimp only at h
    split at h
    · cases h; rfl
    split at h
    · split at h
      · cases h; rfl
      · cases h
    · split at h
      · cases h; rfl
      · cases h
  · cases h; rfl

def isBlocked (agentId : String) : Bool := agentId ∈ engine.conflictedAgents

end BinarySettlementEngine

end VTrade
