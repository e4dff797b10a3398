/-
# Workers over the database

Any number of workers submit orders and settle positions.  What a call does in one
transaction, or in memory between two of them, is one step; the steps of different
workers come in any order.  A worker has one call at a time, executors keep the memory
of their brokers for all their calls, and a call that raises is over.
-/

import Mathlib.Logic.Function.Basic
import VTrade.ProductionExecution
import VTrade.Transactions

namespace VTrade

/-! ## Settlement passes -/

/-- A position that a final observation settles. -/
structure EligibleRow where
  observation : ResolutionRow
  key : PositionKey
  contractUnits : ℤ
  deriving DecidableEq

/-- The positions of an agent that the observations of a freeze settle, those that they
have settled already left out. -/
def Database.eligible (db : Database) (agentId : String) (resolutionIds : List String)
    (cutoff : Instant) : List EligibleRow :=
  let observations := (resolutionIds.dedup.filterMap db.resolution).filter fun row =>
    row.isFinal ∧ row.result.isSome ∧ row.observedAt ≤ cutoff ∧
      row.settlementTs.any (· ≤ cutoff)
  let ordered := observations.insertionSort fun first second =>
    first.observedAt < second.observedAt ∨
      first.observedAt = second.observedAt ∧ first.id ≤ second.id
  ordered.flatMap fun row =>
    (db.positions.filter fun position =>
      position.agentId = agentId ∧ position.marketId = row.marketId ∧
        0 < position.contractUnits ∧ ¬ db.settlements.any fun settlement =>
          settlement.positionId = position.key ∧ settlement.resolutionId = row.id).map
      fun position => ⟨row, position.marketOutcome, position.contractUnits⟩

/-- The text that the identifier of an observation is made from. -/
def observationId (marketId : MarketKey) (observedAt : Datetime) (artifact : String) : String :=
  "vtrade-key\x1fkalshi\x1fresolution-snapshot\x1f" ++ marketId.marketRef ++ "\x1f" ++
    observedAt.isoformat ++ "\x1f" ++ artifact

theorem observationId_not_isBlank (marketId : MarketKey) (observedAt : Datetime)
    (artifact : String) : Text.isBlank (observationId marketId observedAt artifact) = false := by
  have hstart :
      "vtrade-key\x1fkalshi\x1fresolution-snapshot\x1f".toList.all Text.isSpace = false := by
    decide
  unfold observationId Text.isBlank
  simp only [String.toList_append, List.all_append]
  rw [hstart]
  rfl

/-- A timestamp of the tables, `_aware`. -/
def readTimestamp (instant : Instant) : Except Raised Datetime :=
  match Datetime.utc instant with
  | none => .error (.databaseError "timestamp is out of range")
  | some value => .ok value

theorem readTimestamp_eq_ok {instant : Instant} {value : Datetime}
    (h : readTimestamp instant = .ok value) : Datetime.utc instant = some value := by
  unfold readTimestamp at h
  split at h
  · cases h
  next read hread =>
    cases h
    exact hread

/-- The observation that a row of `resolution_observations` is read as. -/
def ResolutionRow.observe (row : ResolutionRow) : Except Raised ResolutionObservation :=
  match row.settlementTs with
  | none => .error (.databaseError "settlement_ts is null")
  | some instant =>
      match readTimestamp row.observedAt, hread : readTimestamp instant with
      | .ok observedAt, .ok settlementTs => .ok {
          marketKey := row.marketId
          status := .finalized
          result := row.result
          observedAt := row.observedAt
          settlementTs := some settlementTs
          blocked := row.result = none
          snapshotId := observationId row.marketId observedAt row.rawArtifactId
          settlementTs_aware := by
            rintro _ ⟨⟩
            exact Datetime.isAware_utc (readTimestamp_eq_ok hread)
          incomplete_blocked := by simp
          snapshotId_nonblank := observationId_not_isBlank _ _ _ }
      | .error error, _ => .error error
      | _, .error error => .error error

/-- A run of `_settle_eligible`: the positions it has still to settle, the portfolio it
goes on from once that is loaded, its engine, and what it has recorded. -/
structure SettlementPass where
  agentId : String
  cutoff : Datetime
  rows : List EligibleRow
  portfolio : Option ContractPortfolio
  engine : BinarySettlementEngine
  settled : List PersistenceResult

/-- What a pass makes of a position. -/
def SettlementPass.book (pass : SettlementPass) (portfolio : ContractPortfolio)
    (row : EligibleRow) (clock : Datetime) :
    Except Raised (BinarySettlementEngine × ContractPortfolio × SettlementRecord) :=
  match portfolio.position row.key with
  | none => .error (.runtimeError "settlement position changed before persistence")
  | some position =>
      if position.contractUnits ≠ row.contractUnits then
        .error (.runtimeError "settlement position changed before persistence")
      else if clock.isAware = false then
        .error (.runtimeError "semantic runtime timestamps must be timezone-aware")
      else do
        let observation ← row.observation.observe
        let settledAt := if clock.instant < pass.cutoff.instant then pass.cutoff else clock
        match pass.engine.settle observation position portfolio pass.cutoff settledAt with
        | (engine, .ok (after, record)) => .ok (engine, after, record)
        | (_, .error error) => .error error

/-! ## The machine -/

/-- What a worker is doing. -/
inductive Job
  | idle
  /-- The reservation is committed. -/
  | reserved (call : Submission) (reservation : OrderIntentReservation)
  | loaded (call : Submission) (reservedId : String) (portfolio : ContractPortfolio)
  | decided (call : Submission) (reservedId : String) (portfolio : ContractPortfolio)
      (decision : Decision)
  | settling (pass : SettlementPass)

/-- The database, the brokers of the executors, and the workers. -/
structure Workers where
  db : Database
  brokers : ℕ → BrokerState
  jobs : ℕ → Job

inductive WorkerAction
  /-- Reserve an order. -/
  | submit (worker : ℕ) (call : Submission)
  /-- Load the portfolio of an order, or of a settlement pass. -/
  | load (worker : ℕ) (clock : Datetime)
  /-- Refresh the market of an order and decide on it. -/
  | execute (worker executor : ℕ) (environment : ExecutionEnvironment)
  /-- Record an order. -/
  | persist (worker : ℕ)
  /-- Look up what there is to settle. -/
  | openPass (worker : ℕ) (agentId : String) (resolutionIds : List String) (cutoff : Datetime)
  /-- Settle the next position of a pass, and record it. -/
  | settle (worker : ℕ) (clock : Datetime)
  /-- Insert an observation of a market. -/
  | observe (row : ResolutionRow)
  /-- Pause an agent or let it go on. -/
  | pause (agentId : String) (paused : Bool)
  /-- Note what the reconciliation of an operation has found. -/
  | reconcile (operationId : String) (state : OrderState) (reconciliation : ReconciliationState)
  /-- A worker dies. -/
  | stop (worker : ℕ)
  /-- An executor starts anew. -/
  | restart (executor : ℕ)

inductive WorkerEvent
  | proceeded
  | reserved (reservation : OrderIntentReservation)
  | answered (result : OrderResult)
  | recorded (decision : Decision) (persisted : PersistenceResult)
  | settled (record : SettlementRecord) (persisted : PersistenceResult)

/-- The result of an order that is not executed because of its reservation. -/
def Submission.earlyResult (call : Submission) (digests : Digests)
    (reservation : OrderIntentReservation) (portfolio : ContractPortfolio) (clock : Datetime) :
    Option (Except Raised OrderResult) :=
  let operationId := digests.operationUuid call.request.agentId call.request.idempotencyKey
  if reservation.conflict then
    some do
      let now ← call.executionNow clock
      rejected call.request portfolio now operationId {
        code := .idempotencyConflict
        message := some "idempotency key was reused with different request evidence" }
  else if reservation.blocked then
    some do
      let now ← call.executionNow clock
      rejected call.request portfolio now operationId {
        code := .reconciliationRequired
        message := some "agent has an unresolved reconciliation operation" }
  else if reservation.inFlight then
    some do
      let now ← call.executionNow clock
      let result ← pendingResult call.request portfolio now operationId
        call.request.frozenContextId
      OrderResult.make { result.toOrderResultFields with
        submissionState := some .unknown
        reconciliationEvidence := [("submission_state", .text "UNKNOWN")] }
  else if reservation.marketOutcome = none then
    some (.error (.runtimeError "order intent identity is incomplete"))
  else none

/-- The accounts of the ledger, the digests and the executors' configuration. -/
structure Runtime where
  vocabulary : List String
  digests : Digests
  executor : ProductionSemanticOrderExecutor

namespace Workers

variable (state : Workers)

def withJob (worker : ℕ) (job : Job) : Workers :=
  { state with jobs := Function.update state.jobs worker job }

/-- The call of a worker is over. -/
def done (worker : ℕ) : Workers := state.withJob worker .idle

end Workers

namespace Runtime

variable (runtime : Runtime) (state : Workers)

/-- An idle worker reserves an order. -/
def submit (worker : ℕ) (call : Submission) : Workers × Except Raised WorkerEvent :=
  match state.jobs worker with
  | .idle =>
      match call.check with
      | .error error => (state, .error error)
      | .ok () =>
          match state.db.prepareOrderIntent runtime.digests call.request call.agentId
            call.cycleId with
          | .error error => (state, .error error)
          | .ok (db, reservation) =>
              let reached := { state with db := db }
              if reservation.existingResult.isSome then (reached, .ok (.reserved reservation))
              else (reached.withJob worker (.reserved call reservation),
                .ok (.reserved reservation))
  | _ => (state, .ok .proceeded)

/-- A worker loads the portfolio of its agent. -/
def load (worker : ℕ) (clock : Datetime) : Workers × Except Raised WorkerEvent :=
  match state.jobs worker with
  | .reserved call reservation =>
      match state.db.loadContractPortfolio call.agentId with
      | .error error => (state.done worker, .error error)
      | .ok portfolio =>
          match call.earlyResult runtime.digests reservation portfolio clock with
          | some (.ok result) => (state.done worker, .ok (.answered result))
          | some (.error error) => (state.done worker, .error error)
          | none =>
              (state.withJob worker (.loaded call reservation.operationId portfolio),
                .ok .proceeded)
  | .settling pass =>
      match pass.portfolio, state.db.loadContractPortfolio pass.agentId with
      | none, .ok portfolio =>
          (state.withJob worker (.settling { pass with portfolio := some portfolio }),
            .ok .proceeded)
      | none, .error error => (state.done worker, .error error)
      | some _, _ => (state, .ok .proceeded)
  | _ => (state, .ok .proceeded)

/-- A worker decides on its order with the broker of an executor. -/
def execute (worker executor : ℕ) (environment : ExecutionEnvironment) :
    Workers × Except Raised WorkerEvent :=
  match state.jobs worker with
  | .loaded call reservedId portfolio =>
      match runtime.executor.decide runtime.digests (state.brokers executor) call portfolio
        environment reservedId with
      | (broker, decided) =>
          let reached := { state with brokers := Function.update state.brokers executor broker }
          match decided with
          | .error error => (reached.done worker, .error error)
          | .ok decision =>
              (reached.withJob worker (.decided call reservedId portfolio decision),
                .ok .proceeded)
  | _ => (state, .ok .proceeded)

/-- A worker records its order. -/
def persist (worker : ℕ) : Workers × Except Raised WorkerEvent :=
  match state.jobs worker with
  | .decided call reservedId _ decision =>
      match state.db.persistOrderResult runtime.vocabulary runtime.digests decision.result
        call.agentId call.cycleId (some reservedId) decision.evidence with
      | .error error => (state.done worker, .error error)
      | .ok (db, persisted) =>
          ({ state with db := db }.done worker, .ok (.recorded decision persisted))
  | _ => (state, .ok .proceeded)

/-- An idle worker looks up what there is to settle. -/
def openPass (worker : ℕ) (agentId : String) (resolutionIds : List String) (cutoff : Datetime) :
    Workers × Except Raised WorkerEvent :=
  match state.jobs worker with
  | .idle =>
      (state.withJob worker (.settling {
        agentId := agentId
        cutoff := cutoff
        rows := state.db.eligible agentId resolutionIds cutoff.instant
        portfolio := none
        engine := .empty
        settled := [] }), .ok .proceeded)
  | _ => (state, .ok .proceeded)

/-- A worker settles the next position of its pass. -/
def settle (worker : ℕ) (clock : Datetime) : Workers × Except Raised WorkerEvent :=
  match state.jobs worker with
  | .settling pass =>
      match pass.portfolio, pass.rows with
      | some portfolio, row :: rest =>
          match pass.book portfolio row clock with
          | .error error => (state.done worker, .error error)
          | .ok (engine, after, record) =>
              match state.db.persistSettlementRecord runtime.vocabulary runtime.digests record
                pass.agentId row.key row.observation.id portfolio after with
              | .error error => (state.done worker, .error error)
              | .ok (db, persisted) =>
                  ({ state with db := db }.withJob worker (.settling { pass with
                      rows := rest
                      portfolio := some after
                      engine := engine
                      settled := pass.settled ++ [persisted] }),
                    .ok (.settled record persisted))
      | some _, [] => (state.done worker, .ok .proceeded)
      | none, _ => (state, .ok .proceeded)
  | _ => (state, .ok .proceeded)

/-- One step of the workers. -/
def step : WorkerAction → Workers × Except Raised WorkerEvent
  | .submit worker call => runtime.submit state worker call
  | .load worker clock => runtime.load state worker clock
  | .execute worker executor environment => runtime.execute state worker executor environment
  | .persist worker => runtime.persist state worker
  | .openPass worker agentId resolutionIds cutoff =>
      openPass state worker agentId resolutionIds cutoff
  | .settle worker clock => runtime.settle state worker clock
  | .observe row =>
      match state.db.persistResolution row with
      | .error error => (state, .error error)
      | .ok db => ({ state with db := db }, .ok .proceeded)
  | .pause agentId paused =>
      ({ state with db := { state.db with
        agents := state.db.agents.map fun row =>
          if row.id = agentId then { row with paused := paused } else row } }, .ok .proceeded)
  | .reconcile operationId operationState reconciliation =>
      ({ state with db := { state.db with
        operations := state.db.operations.map fun row =>
          if row.id = operationId then
            { row with
              state := operationState
              reconciliationState := reconciliation }
          else row } }, .ok .proceeded)
  | .stop worker => (state.done worker, .ok .proceeded)
  | .restart executor =>
      ({ state with brokers := Function.update state.brokers executor .empty }, .ok .proceeded)

end Runtime

end VTrade
