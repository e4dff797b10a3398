/-
# Pauses of the system and of agents

An operator pauses and resumes the system or one agent, under an idempotency key of the request.  A
critical alert pauses one of them too, under a key made of its row, and never resumes any.  Either
writes the pause and an action of the log in one transaction, with the state before and after it.

The details of an alert are read by nobody here.  A transaction that raises leaves the tables as
they were.
-/

import VTrade.HourlyRuntime

namespace VTrade

/-! ## Alerts -/

/-- What an alert pauses. -/
inductive AlertPauseScope
  | none | agent | system
  deriving DecidableEq

def AlertPauseScope.value : AlertPauseScope → String
  | none => "none"
  | agent => "agent"
  | system => "system"

/-- An `AlertEvent`. -/
structure AlertEvent where
  runId : Option String
  agentId : Option String
  severity : String
  code : String
  openedAt : Datetime
  dedupeKey : String
  severity_valid : severity = "warning" ∨ severity = "critical"
  named : code ≠ "" ∧ dedupeKey ≠ ""
  opened_aware : openedAt.isAware = true ∧ (Datetime.utc openedAt.instant).isSome = true

def criticalAgentAlertCodes : List String :=
  ["stale_market_data", "ledger_mismatch", "consecutive_cycle_failures"]

/-- `pause_scope_for`. -/
def AlertEvent.pauseScope (alert : AlertEvent) : AlertPauseScope :=
  if alert.severity ≠ "critical" then .none
  else if alert.code ∈ criticalGlobalAlertCodes ∨ alert.agentId = none then .system
  else if alert.code ∈ criticalAgentAlertCodes ∨ alert.agentId ≠ none then .agent
  else .none

/-- A row of `alerts`. -/
structure AlertRow where
  id : String
  runId : Option String
  agentId : Option String
  severity : String
  code : String
  openedAt : Instant
  resolvedAt : Option Instant
  dedupeKey : String
  deriving DecidableEq

/-! ## Tables -/

/-- A target of a pause. -/
inductive ControlTarget
  | system
  | agent (agentId : String)
  deriving DecidableEq

/-- The row of `system_controls`. -/
structure SystemControls where
  globallyPaused : Bool
  version : ℤ
  updatedAt : Instant
  updatedBy : String
  deriving DecidableEq

/-- A row of `agents`, as far as its pause is concerned. -/
structure AgentPause where
  id : String
  pausedAt : Option Instant
  deriving DecidableEq

/-- A row of `operator_actions`.  The rows are kept in the order of their insertion. -/
structure OperatorAction where
  actorId : String
  action : String
  target : ControlTarget
  beforeState : JsonObject
  afterState : JsonObject
  occurredAt : Instant
  idempotencyKey : String

/-- The tables that pauses are kept in, with the number of identifiers drawn for alerts. -/
structure ControlTables where
  controls : Option SystemControls
  agents : List AgentPause
  runs : List String
  alerts : List AlertRow
  actions : List OperatorAction
  drawn : ℕ

/-- What requests and alerts raise. -/
inductive ControlFailure
  | invalidOperatorAction (message : String)
  /-- `AdminRepositoryError`. -/
  | repositoryError (message : String)
  /-- `RuntimePersistenceError`. -/
  | persistenceError (message : String)
  | keyError (message : String)
  | valueError (message : String)
  /-- `OverflowError`, raised by a moment that has no date in UTC. -/
  | overflowError
  | databaseError (message : String)
  deriving DecidableEq

/-- A request of an operator. -/
structure ControlRequest where
  target : ControlTarget
  paused : Bool
  actorId : String
  idempotencyKey : String
  occurredAt : Option Datetime
  /-- `datetime.now(UTC)`. -/
  clock : Datetime

/-- The action that a request is logged as. -/
def ControlRequest.action (request : ControlRequest) : String :=
  if request.paused then "pause" else "resume"

namespace ControlTables

/-! ## States of a target

A timestamp of a row is logged as the session prints it. -/

variable (print : Instant → String) (ids : RandomIds) (tables : ControlTables)

/-- `_optional_text` of a timestamp. -/
def optionalText (moment : Option Instant) : Json :=
  match moment with
  | none => .null
  | some moment => .text (print moment)

/-- The logged state of the system. -/
def systemState (row : SystemControls) : JsonObject :=
  [("globally_paused", .bool row.globallyPaused), ("version", .int row.version),
    ("updated_at", .text (print row.updatedAt)), ("updated_by", .text row.updatedBy)]

/-- The logged state of an agent. -/
def agentState (row : AgentPause) : JsonObject :=
  [("agent_id", .text row.id), ("paused_at", optionalText print row.pausedAt)]

def agent? (agentId : String) : Option AgentPause :=
  KeyedList.lookup AgentPause.id agentId tables.agents

/-- The action of an idempotency key. -/
def actionOf? (idempotencyKey : String) : Option OperatorAction :=
  KeyedList.lookup OperatorAction.idempotencyKey idempotencyKey tables.actions

/-- A row of `operator_actions` more. -/
def log (action : OperatorAction) : ControlTables :=
  { tables with actions := tables.actions ++ [action] }

def setControls (row : SystemControls) : ControlTables := { tables with controls := some row }

def setAgent (row : AgentPause) : ControlTables :=
  { tables with agents := KeyedList.upsert AgentPause.id row tables.agents }

/-! ## Requests of operators -/

/-- `[A-Za-z0-9_.:@-]{1,128}`. -/
def isOperatorIdentity (actorId : String) : Bool :=
  decide (1 ≤ actorId.length ∧ actorId.length ≤ 128) &&
    actorId.toList.all fun c => c.isAlphanum || decide (c ∈ ['_', '.', ':', '@', '-'])

/-- The same characters and the slash, 8 to 200 of them. -/
def isIdempotencyKey (key : String) : Bool :=
  decide (8 ≤ key.length ∧ key.length ≤ 200) &&
    key.toList.all fun c => c.isAlphanum || decide (c ∈ ['_', '.', ':', '@', '/', '-'])

/-- `_validate_operator_fields`. -/
def validateOperatorFields (actorId idempotencyKey : String) : Except ControlFailure Unit :=
  if isOperatorIdentity actorId = false then
    .error (.invalidOperatorAction "invalid operator identity")
  else if isIdempotencyKey idempotencyKey = false then
    .error (.invalidOperatorAction "invalid operator idempotency key")
  else .ok ()

/-- `_aware`. -/
def awareInstant (value : Datetime) : Except ControlFailure Instant :=
  if value.isAware = false then .error (.valueError "timestamps must be timezone-aware")
  else
    match Datetime.utc value.instant with
    | none => .error .overflowError
    | some _ => .ok value.instant

/-- `_control`, in its transaction and under the lock of the scheduler, for a key that no action
has. -/
def controlTarget (request : ControlRequest) (when : Instant) :
    Except ControlFailure (ControlTables × JsonObject) :=
  let logged (beforeState afterState : JsonObject) : OperatorAction := {
    actorId := request.actorId
    action := request.action
    target := request.target
    beforeState := beforeState
    afterState := afterState
    occurredAt := when
    idempotencyKey := request.idempotencyKey }
  match request.target with
  | .system =>
      match tables.controls with
      | none => .error (.repositoryError "system control row is missing")
      | some row =>
          let changed : SystemControls := {
            globallyPaused := request.paused
            version := row.version + 1
            updatedAt := when
            updatedBy := request.actorId }
          if ¬ FitsBigint changed.version then .error (.databaseError "bigint out of range")
          else
            .ok ((tables.setControls changed).log
                (logged (systemState print row) (systemState print changed)),
              systemState print changed)
  | .agent agentId =>
      match tables.agent? agentId with
      | none => .error (.keyError "agent not found")
      | some row =>
          let changed := { row with pausedAt := if request.paused then some when else none }
          .ok ((tables.setAgent changed).log
              (logged (agentState print row) (agentState print changed)),
            agentState print changed)

/-- `_control`: the request is made once under its key, and answers with the state after it. -/
def control (request : ControlRequest) : Except ControlFailure (ControlTables × JsonObject) := do
  validateOperatorFields request.actorId request.idempotencyKey
  let when ← awareInstant (request.occurredAt.getD request.clock)
  match tables.actionOf? request.idempotencyKey with
  | some existing =>
      if existing.actorId ≠ request.actorId ∨ existing.action ≠ request.action ∨
          existing.target ≠ request.target then
        .error (.invalidOperatorAction
          "operator idempotency key was already used for another action")
      else .ok (tables, existing.afterState)
  | none => tables.controlTarget print request when

/-! ## Automatic pauses -/

/-- `_AUTOMATIC_ALERT_ACTOR`. -/
def automaticAlertActor : String := "runtime-alert"

/-- `_automatic_pause_key`. -/
def automaticPauseKey (alertId : String) : String := "runtime-alert-pause:" ++ alertId

/-- The open row of a deduplication key. -/
def openAlert? (dedupeKey : String) : Option AlertRow :=
  tables.alerts.find? fun row => decide (row.resolvedAt = none ∧ row.dedupeKey = dedupeKey)

/-- The upsert of an alert, with the identifier of its row. -/
def upsertAlert (alert : AlertEvent) : Except ControlFailure (ControlTables × String) :=
  match tables.openAlert? alert.dedupeKey with
  | some row =>
      .ok ({ tables with
        alerts := KeyedList.upsert AlertRow.id { row with
          severity := alert.severity
          openedAt := alert.openedAt.instant } tables.alerts }, row.id)
  | none =>
      if ¬ (∀ runId ∈ alert.runId, runId ∈ tables.runs) ∨
          ¬ (∀ agentId ∈ alert.agentId, agentId ∈ tables.agents.map AgentPause.id) then
        .error (.databaseError "insert on table alerts violates foreign key constraint")
      else
        .ok ({ tables with
          alerts := tables.alerts ++ [{
            id := ids.hex tables.drawn
            runId := alert.runId
            agentId := alert.agentId
            severity := alert.severity
            code := alert.code
            openedAt := alert.openedAt.instant
            resolvedAt := none
            dedupeKey := alert.dedupeKey }] }, ids.hex tables.drawn)

/-- What the state after an automatic pause says of its alert. -/
def pauseOrigin (alert : AlertEvent) (alertId : String) (scope : AlertPauseScope) : JsonObject :=
  [("automatic", .bool true), ("alert_id", .text alertId), ("alert_code", .text alert.code),
    ("alert_dedupe_key", .text alert.dedupeKey), ("pause_scope", .text scope.value),
    ("reason", .text ("critical alert: " ++ alert.code))]

/-- The controls paused by an alert, unless they are already. -/
def pausedControls (row : SystemControls) (openedAt : Instant) : SystemControls where
  globallyPaused := true
  version := if row.globallyPaused then row.version else row.version + 1
  updatedAt := if row.globallyPaused then row.updatedAt else openedAt
  updatedBy := if row.globallyPaused then row.updatedBy else automaticAlertActor

/-- `_apply_automatic_pause`, of a target. -/
def pauseTarget (alert : AlertEvent) (alertId : String) (scope : AlertPauseScope)
    (target : ControlTarget) : Except ControlFailure ControlTables :=
  let openedAt := alert.openedAt.instant
  let logged (beforeState afterState : JsonObject) : OperatorAction := {
    actorId := automaticAlertActor
    action := "pause"
    target := target
    beforeState := beforeState
    afterState := afterState ++ pauseOrigin alert alertId scope
    occurredAt := openedAt
    idempotencyKey := automaticPauseKey alertId }
  match tables.actionOf? (automaticPauseKey alertId) with
  | some existing =>
      if existing.actorId ≠ automaticAlertActor ∨ existing.action ≠ "pause" ∨
          existing.target ≠ target then
        .error (.persistenceError "automatic pause idempotency key conflicts")
      else .ok tables
  | none =>
      match target with
      | .system =>
          match tables.controls with
          | none => .error (.persistenceError "system control row is missing")
          | some row =>
              let changed := pausedControls row openedAt
              if ¬ FitsBigint changed.version then .error (.databaseError "bigint out of range")
              else
                .ok ((tables.setControls changed).log
                  (logged (systemState print row) (systemState print changed)))
      | .agent agentId =>
          match tables.agent? agentId with
          | none => .error (.keyError "agent not found")
          | some row =>
              let changed := { row with pausedAt := some (row.pausedAt.getD openedAt) }
              .ok ((tables.setAgent changed).log
                (logged (agentState print row) (agentState print changed)))

/-- `persist_alert_in_transaction`. -/
def persistAlert (alert : AlertEvent) : Except ControlFailure ControlTables := do
  let (upserted, alertId) ← tables.upsertAlert ids alert
  match alert.pauseScope, alert.agentId with
  | .none, _ => .ok upserted
  | .system, _ => upserted.pauseTarget print alert alertId .system .system
  | .agent, some agentId => upserted.pauseTarget print alert alertId .agent (.agent agentId)
  | .agent, none => .error (.persistenceError "agent-scoped alert has no agent target")

/-! ## The two writers -/

/-- A request of an operator, or an alert. -/
inductive Call
  | control (request : ControlRequest)
  | alert (event : AlertEvent)

/-- A call with what it answers. -/
def step : Call → ControlTables × Except ControlFailure (Option JsonObject)
  | .control request =>
      match tables.control print request with
      | .error failure => (tables, .error failure)
      | .ok (after, state) => (after, .ok (some state))
  | .alert event =>
      match tables.persistAlert print ids event with
      | .error failure => ({ tables with drawn := tables.drawn + 1 }, .error failure)
      | .ok after => ({ after with drawn := tables.drawn + 1 }, .ok none)

end ControlTables

end VTrade
