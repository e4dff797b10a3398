/-
# Cycles and their checkpoints

An agent has one cycle an hour, and a cycle has six stages.  The row of a cycle says who
runs it: a worker that claims or recovers a cycle is a generation of its own, with a token
that no other one has, and holds a lease for a time.  A stage leaves a checkpoint, from
which a later generation resumes.

Every transaction of the repository is one step here: it commits or raises and changes
nothing.
-/

import VTrade.Domain.Execution
import VTrade.Lib.Checks
import VTrade.Lib.Json
import VTrade.Lib.KeyedList

namespace VTrade

inductive CycleStage
  | marketFreeze
  | preSettlement
  | prompt
  | harness
  | broker
  | settlementValuation
  deriving DecidableEq

def CycleStage.value : CycleStage → String
  | .marketFreeze => "market_freeze"
  | .preSettlement => "pre_settlement"
  | .prompt => "prompt"
  | .harness => "harness"
  | .broker => "broker"
  | .settlementValuation => "settlement_valuation"

/-- `STAGE_ORDER`. -/
def stageOrder : List CycleStage :=
  [.marketFreeze, .preSettlement, .prompt, .harness, .broker, .settlementValuation]

inductive CycleStatus
  | running
  | interrupted
  | completed
  | failed
  | skipped
  deriving DecidableEq

inductive StepStatus
  | running
  | completed
  | failed
  deriving DecidableEq

/-! ## Results of stages -/

/-- What a stage reports besides its payload: the freshest observation of a freeze, the
positions that were settled, the length of the prompt, the searches and the tool calls of
the harness, the operations accepted, and the account value, its peak and the mismatch of
the ledger. -/
abbrev RuntimeMetadata : CycleStage → Type
  | .marketFreeze => Datetime
  | .preSettlement => ℤ
  | .prompt => ℤ
  | .harness => ℤ × ℤ
  | .broker => ℤ
  | .settlementValuation => ℤ × ℤ × ℤ

structure StageResult (stage : CycleStage) where
  payload : JsonObject
  runtime : RuntimeMetadata stage

/-- A stored checkpoint.  Its column keeps whole numbers and timestamps as they are, so
only the payload can come back spelled differently. -/
structure Checkpoint where
  kind : CycleStage
  payload : JsonObject
  runtime : RuntimeMetadata kind

def stageCheckpoint {stage : CycleStage} (result : StageResult stage) : Checkpoint :=
  ⟨stage, Json.jsonbFields result.payload, result.runtime⟩

def restoreStage (stage : CycleStage) (checkpoint : Checkpoint) :
    Except Raised (StageResult stage) :=
  if h : checkpoint.kind = stage then .ok ⟨checkpoint.payload, h ▸ checkpoint.runtime⟩
  else .error (.valueError "runtime checkpoint kind does not match its stage")

@[simp]
theorem restoreStage_stageCheckpoint {stage : CycleStage} (result : StageResult stage) :
    restoreStage stage (stageCheckpoint result) =
      .ok ⟨Json.jsonbFields result.payload, result.runtime⟩ := by
  simp [restoreStage, stageCheckpoint]

/-! ## Rows -/

structure CycleRowFields where
  id : String
  agentId : String
  scheduledAt : Instant
  dataCutoff : Option Instant
  status : CycleStatus
  startedAt : Option Instant
  completedAt : Option Instant
  leaseOwner : Option String
  leaseExpiresAt : Option Instant
  attemptCount : ℕ
  modelTerminationStatus : Option String
  finalSummary : Option Json
  failureReason : Option String

/-- The check constraints of `agent_cycles`. -/
structure CycleRowFields.Accepted (row : CycleRowFields) : Prop where
  cutoff_known : row.dataCutoff.isSome = true ∨ row.status = .running ∨ row.status = .interrupted
  cutoff_ge : ∀ cutoff ∈ row.dataCutoff, row.scheduledAt ≤ cutoff
  lease_owned : row.leaseExpiresAt = none ∨ row.leaseOwner.isSome = true
  completed_ge : ∀ completed ∈ row.completedAt, row.scheduledAt ≤ completed

theorem CycleRowFields.accepted_iff (row : CycleRowFields) : row.Accepted ↔
    (row.dataCutoff.isSome = true ∨ row.status = .running ∨ row.status = .interrupted) ∧
      (∀ cutoff ∈ row.dataCutoff, row.scheduledAt ≤ cutoff) ∧
      (row.leaseExpiresAt = none ∨ row.leaseOwner.isSome = true) ∧
      ∀ completed ∈ row.completedAt, row.scheduledAt ≤ completed :=
  ⟨fun h => ⟨h.cutoff_known, h.cutoff_ge, h.lease_owned, h.completed_ge⟩,
    fun ⟨h1, h2, h3, h4⟩ => ⟨h1, h2, h3, h4⟩⟩

instance (row : CycleRowFields) : Decidable row.Accepted :=
  decidable_of_iff' _ row.accepted_iff

/-- A row of `agent_cycles`. -/
structure AgentCycleRow extends CycleRowFields where
  accepted : toCycleRowFields.Accepted

def AgentCycleRow.key (row : AgentCycleRow) : String := row.id

def AgentCycleRow.make (fields : CycleRowFields) : Except Raised AgentCycleRow :=
  if h : fields.Accepted then .ok ⟨fields, h⟩
  else .error (.databaseError "new row for relation \"agent_cycles\" violates check constraint")

theorem AgentCycleRow.make_eq_ok_iff {fields : CycleRowFields} {row : AgentCycleRow} :
    AgentCycleRow.make fields = .ok row ↔ row.toCycleRowFields = fields := by
  unfold make
  split
  next h =>
    rw [Except.ok.injEq]
    exact ⟨fun heq => heq ▸ rfl, fun heq => by cases row; cases heq; rfl⟩
  next h =>
    simp only [reduceCtorEq, false_iff]
    rintro rfl
    exact h row.accepted

/-- A row of `runtime_cycle_steps`. -/
structure StepRow where
  agentCycleId : String
  stage : CycleStage
  status : StepStatus
  inputFingerprint : Sha256
  output : Option Checkpoint
  attemptCount : ℕ
  startedAt : Instant
  completedAt : Option Instant
  error : Option String

def StepRow.key (row : StepRow) : String × CycleStage := (row.agentCycleId, row.stage)

/-- A row of `agent_runtime_schedules`. -/
structure ScheduleRow where
  agentId : String
  nextScheduledAt : Instant
  enabled : Bool

/-- The rows of `agent_runtime_schedules`, one for an agent. -/
structure ScheduleTable where
  rows : List ScheduleRow
  unique : (rows.map fun row => row.agentId).Nodup

/-- Move the schedule of an agent. -/
def ScheduleTable.setNext (table : ScheduleTable) (agentId : String) (nextAt : Instant) :
    ScheduleTable where
  rows := table.rows.map fun schedule =>
    if schedule.agentId = agentId then { schedule with nextScheduledAt := nextAt } else schedule
  unique := by
    rw [List.map_map]
    convert table.unique using 2
    funext schedule
    rw [Function.comp_apply]
    split <;> rfl

structure CycleTables where
  schedules : ScheduleTable
  cycles : List AgentCycleRow
  steps : List StepRow
  /-- How many random identifiers have been drawn. -/
  drawn : ℕ
  /-- `agent_cycles_pkey`. -/
  cycles_unique : (cycles.map AgentCycleRow.key).Nodup

/-- Random identifiers, in the order they are drawn: no two are alike, and none has a
colon. -/
structure RandomIds where
  hex : ℕ → String
  injective : Function.Injective hex
  no_colon : ∀ n, ':' ∉ (hex n).toList

/-- `_new_lease_owner`. -/
def newLeaseOwner (ids : RandomIds) (n : ℕ) (workerOwner : String) : String :=
  workerOwner ++ ":" ++ ids.hex n

theorem newLeaseOwner_inj (ids : RandomIds) {m n : ℕ} {first second : String}
    (h : newLeaseOwner ids m first = newLeaseOwner ids n second) : m = n := by
  apply ids.injective
  apply String.toList_injective
  have hlist := congrArg String.toList h
  simp only [newLeaseOwner, String.toList_append] at hlist
  rw [List.append_assoc, List.append_assoc] at hlist
  exact (Text.append_cons_inj_of_not_mem (ids.no_colon m) (ids.no_colon n) hlist).2

/-- The claim of one generation of a worker on a cycle. -/
structure CycleClaim where
  cycleId : String
  agentId : String
  scheduledAt : Instant
  dataCutoff : Option Instant
  leaseOwner : String
  leaseExpiresAt : Instant
  recovery : Bool
  attempt : ℕ
  cutoff_ge : ∀ cutoff ∈ dataCutoff, scheduledAt ≤ cutoff

namespace CycleTables

variable (tables : CycleTables)

def cycleRow (cycleId : String) : Option AgentCycleRow :=
  KeyedList.lookup AgentCycleRow.key cycleId tables.cycles

def stepRow (cycleId : String) (stage : CycleStage) : Option StepRow :=
  KeyedList.lookup StepRow.key (cycleId, stage) tables.steps

def setCycle (row : AgentCycleRow) : CycleTables :=
  { tables with
    cycles := KeyedList.upsert AgentCycleRow.key row tables.cycles
    cycles_unique := KeyedList.nodup_upsert tables.cycles_unique row }

def setStep (row : StepRow) : CycleTables :=
  { tables with steps := KeyedList.upsert StepRow.key row tables.steps }

@[simp]
theorem cycleRow_setCycle_self (row : AgentCycleRow) :
    (tables.setCycle row).cycleRow row.id = some row :=
  @KeyedList.lookup_upsert_self _ _ _ AgentCycleRow.key row tables.cycles

theorem cycleRow_setCycle_of_ne {row : AgentCycleRow} {cycleId : String} (h : cycleId ≠ row.id) :
    (tables.setCycle row).cycleRow cycleId = tables.cycleRow cycleId :=
  @KeyedList.lookup_upsert_of_ne _ _ _ AgentCycleRow.key _ row h tables.cycles

@[simp]
theorem stepRow_setCycle (row : AgentCycleRow) (cycleId : String) (stage : CycleStage) :
    (tables.setCycle row).stepRow cycleId stage = tables.stepRow cycleId stage := rfl

@[simp]
theorem cycleRow_setStep (row : StepRow) (cycleId : String) :
    (tables.setStep row).cycleRow cycleId = tables.cycleRow cycleId := rfl

@[simp]
theorem stepRow_setStep_self (row : StepRow) :
    (tables.setStep row).stepRow row.agentCycleId row.stage = some row :=
  @KeyedList.lookup_upsert_self _ _ _ StepRow.key row tables.steps

theorem stepRow_setStep_of_ne {row : StepRow} {cycleId : String} {stage : CycleStage}
    (h : (cycleId, stage) ≠ row.key) :
    (tables.setStep row).stepRow cycleId stage = tables.stepRow cycleId stage :=
  @KeyedList.lookup_upsert_of_ne _ _ _ StepRow.key _ row h tables.steps

/-- A row is found under its own identifier. -/
theorem id_of_cycleRow {cycleId : String} {row : AgentCycleRow}
    (h : tables.cycleRow cycleId = some row) : row.id = cycleId :=
  @KeyedList.key_of_lookup_eq_some _ _ _ AgentCycleRow.key _ _ _ h

theorem key_of_stepRow {cycleId : String} {stage : CycleStage} {row : StepRow}
    (h : tables.stepRow cycleId stage = some row) :
    row.agentCycleId = cycleId ∧ row.stage = stage :=
  Prod.mk.inj (@KeyedList.key_of_lookup_eq_some _ _ _ StepRow.key _ _ _ h)

/-- `UPDATE agent_cycles`: write the fields of a cycle. -/
def updateCycle (fields : CycleRowFields) : Except Raised CycleTables := do
  let row ← AgentCycleRow.make fields
  .ok (tables.setCycle row)

/-! ## Claiming -/

/-- What a scheduling transaction meets: whether it gets the scheduler's lock, the agents
whose run is running and that are not paused, and the rows that other transactions have
locked. -/
structure Scheduling where
  lockGranted : Bool
  admitted : List String
  locked : List String

/-- Microseconds of an hour. -/
def hour : ℤ := 3600000000

/-- `_latest_hour_not_after`, of a schedule that is due. -/
def latestHourNotAfter (now anchor : Instant) : Instant := anchor + (now - anchor) / hour * hour

/-- The schedules that are due, the earliest first: of agents that have no cycle running
under a lease. -/
def dueSchedules (scheduling : Scheduling) (now : Instant) : List ScheduleRow :=
  (tables.schedules.rows.filter fun schedule =>
    schedule.enabled && decide (schedule.nextScheduledAt ≤ now) &&
    decide (schedule.agentId ∈ scheduling.admitted) &&
    decide (schedule.agentId ∉ scheduling.locked) &&
    !(tables.cycles.any fun active =>
      decide (active.agentId = schedule.agentId) && decide (active.status = .running) &&
      active.leaseExpiresAt.all (now < ·))).insertionSort fun first second =>
    first.nextScheduledAt < second.nextScheduledAt ∨
      first.nextScheduledAt = second.nextScheduledAt ∧ first.agentId ≤ second.agentId

/-- `INSERT INTO agent_cycles ... ON CONFLICT (agent_id, scheduled_at) DO NOTHING`, with
whether the row is inserted. -/
def insertCycle (fields : CycleRowFields) : Except Raised (CycleTables × Bool) :=
  if tables.cycles.any fun row =>
      decide (row.agentId = fields.agentId) && decide (row.scheduledAt = fields.scheduledAt) then
    .ok (tables, false)
  else if (tables.cycleRow fields.id).isSome then
    .error (.databaseError "duplicate key value violates unique constraint \"agent_cycles_pkey\"")
  else do
    let row ← AgentCycleRow.make fields
    .ok (tables.setCycle row, true)

/-- The row of an hour that was missed. -/
def skippedFields (id agentId : String) (slot now : Instant) : CycleRowFields where
  id := id
  agentId := agentId
  scheduledAt := slot
  dataCutoff := some slot
  status := .skipped
  startedAt := none
  completedAt := some now
  leaseOwner := none
  leaseExpiresAt := none
  attemptCount := 0
  modelTerminationStatus := none
  finalSummary := none
  failureReason := some "missed hourly slot; backfill disabled"

/-- `_record_skipped_range`. -/
def recordSkippedRange (ids : RandomIds) (agentId : String) (first last now : Instant) :
    Except Raised CycleTables :=
  (List.range ((last - first) / hour + 1).toNat).foldlM (fun tables index => do
    let inserted ← { tables with drawn := tables.drawn + 1 }.insertCycle
      (skippedFields (ids.hex tables.drawn) agentId (first + index * hour) now)
    .ok inserted.1) tables

/-- `_advance_schedule`. -/
def advanceSchedule (agentId : String) (nextAt : Instant) : CycleTables :=
  { tables with schedules := tables.schedules.setNext agentId nextAt }

/-- The row of a cycle that is claimed. -/
def claimedFields (id agentId leaseOwner : String) (scheduledAt now leaseExpires : Instant) :
    CycleRowFields where
  id := id
  agentId := agentId
  scheduledAt := scheduledAt
  dataCutoff := none
  status := .running
  startedAt := some now
  completedAt := none
  leaseOwner := some leaseOwner
  leaseExpiresAt := some leaseExpires
  attemptCount := 1
  modelTerminationStatus := none
  finalSummary := none
  failureReason := none

/-- The configuration of a worker's claims. -/
structure LeaseTerms where
  leaseOwner : String
  leaseDuration : ℤ
  missedGrace : ℤ
  limit : ℤ

/-- Claim the latest hour of a schedule that is due, unless it is too old, and record the
hours before it as skipped. -/
def claimSchedule (ids : RandomIds) (terms : LeaseTerms) (now : Instant)
    (state : CycleTables × List CycleClaim) (schedule : ScheduleRow) :
    Except Raised (CycleTables × List CycleClaim) := do
  let (tables, claims) := state
  let agentId := schedule.agentId
  let anchor := schedule.nextScheduledAt
  let scheduledAt := latestHourNotAfter now anchor
  let claimCurrent : Bool := now - scheduledAt ≤ terms.missedGrace
  let skippedThrough := if claimCurrent then scheduledAt - hour else scheduledAt
  let tables ← (if anchor ≤ skippedThrough then
      tables.recordSkippedRange ids agentId anchor skippedThrough now
    else .ok tables : Except Raised CycleTables)
  if claimCurrent then
    let leaseOwner := newLeaseOwner ids tables.drawn terms.leaseOwner
    let cycleId := ids.hex (tables.drawn + 1)
    let leaseExpires := now + terms.leaseDuration
    let (tables, inserted) ← { tables with drawn := tables.drawn + 2 }.insertCycle
      (claimedFields cycleId agentId leaseOwner scheduledAt now leaseExpires)
    let tables := tables.advanceSchedule agentId (scheduledAt + hour)
    if inserted then
      .ok (tables, claims ++ [⟨cycleId, agentId, scheduledAt, none, leaseOwner, leaseExpires,
        false, 1, by simp⟩])
    else .ok (tables, claims)
  else .ok (tables.advanceSchedule agentId (scheduledAt + hour), claims)

/-- `claim_due_cycles`. -/
def claimDueCycles (ids : RandomIds) (scheduling : Scheduling) (terms : LeaseTerms)
    (now : Datetime) : Except Raised (CycleTables × List CycleClaim) :=
  if now.isAware = false then .error (.valueError "timestamps must be timezone-aware")
  else if terms.leaseOwner = "" ∨ terms.leaseDuration ≤ 0 ∨ terms.missedGrace < 0 then
    .error (.valueError "invalid scheduler lease configuration")
  else if terms.limit ≤ 0 ∨ scheduling.lockGranted = false then .ok (tables, [])
  else
    ((tables.dueSchedules scheduling now.instant).take terms.limit.toNat).foldlM
      (claimSchedule ids terms now.instant) (tables, [])

/-! ## Recovering -/

/-- Whether the freeze of a cycle without a cutoff has been going on, or has not begun, for
too long. -/
def freezeStale (row : CycleRowFields) (since : Instant) : Bool :=
  row.dataCutoff = none &&
    match tables.stepRow row.id .marketFreeze with
    | some freeze => freeze.status ≠ .completed && decide (freeze.startedAt ≤ since)
    | none => row.startedAt.any (· ≤ since)

/-- The cycles that can be recovered, the earliest first. -/
def recoverableCycles (scheduling : Scheduling) (now : Instant) (staleAfter : Option ℤ) :
    List AgentCycleRow :=
  (tables.cycles.filter fun row =>
    (decide (row.status = .running) || decide (row.status = .interrupted)) &&
    (row.leaseExpiresAt.all (· ≤ now) ||
      staleAfter.any fun staleAfter => tables.freezeStale row.toCycleRowFields (now - staleAfter)) &&
    decide (row.agentId ∈ scheduling.admitted) &&
    decide (row.id ∉ scheduling.locked)).insertionSort fun first second =>
    first.scheduledAt ≤ second.scheduledAt

/-- The checkpoint of a freeze that was running fails. -/
def failFreeze (cycleId : String) (now : Instant) : CycleTables :=
  match tables.stepRow cycleId .marketFreeze with
  | some freeze =>
      if freeze.status = .running then
        tables.setStep { freeze with
          status := .failed
          error := some "market_freeze interrupted: previous worker generation became stale"
          completedAt := some now }
      else tables
  | none => tables

/-- Give a cycle to a new generation. -/
def recoverCycle (ids : RandomIds) (leaseOwner : String) (leaseDuration : ℤ) (now : Instant)
    (state : CycleTables × List CycleClaim) (row : AgentCycleRow) :
    Except Raised (CycleTables × List CycleClaim) := do
  let (tables, claims) := state
  let owner := newLeaseOwner ids tables.drawn leaseOwner
  let leaseExpires := now + leaseDuration
  let tables ← ({ tables with drawn := tables.drawn + 1 }.failFreeze row.id now).updateCycle
    { row.toCycleRowFields with
      status := .running
      leaseOwner := some owner
      leaseExpiresAt := some leaseExpires
      attemptCount := row.attemptCount + 1
      failureReason := some "market_freeze lease reclaimed after worker inactivity" }
  .ok (tables, claims ++ [⟨row.id, row.agentId, row.scheduledAt, row.dataCutoff, owner,
    leaseExpires, true, row.attemptCount + 1, row.accepted.cutoff_ge⟩])

/-- `recover_expired_cycles`. -/
def recoverExpiredCycles (ids : RandomIds) (scheduling : Scheduling) (terms : LeaseTerms)
    (staleAfter : Option ℤ) (now : Datetime) : Except Raised (CycleTables × List CycleClaim) :=
  if now.isAware = false then .error (.valueError "timestamps must be timezone-aware")
  else if terms.leaseOwner = "" ∨ terms.leaseDuration ≤ 0 ∨ terms.limit ≤ 0 ∨
      staleAfter.any (· ≤ 0) ∨ scheduling.lockGranted = false then
    .ok (tables, [])
  else
    ((tables.recoverableCycles scheduling now.instant staleAfter).take terms.limit.toNat).foldlM
      (recoverCycle ids terms.leaseOwner terms.leaseDuration now.instant) (tables, [])

/-! ## The lease -/

/-- The row of a cycle that runs under the claim, with a lease that has not expired. -/
def leasedRow (claim : CycleClaim) (now : Instant) : Option AgentCycleRow :=
  (tables.cycleRow claim.cycleId).filter fun row =>
    decide (row.status = .running) && decide (row.leaseOwner = some claim.leaseOwner) &&
    row.leaseExpiresAt.any (now < ·)

def leaseLost (claim : CycleClaim) : Raised :=
  .runtimeError ("cycle lease lost: " ++ claim.cycleId)

/-- `_assert_lease`. -/
def assertLease (claim : CycleClaim) (now : Instant) : Except Raised AgentCycleRow :=
  match tables.leasedRow claim now with
  | some row => .ok row
  | none => .error (leaseLost claim)

/-- `_aware`: the instant of a timestamp that has a time zone. -/
def awareInstant (now : Datetime) : Except Raised Instant :=
  if now.isAware then .ok now.instant
  else .error (.valueError "timestamps must be timezone-aware")

/-- `renew_lease`. -/
def renewLease (claim : CycleClaim) (now : Datetime) (duration : ℤ) :
    Except Raised CycleTables := do
  let now ← awareInstant now
  if duration ≤ 0 then .error (.valueError "lease duration must be positive")
  else do
    let row ← tables.assertLease claim now
    tables.updateCycle { row.toCycleRowFields with leaseExpiresAt := some (now + duration) }

/-! ## Checkpoints -/

/-- `load_stage`: the result of a stage that is completed. -/
def loadStage (cycleId : String) (stage : CycleStage) : Except Raised (Option (StageResult stage)) :=
  match (tables.stepRow cycleId stage).filter fun row => decide (row.status = .completed) with
  | none => .ok none
  | some row =>
      match row.output with
      | none => .error (.valueError "runtime checkpoint output must be a JSON object")
      | some checkpoint => (restoreStage stage checkpoint).map some

/-- `begin_stage`. -/
def beginStage (claim : CycleClaim) (stage : CycleStage) (inputFingerprint : Sha256)
    (now : Datetime) : Except Raised CycleTables := do
  let now ← awareInstant now
  let _ ← tables.assertLease claim now
  match tables.stepRow claim.cycleId stage with
  | none =>
      .ok (tables.setStep {
        agentCycleId := claim.cycleId
        stage := stage
        status := .running
        inputFingerprint := inputFingerprint
        output := none
        attemptCount := 1
        startedAt := now
        completedAt := none
        error := none })
  | some row =>
      if row.inputFingerprint ≠ inputFingerprint then
        .error (.valueError "runtime stage idempotency fingerprint conflict")
      else if row.status = .completed then .ok tables
      else
        .ok (tables.setStep { row with
          status := .running
          attemptCount := row.attemptCount + 1
          startedAt := now
          completedAt := none
          error := if stage = .harness then row.error else none })

/-- `_market_freeze_cutoff`: the cutoff that a freeze publishes, or the given one. -/
def marketFreezeCutoff (fromisoformat : String → Option Datetime) (payload : JsonObject)
    (fallback : Instant) : Except Raised Instant :=
  match Json.get payload "data_cutoff" with
  | none | some .null => .ok fallback
  | some (.text cutoff) =>
      match fromisoformat cutoff with
      | none => .error (.valueError "market freeze data_cutoff is malformed")
      | some cutoff =>
          if cutoff.isAware then .ok cutoff.instant
          else .error (.valueError "runtime timestamps must be timezone-aware")
  | some _ => .error (.valueError "market freeze data_cutoff must be an ISO timestamp")

/-- The cutoff of a cycle is set once, and not before the cycle's hour. -/
def publishCutoff (row : AgentCycleRow) (cutoff : Instant) : Except Raised CycleTables :=
  if row.dataCutoff = none ∨ row.dataCutoff = some cutoff then
    tables.updateCycle { row.toCycleRowFields with dataCutoff := some cutoff }
  else .error (.valueError "market freeze cutoff conflicts with the agent cycle")

/-- Publishing the freeze of a cycle, which fixes the cutoff of the cycle. -/
def publishFreeze (claim : CycleClaim) (now cutoff : Instant) : Except Raised CycleTables := do
  let row ← tables.assertLease claim now
  match row.dataCutoff with
  | none => tables.updateCycle { row.toCycleRowFields with dataCutoff := some cutoff }
  | some fixed =>
      if fixed = cutoff then .ok tables
      else .error (.databaseError "published freeze must match its finalized agent-cycle cutoff")

/-- `complete_stage`.  Registering the artifacts of the result may raise. -/
def completeStage (fromisoformat : String → Option Datetime) (claim : CycleClaim)
    {stage : CycleStage} (inputFingerprint : Sha256) (result : StageResult stage) (now : Datetime)
    (registered : Except Raised Unit) : Except Raised CycleTables := do
  let now ← awareInstant now
  let _ ← tables.assertLease claim now
  match (tables.stepRow claim.cycleId stage).filter fun row =>
      decide (row.status = .running) && decide (row.inputFingerprint = inputFingerprint) with
  | none => .error (.valueError "runtime stage completion lost its checkpoint")
  | some row => do
      let tables := tables.setStep { row with
        status := .completed
        output := some (stageCheckpoint result)
        completedAt := some now
        error := none }
      let _ ← registered
      let leased ← tables.assertLease claim now
      if stage = .marketFreeze then do
        let cutoff ← marketFreezeCutoff fromisoformat result.payload now
        tables.publishCutoff leased cutoff
      else .ok tables

/-! ## The end of a cycle -/

/-- The termination status that the harness reports in a summary. -/
def terminationStatus (summary : JsonObject) : Except Raised (Option String) :=
  match Json.get summary "harness" with
  | some (.object harness) =>
      match Json.get harness "termination_status" with
      | none | some .null => .ok none
      | some (.text status) => .ok (some status)
      | some _ => .error (.valueError "harness termination status must be a string")
  | _ => .ok none

/-- `complete_cycle`. -/
def completeCycle (claim : CycleClaim) (now : Datetime) (summary : JsonObject) :
    Except Raised CycleTables := do
  let now ← awareInstant now
  let modelTerminationStatus ← terminationStatus summary
  let row ← tables.assertLease claim now
  tables.updateCycle { row.toCycleRowFields with
    status := .completed
    completedAt := some now
    finalSummary := some (Json.object summary).sorted
    modelTerminationStatus := modelTerminationStatus
    failureReason := none
    leaseOwner := none
    leaseExpiresAt := none }

/-- The checkpoints of a cycle that are running fail. -/
def failSteps (cycleId reason : String) (now : Instant) : CycleTables :=
  { tables with
    steps := tables.steps.map fun row =>
      if row.agentCycleId = cycleId ∧ row.status = .running then
        { row with status := .failed, error := some reason, completedAt := some now }
      else row }

/-- `reason[:4000]`. -/
def safeReason (reason : String) : String := String.ofList (reason.toList.take 4000)

/-- `fail_cycle`.  A cycle whose cutoff is not fixed is interrupted and can be recovered. -/
def failCycle (claim : CycleClaim) (now : Datetime) (reason : String) :
    Except Raised CycleTables := do
  let now ← awareInstant now
  match (tables.cycleRow claim.cycleId).filter fun row =>
      decide (row.status = .running) && decide (row.leaseOwner = some claim.leaseOwner) with
  | none => .ok tables
  | some row => do
      let tables ← tables.updateCycle { row.toCycleRowFields with
        status := if row.dataCutoff = none then .interrupted else .failed
        failureReason := some (safeReason reason)
        completedAt := some now
        leaseOwner := none
        leaseExpiresAt := none }
      .ok (tables.failSteps claim.cycleId (safeReason reason) now)

end CycleTables

end VTrade
