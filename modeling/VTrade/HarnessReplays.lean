/-
# Recovering a run of the harness

A generation that reaches the harness stage asks the port.  The port of a first generation runs
the harness, which calls the providers as it likes, and persists the run.  The port of a
generation that has recovered the cycle reads the checkpoint first, and as a rule returns the
run that has been persisted or refuses.  Generations that have lost their lease are not stopped:
any number of them go on, and a step of one may fall between two steps of another.
-/

import VTrade.HarnessAudit
import VTrade.HarnessRecovery
import VTrade.Redaction

namespace VTrade

/-- The text with which a recovered run is refused. -/
def recoveryRefusal : String :=
  "recovery found no completed persisted harness run; provider replay is forbidden"

/-- `_RECOVERY_WITHOUT_HARNESS_RUN_ERROR`. -/
def recoveryWithoutHarnessRunError : String :=
  "ProductionCompositionUnavailable: " ++ recoveryRefusal

/-- `_PRE_PROVIDER_FAILURE_PREFIX`. -/
def preProviderFailure : String := "ProviderConfigurationError:"

/-- `str` of the error of a checkpoint. -/
def shownError (row : StepRow) : String := row.error.getD "None"

/-- `_harness_stage_requires_persisted_run`. -/
def harnessStageRequiresPersistedRun (tables : CycleTables) (cycleId : String) : Bool :=
  match tables.stepRow cycleId .harness with
  | none => false
  | some row =>
      decide (shownError row ≠ recoveryWithoutHarnessRunError) &&
        !(preProviderFailure.toList.isPrefixOf (shownError row).toList)

mutual

/-- A parsed document, as the language holds it. -/
def pyValue : Json → PyValue
  | .null => .none
  | .bool value => .bool value
  | .int value => .int value
  | .float value => .float value
  | .text value => .text value
  | .array values => .list (pyValues values)
  | .object fields => .dict (pyFields fields)

def pyValues : List Json → List PyValue
  | [] => []
  | value :: rest => pyValue value :: pyValues rest

def pyFields : List (String × Json) → List (String × PyValue)
  | [] => []
  | (key, value) :: rest => (key, pyValue value) :: pyFields rest

end

/-- `asdict` of the record of a call. -/
def ToolCallRecord.asdict (record : ToolCallRecord) : PyValue :=
  .dict [
    ("id", .text record.id),
    ("name", .text record.name),
    ("arguments", record.arguments.elim .none fun arguments => pyValue (.object arguments)),
    ("success", .bool record.success),
    ("output", pyValue (.object record.output)),
    ("category", .text record.category)]

/-- The transcript of a result. -/
def HarnessResult.transcript (result : HarnessResult) : PyValue :=
  .dict [
    ("messages", .tuple (result.messages.map fun message => pyValue (.object message))),
    ("tool_calls", .list (result.toolCalls.map ToolCallRecord.asdict)),
    ("termination_status", .text result.terminationStatus)]

/-- What the port of the harness takes from the language and its libraries. -/
structure HarnessLibrary where
  store : ArtifactStore
  /-- `json.dumps`, in UTF-8. -/
  encode : Json → List UInt8
  /-- `uuid5` in the namespace of URLs. -/
  uuid5 : String → String

/-- What raises in the storing of a run, as the orchestrator sees it. -/
def AuditFailure.raised : AuditFailure → Raised
  | .uniqueViolation constraint => .databaseError constraint
  | .valueError message => .valueError message
  | .retention (.valueError message) => .valueError message
  | .retention .overflowError => .valueError "year is out of range"
  | .retention .checkViolation => .databaseError "artifact_inventory violates check constraint"
  | .unavailable message => .runtimeError message

/-! ## The port -/

/-- Where the port of a generation stands. -/
inductive HarnessPhase
  | deciding
  | rehydrating
  | loading
  | executing
  | storing (result : HarnessResult)
  | auditing (result : HarnessResult)
  | answered (answer : Except Raised (StageResult .harness))

/-- What the harness does next: it calls a provider, or it ends. -/
inductive HarnessMove
  | calls
  | returns (result : HarnessResult)
  | raises (error : Raised)

/-- What a step of the port meets outside: what is raised in its place or although it has been
done, what the harness does, the times of a run with the artifacts that are registered with it,
and the operations of the cycle. -/
structure HarnessOutside where
  before : Option Raised
  after : Option Raised
  move : HarnessMove
  completedAt : Instant
  retainUntil : Instant
  artifacts : List ArtifactRegistration
  operationIds : List String

/-- What can be seen of a port: a generation executes the harness, and whether it holds the
cycle then; it calls a provider; it answers. -/
inductive HarnessReport
  | executes (claim : CycleClaim) (held : Bool)
  | calls
  | answers (result : StageResult .harness)

/-- Whether a cycle runs under a claim. -/
def CycleTables.runsUnder (tables : CycleTables) (claim : CycleClaim) : Bool :=
  (tables.cycleRow claim.cycleId).any fun row =>
    decide (row.status = .running) && decide (row.leaseOwner = some claim.leaseOwner)

namespace HarnessLibrary

variable (library : HarnessLibrary)

/-- The identifier of the run of a cycle. -/
def runId (cycleId : String) : String := library.uuid5 ("vtrade:harness:" ++ cycleId)

/-- The digest of the transcript of a result. -/
def transcriptSha256 (result : HarnessResult) : Sha256 :=
  library.store.sha256 (library.encode result.transcript.canonicalRedactedJson)

/-- `persist_run` of a result. -/
def persistResult (stored : HarnessTables) (cycleId : String) (result : HarnessResult)
    (outside : HarnessOutside) : Except AuditFailure HarnessTables :=
  stored.persistRun cycleId result (library.store.location (library.transcriptSha256 result))
    (library.transcriptSha256 result) outside.completedAt outside.retainUntil outside.artifacts

/-- What a run that has been executed answers. -/
def executedResult (cycleId : String) (result : HarnessResult) (operationIds : List String) :
    StageResult .harness where
  payload := [
    ("harness_run_id", .text (library.runId cycleId)),
    ("termination_status", .text result.terminationStatus),
    ("operation_ids", .array (operationIds.map Json.text)),
    ("transcript_sha256", .text (library.transcriptSha256 result).hex)]
  runtime := (result.toolCalls.countP fun call => call.name ∈ exaResearchToolNames,
    result.toolCalls.length)

/-- `_recover_completed_run`. -/
def recoverCompletedRun (stored : HarnessTables) (cycleId : String) (operationIds : List String) :
    Except Raised (StageResult .harness) :=
  match stored.run? cycleId with
  | none => .error (.runtimeError recoveryRefusal)
  | some run =>
      if (stored.inventory.row? run.transcriptUri).any fun row =>
          decide (row.status = .active) && decide (row.sha256 = run.transcriptSha256) then
        .ok {
          payload := [
            ("harness_run_id", .text (library.runId run.agentCycleId)),
            ("termination_status", .text run.terminationStatus),
            ("operation_ids", .array (operationIds.map Json.text)),
            ("transcript_sha256", .text run.transcriptSha256.hex),
            ("recovered_from_persisted_run", .bool true)]
          runtime := (run.totalWebSearches, run.totalToolCalls) }
      else .error (.runtimeError "completed harness run lacks its atomic artifact inventory")

/-- The next step of the port of the harness (`run`). -/
def step (cycles : CycleTables) (stored : HarnessTables) (claim : CycleClaim)
    (phase : HarnessPhase) (outside : HarnessOutside) :
    HarnessTables × HarnessPhase × Option HarnessReport :=
  match phase, outside.before with
  | .answered answer, _ => (stored, .answered answer, none)
  | .executing, _ =>
      match outside.move with
      | .calls => (stored, .executing, some .calls)
      | .returns result => (stored, .storing result, none)
      | .raises error => (stored, .answered (.error error), none)
  | _, some error => (stored, .answered (.error error), none)
  | .deciding, none =>
      if claim.recovery && harnessStageRequiresPersistedRun cycles claim.cycleId then
        (stored, .rehydrating, none)
      else (stored, .loading, some (.executes claim (cycles.runsUnder claim)))
  | .rehydrating, none =>
      match library.recoverCompletedRun stored claim.cycleId outside.operationIds with
      | .error error => (stored, .answered (.error error), none)
      | .ok result => (stored, .answered (.ok result), some (.answers result))
  | .loading, none => (stored, .executing, none)
  | .storing result, none =>
      match library.persistResult stored claim.cycleId result outside with
      | .error failure => (stored, .answered (.error failure.raised), none)
      | .ok after =>
          match outside.after with
          | some error => (after, .answered (.error error), none)
          | none => (after, .auditing result, none)
  | .auditing result, none =>
      let answer := library.executedResult claim.cycleId result outside.operationIds
      (stored, .answered (.ok answer), some (.answers answer))

end HarnessLibrary

/-! ## Generations -/

/-- A generation that works on the cycle: the claim it was given, its process until that has
ended, and the port of the harness while the process waits for it. -/
structure Generation where
  claim : CycleClaim
  process : Option Process
  port : Option HarnessPhase

/-- The tables, and the generations in the order of their claims. -/
structure HarnessWorld where
  cycles : CycleTables
  stored : HarnessTables
  generations : List Generation

/-- What happens: a worker schedules, or works on another cycle; the freeze of the cycle is
published; a generation goes on, or its port does; it stops for good; the run of another cycle
is persisted; and the inventory of artifacts is changed. -/
inductive HarnessEvent
  | call (request : CycleCall)
  | publish (generation : ℕ) (now cutoff : Instant)
  | advance (generation : ℕ) (outside : Outside)
  | port (generation : ℕ) (outside : HarnessOutside)
  | crash (generation : ℕ)
  | persistOther (cycleId : String) (result : HarnessResult) (outside : HarnessOutside)
  | retain (inventory : ArtifactInventory)

/-- What can be seen of a run, with the generation it is seen of. -/
abbrev HarnessReports := List (ℕ × (HarnessReport ⊕ CycleReport))

namespace HarnessWorld

variable (ids : RandomIds) (fromisoformat : String → Option Datetime) (sha256 : Json → Sha256)
  (leaseDuration : ℤ) (library : HarnessLibrary) (cycleId : String) (world : HarnessWorld)

/-- A generation is another one from here on. -/
def setGeneration (index : ℕ) (generation : Generation) : HarnessWorld :=
  { world with generations := world.generations.set index generation }

/-- The process of a generation that has not ended. -/
def running? (index : ℕ) : Option (CycleClaim × Process × Option HarnessPhase) :=
  (world.generations[index]?).bind fun generation =>
    generation.process.map fun process => (generation.claim, process, generation.port)

/-- The orchestrator goes on: it asks the port of the harness and waits for the answer, and asks
the other ports as before. -/
def advance (index : ℕ) (outside : Outside) : HarnessWorld × HarnessReports :=
  match world.running? index with
  | none => (world, [])
  | some (claim, process, port) =>
      let moved (outside : Outside) : HarnessWorld × HarnessReports :=
        let (after, next, reports) :=
          process.advance fromisoformat sha256 leaseDuration world.cycles outside
        ({ world with cycles := after }.setGeneration index ⟨claim, next, none⟩,
          reports.map fun report => (index, .inr report))
      match process.phase, port with
      | .invoking .harness _ _, none =>
          match outside.before, stageInputs process.outputs .harness with
          | none, .ok _ => (world.setGeneration index ⟨claim, some process, some .deciding⟩, [])
          | _, _ => moved outside
      | .invoking .harness _ _, some (.answered answer) =>
          moved { outside with ports := Function.update outside.ports .harness answer }
      | .invoking .harness _ _, some _ => (world, [])
      | _, _ => moved outside

/-- One event.  A claim of the cycle begins another generation. -/
def step : HarnessEvent → HarnessWorld × HarnessReports
  | .call request =>
      if request.claim?.any (fun claim => decide (claim.cycleId = cycleId)) then (world, [])
      else
        match world.cycles.transact ids fromisoformat request with
        | .error _ => (world, [])
        | .ok (after, claims) =>
            let generations := match CycleTables.lastClaim cycleId claims with
              | none => world.generations
              | some claim => world.generations ++ [⟨claim, some (.start claim), none⟩]
            ({ world with cycles := after, generations := generations }, [])
  | .publish index now cutoff =>
      match world.running? index with
      | none => (world, [])
      | some (_, process, _) =>
          match world.cycles.publishFreeze process.claim now cutoff with
          | .error _ => (world, [])
          | .ok after => ({ world with cycles := after }, [])
  | .advance index outside => world.advance fromisoformat sha256 leaseDuration index outside
  | .port index outside =>
      match world.running? index with
      | some (claim, process, some phase) =>
          let (after, next, report) :=
            library.step world.cycles world.stored process.claim phase outside
          ({ world with stored := after }.setGeneration index ⟨claim, some process, some next⟩,
            report.toList.map fun report => (index, .inl report))
      | _ => (world, [])
  | .crash index =>
      match world.generations[index]? with
      | none => (world, [])
      | some generation => (world.setGeneration index ⟨generation.claim, none, none⟩, [])
  | .persistOther other result outside =>
      if other = cycleId then (world, [])
      else
        match library.persistResult world.stored other result outside with
        | .error _ => (world, [])
        | .ok after => ({ world with stored := after }, [])
  | .retain inventory =>
      ({ world with stored := { world.stored with inventory := inventory } }, [])

end HarnessWorld

end VTrade
