/-
# Running a cycle

A process runs the cycle that it has claimed: stage by stage it takes the output from the
checkpoint, or renews the lease, begins the stage, asks a port for its result and completes
it.  What raises anywhere fails the cycle.  The process may stop between any two of its
steps, and a transaction may raise although it has been committed; then the cycle is left
as it is until another generation recovers it.
-/

import VTrade.CycleLeases

namespace VTrade

/-- The outputs of the stages that are done, in their order. -/
abbrev StageOutputs := List (CycleStage × JsonObject)

/-- `_required`. -/
def requiredOutput (outputs : StageOutputs) (stage : CycleStage) : Except Raised JsonObject :=
  match outputs.lookup stage with
  | some payload => .ok payload
  | none => .error (.runtimeError ("required checkpoint is absent: " ++ stage.value))

/-- What `_invoke` gives the port of a stage. -/
def stageInputs (outputs : StageOutputs) : CycleStage → Except Raised (List JsonObject)
  | .marketFreeze => .ok []
  | .preSettlement | .prompt => do
      let frozen ← requiredOutput outputs .marketFreeze
      .ok [frozen]
  | .harness => do
      let frozen ← requiredOutput outputs .marketFreeze
      let prompt ← requiredOutput outputs .prompt
      .ok [frozen, prompt]
  | .broker => do
      let frozen ← requiredOutput outputs .marketFreeze
      let _ ← requiredOutput outputs .prompt
      let harness ← requiredOutput outputs .harness
      .ok [frozen, harness]
  | .settlementValuation => do
      let frozen ← requiredOutput outputs .marketFreeze
      let _ ← requiredOutput outputs .prompt
      let _ ← requiredOutput outputs .harness
      let broker ← requiredOutput outputs .broker
      .ok [frozen, broker]

/-- `_fingerprint_inputs`, of the text with sorted keys. -/
def fingerprintInputs (sha256 : Json → Sha256) (cycleId : String) (stage : CycleStage)
    (outputs : StageOutputs) : Sha256 :=
  sha256 (Json.object [
    ("cycle_id", .text cycleId),
    ("stage", .text stage.value),
    ("prior", .object (outputs.map fun output => (output.1.value, .object output.2)))]).sorted

/-- A stage that is run: the outputs before it, what its port is given, and the fingerprint. -/
structure StageRun where
  stage : CycleStage
  prior : StageOutputs
  inputs : List JsonObject
  fingerprint : Sha256

/-- Where a process stands, with the stages that come later. -/
inductive Phase
  | loading (stages : List CycleStage)
  | renewing (stage : CycleStage) (later : List CycleStage)
  | beginning (stage : CycleStage) (later : List CycleStage) (now : Datetime)
  | invoking (stage : CycleStage) (later : List CycleStage) (fingerprint : Sha256)
  | completing (later : List CycleStage) (run : StageRun) (result : StageResult run.stage)
  | failing (error : Raised)

/-- `CycleOrchestrator.run`. -/
structure Process where
  claim : CycleClaim
  outputs : StageOutputs
  phase : Phase

/-- A process begins with the first stage. -/
def Process.start (claim : CycleClaim) : Process := ⟨claim, [], .loading stageOrder⟩

def Process.failing (process : Process) (error : Raised) : Process :=
  { process with phase := .failing error }

/-- Go on, unless something has been raised. -/
def Process.follow (process : Process) (raised : Option Raised) (phase : Phase) : Process :=
  match raised with
  | some error => process.failing error
  | none => { process with phase := phase }

/-- What a step meets outside: the clock, what is raised in its place or although it has been
done, the answers of the ports, the registration of artifacts, and the text of a failure. -/
structure Outside where
  now : Datetime
  before : Option Raised
  after : Option Raised
  ports : (stage : CycleStage) → Except Raised (StageResult stage)
  registered : Except Raised Unit
  reason : String

/-- What a transaction leads to, and what is raised although it has been committed. -/
def Outside.transact (outside : Outside) (transaction : Except Raised CycleTables) :
    Except Raised (CycleTables × Option Raised) :=
  match outside.before with
  | some error => .error error
  | none => transaction.map (·, outside.after)

/-- What can be seen of a cycle. -/
inductive CycleReport
  | restored (stage : CycleStage) (payload : JsonObject)
  | invoked (run : StageRun) (dataCutoff : Option Instant)
  | completed (run : StageRun) (payload : JsonObject) (completedAt : Instant)
  | finished (summary : JsonObject)

/-- The claim with its cutoff. -/
def CycleClaim.withCutoff (claim : CycleClaim) (cutoff : Instant) : Except Raised CycleClaim :=
  if h : claim.scheduledAt ≤ cutoff then
    .ok { claim with
      dataCutoff := some cutoff
      cutoff_ge := by simpa using h }
  else .error (.valueError "data cutoff cannot precede the scheduled cycle instant")

section

variable (fromisoformat : String → Option Datetime) (sha256 : Json → Sha256) (leaseDuration : ℤ)

/-- A freeze fixes the cutoff of the claim. -/
def claimAfter (claim : CycleClaim) (stage : CycleStage) (payload : JsonObject)
    (completed : Instant) : Except Raised CycleClaim :=
  if stage = .marketFreeze then do
    let cutoff ← CycleTables.marketFreezeCutoff fromisoformat payload completed
    claim.withCutoff cutoff
  else .ok claim

/-- The process after a stage has been completed. -/
def Process.complete (process : Process) (later : List CycleStage) (stage : CycleStage)
    (payload : JsonObject) (completed : Instant) (raised : Option Raised) : Process :=
  match raised with
  | some error => process.failing error
  | none =>
      match claimAfter fromisoformat process.claim stage payload completed with
      | .error error => process.failing error
      | .ok claim => ⟨claim, process.outputs ++ [(stage, payload)], .loading later⟩

/-- The summary of a cycle. -/
def cycleSummary (outputs : StageOutputs) : JsonObject :=
  outputs.map fun output => (output.1.value, .object output.2)

/-- The next step of a process. -/
def Process.advance (tables : CycleTables) (process : Process) (outside : Outside) :
    CycleTables × Option Process × List CycleReport :=
  let failing (error : Raised) : CycleTables × Option Process × List CycleReport :=
    (tables, some (process.failing error), [])
  match process.phase with
  | .loading (stage :: later) =>
      match outside.before with
      | some error => failing error
      | none =>
          match tables.loadStage process.claim.cycleId stage with
          | .error error => failing error
          | .ok none => (tables, some { process with phase := .renewing stage later }, [])
          | .ok (some stored) =>
              (tables, some { process with
                outputs := process.outputs ++ [(stage, stored.payload)]
                phase := .loading later }, [.restored stage stored.payload])
  | .renewing stage later =>
      match outside.transact (tables.renewLease process.claim outside.now leaseDuration) with
      | .error error => failing error
      | .ok (after, raised) =>
          (after, some (process.follow raised (.beginning stage later outside.now)), [])
  | .beginning stage later now =>
      let fingerprint := fingerprintInputs sha256 process.claim.cycleId stage process.outputs
      match outside.transact (tables.beginStage process.claim stage fingerprint now) with
      | .error error => failing error
      | .ok (after, raised) =>
          (after, some (process.follow raised (.invoking stage later fingerprint)), [])
  | .invoking stage later fingerprint =>
      match outside.before with
      | some error => failing error
      | none =>
          match stageInputs process.outputs stage with
          | .error error => failing error
          | .ok inputs =>
              let run := ⟨stage, process.outputs, inputs, fingerprint⟩
              match outside.ports stage with
              | .error error =>
                  (tables, some (process.failing error), [.invoked run process.claim.dataCutoff])
              | .ok result =>
                  (tables, some { process with phase := .completing later run result },
                    [.invoked run process.claim.dataCutoff])
  | .completing later run result =>
      match outside.transact (tables.completeStage fromisoformat process.claim run.fingerprint
          result outside.now outside.registered) with
      | .error error => failing error
      | .ok (after, raised) =>
          (after, some (process.complete fromisoformat later run.stage result.payload
            outside.now.instant raised), [.completed run result.payload outside.now.instant])
  | .loading [] =>
      let summary := cycleSummary process.outputs
      match outside.transact (tables.completeCycle process.claim outside.now summary) with
      | .error error => failing error
      | .ok (after, some error) => (after, some (process.failing error), [.finished summary])
      | .ok (after, none) => (after, none, [.finished summary])
  | .failing _ =>
      match outside.transact (tables.failCycle process.claim outside.now outside.reason) with
      | .error _ => (tables, none, [])
      | .ok (after, _) => (after, none, [])

end

/-! ## Runs of a cycle -/

/-- The tables, and the process that runs a cycle. -/
structure CycleState where
  tables : CycleTables
  process : Option Process

/-- What happens to a cycle: a worker schedules, or works on another cycle; the freeze of
the cycle is published; the process goes on; or it stops for good. -/
inductive CycleEvent
  | call (request : CycleCall)
  | publish (now cutoff : Instant)
  | advance (outside : Outside)
  | crash

variable (ids : RandomIds) (fromisoformat : String → Option Datetime) (sha256 : Json → Sha256)
  (leaseDuration : ℤ) (cycleId : String)

/-- One event of a cycle.  What is done under a claim of the cycle is done by its process;
who claims or recovers the cycle begins another process. -/
def CycleState.step (state : CycleState) : CycleEvent → CycleState × List CycleReport
  | .call request =>
      if request.claim?.any (fun claim => decide (claim.cycleId = cycleId)) then (state, [])
      else
        match state.tables.transact ids fromisoformat request with
        | .error _ => (state, [])
        | .ok (after, claims) =>
            match CycleTables.lastClaim cycleId claims with
            | none => (⟨after, state.process⟩, [])
            | some claim => (⟨after, some (.start claim)⟩, [])
  | .publish now cutoff =>
      match state.process with
      | none => (state, [])
      | some process =>
          match state.tables.publishFreeze process.claim now cutoff with
          | .error _ => (state, [])
          | .ok after => (⟨after, some process⟩, [])
  | .advance outside =>
      match state.process with
      | none => (state, [])
      | some process =>
          let (after, next, reports) :=
            process.advance fromisoformat sha256 leaseDuration state.tables outside
          (⟨after, next⟩, reports)
  | .crash => (⟨state.tables, none⟩, [])

/-- What can be seen of a run. -/
def cycleReports (state : CycleState) (events : List CycleEvent) : List CycleReport :=
  (Runs.trace (CycleState.step ids fromisoformat sha256 leaseDuration cycleId) state
    events).flatMap fun answered => answered.2

end VTrade
