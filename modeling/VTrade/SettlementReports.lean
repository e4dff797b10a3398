/-
# The settlements that a cycle reports

The ports of two stages settle what is eligible.  Every settlement is committed on its own,
and the output that names them is stored once, when the stage is complete.  What a pass has
booked is settled for good: a generation that takes the cycle over finds it neither among
the positions nor among what there is to settle.  So the completed stages of a cycle name
each of its settlements once exactly when no generation leaves a stage in which it has
booked a settlement before the stage is complete.
-/

import VTrade.CycleRecovery
import VTrade.ProjectionRuns

namespace VTrade

/-! ## The ports that settle -/

/-- The stages whose ports settle. -/
def CycleStage.settles : CycleStage → Bool
  | .preSettlement | .settlementValuation => true
  | .marketFreeze | .prompt | .harness | .broker => false

/-- The settlements that an output names. -/
def settlementIds (payload : JsonObject) : List String :=
  match Json.get payload "settlement_ids" with
  | some (.array values) => values.filterMap fun
      | .text id => some id
      | .null | .bool _ | .int _ | .float _ | .array _ | .object _ => none
  | some .null | some (.bool _) | some (.int _) | some (.float _) | some (.text _)
  | some (.object _) | none => []

/-- The output of a port names what its pass has settled. -/
def StageResult.naming {stage : CycleStage} (settled : List PersistenceResult)
    (result : StageResult stage) : StageResult stage :=
  { result with
    payload := ("settlement_ids", .array (settled.map fun persisted => .text persisted.recordId)) ::
      result.payload }

@[simp]
theorem settlementIds_naming {stage : CycleStage} {settled : List PersistenceResult}
    {result : StageResult stage} :
    settlementIds (result.naming settled).payload = settled.map PersistenceResult.recordId := by
  rw [settlementIds, StageResult.naming, Json.get, List.lookup_cons_self]
  dsimp only
  rw [List.filterMap_map]
  exact congrFun List.filterMap_eq_map settled

/-- What `_settle_eligible` reads of the freeze and the claim: the observations and the
cutoff. -/
def settlementInputs (parseUuid : Json → Option String) (process : Process) :
    Except Raised (List String × Datetime) := do
  let frozen ← requiredOutput process.outputs .marketFreeze
  let cutoff ← match process.claim.dataCutoff with
    | none => .error (.runtimeError "cycle cutoff is not finalized")
    | some cutoff => readTimestamp cutoff
  match Json.get frozen "resolution_ids" with
  | some (.array values) =>
      match values.mapM parseUuid with
      | some resolutionIds => .ok (resolutionIds, cutoff)
      | none => .error (.runtimeError "freeze resolution membership is malformed")
  | some .null | some (.bool _) | some (.int _) | some (.float _) | some (.text _)
  | some (.object _) | none => .ok ([], cutoff)

/-- What a pass over these observations has settled, once no position is left. -/
def Job.finished (resolutionIds : List String) : Job → Option (List PersistenceResult)
  | .idle => if resolutionIds = [] then some [] else none
  | .settling pass =>
      if pass.portfolio.isSome ∧ pass.rows = [] then some pass.settled else none
  | .reserved _ _ | .loaded _ _ _ | .decided _ _ _ _ => none

/-- The settlements that a pass has recorded or found recorded so far. -/
def Job.settledIds : Job → List String
  | .settling pass => pass.settled.map PersistenceResult.recordId
  | .idle | .reserved _ _ | .loaded _ _ _ | .decided _ _ _ _ => []

/-- The settlements that an event records. -/
def WorkerEvent.bookedIds : WorkerEvent → List String
  | .settled _ persisted => if persisted.created then [persisted.recordId] else []
  | .proceeded | .reserved _ | .answered _ | .recorded _ _ => []

/-- The worker that an action is of. -/
def WorkerAction.worker : WorkerAction → Option ℕ
  | .submit worker _ | .load worker _ | .execute worker _ _ | .persist worker
  | .openPass worker _ _ _ | .settle worker _ | .stop worker => some worker
  | .observe _ | .pause _ _ | .reconcile _ _ _ | .restart _ => none

/-- A port raises. -/
def Outside.raising (now : Datetime) (error : Raised) : Outside where
  now := now
  before := none
  after := none
  ports _ := .error error
  registered := .ok ()
  reason := ""

/-- A port answers and names what has been settled. -/
def Outside.naming (outside : Outside) (settled : List PersistenceResult) : Outside :=
  { outside with ports := fun stage => (outside.ports stage).map (StageResult.naming settled) }

/-- Whether a process waits for a port that settles. -/
def Phase.waits : Phase → Bool
  | .invoking stage _ _ => stage.settles
  | .loading _ | .renewing _ _ | .beginning _ _ _ | .completing _ _ _ | .failing _ => false

/-- Whether a process is at a stage that settles: at its port, or about to complete it. -/
def Phase.atSettlement : Phase → Bool
  | .invoking stage _ _ => stage.settles
  | .completing _ run _ => run.stage.settles
  | .loading _ | .renewing _ _ | .beginning _ _ _ | .failing _ => false

/-- The settlements of the stage that a process is at, with what its port is doing. -/
def Phase.held (job : Job) : Phase → List String
  | .invoking stage _ _ => if stage.settles then job.settledIds else []
  | .completing _ run result => if run.stage.settles then settlementIds result.payload else []
  | .loading _ | .renewing _ _ | .beginning _ _ _ | .failing _ => []

/-- The settlements that the report of a completed stage names. -/
def CycleReport.settlements : CycleReport → Option (List String)
  | .completed run payload _ => if run.stage.settles then some (settlementIds payload) else none
  | .restored _ _ | .invoked _ _ | .finished _ => none

/-- The settlements that the completed stages of a cycle have reported. -/
def reportedSettlements (reports : List CycleReport) : List String :=
  reports.flatMap fun report => report.settlements.getD []

/-! ## The machine -/

/-- A cycle, the workers, and the settlements that the cycle has booked. -/
structure SettlingCycle where
  cycle : CycleState
  workers : Workers
  booked : List String

/-- What happens: something to the cycle; another worker takes a step; or the port that the
process of the cycle waits for looks up what there is to settle, loads the portfolio, settles
a position, raises, or answers. -/
inductive SettlingEvent
  | cycle (event : CycleEvent)
  | work (action : WorkerAction)
  | lookUp (clock : Datetime)
  | load (clock : Datetime)
  | settle (clock : Datetime)
  | fail (clock : Datetime) (error : Raised)
  | answer (outside : Outside)

/-- Whether the process takes a step. -/
def CycleEvent.advances : CycleEvent → Bool
  | .advance _ => true
  | .call _ | .publish _ _ | .crash => false

/-- A cycle, the worker that its ports are, and how they read identifiers. -/
structure CycleRuntime where
  runtime : Runtime
  ids : RandomIds
  fromisoformat : String → Option Datetime
  sha256 : Json → Sha256
  parseUuid : Json → Option String
  leaseDuration : ℤ
  cycleId : String
  own : ℕ

namespace CycleRuntime

variable (cycle : CycleRuntime) (state : SettlingCycle)

def cycleStep : CycleState → CycleEvent → CycleState × List CycleReport :=
  CycleState.step cycle.ids cycle.fromisoformat cycle.sha256 cycle.leaseDuration cycle.cycleId

/-- The process that waits for a port that settles. -/
def waiting : Option Process := state.cycle.process.filter fun process => process.phase.waits

/-- Whether the process is at a stage that settles. -/
def atSettlement : Bool := state.cycle.process.any fun process => process.phase.atSettlement

/-- The settlements of the stage that the process is at. -/
def held : List String :=
  match state.cycle.process with
  | none => []
  | some process => process.phase.held (state.workers.jobs cycle.own)

/-- The port answers or raises, and its pass is over. -/
def conclude (outside : Outside) : SettlingCycle × List CycleReport :=
  let (reached, reports) := cycle.cycleStep state.cycle (.advance outside)
  (⟨reached, state.workers.done cycle.own, state.booked⟩, reports)

/-- The pass of the port takes a step; the port raises what the step raises. -/
def perform (clock : Datetime) (action : WorkerAction) : SettlingCycle × List CycleReport :=
  match cycle.runtime.step state.workers action with
  | (workers, .ok event) =>
      ({ state with
        workers := workers
        booked := state.booked ++ event.bookedIds }, [])
  | (workers, .error error) =>
      cycle.conclude { state with workers := workers } (.raising clock error)

/-- The port looks up what there is to settle. -/
def lookUp (process : Process) (clock : Datetime) : SettlingCycle × List CycleReport :=
  match settlementInputs cycle.parseUuid process with
  | .error error => cycle.conclude state (.raising clock error)
  | .ok ([], _) => (state, [])
  | .ok (resolutionIds, cutoff) =>
      cycle.perform state clock
        (.openPass cycle.own process.claim.agentId resolutionIds cutoff)

/-- The port answers, once its pass is done. -/
def answer (process : Process) (outside : Outside) : SettlingCycle × List CycleReport :=
  match settlementInputs cycle.parseUuid process with
  | .error error => cycle.conclude state (.raising outside.now error)
  | .ok (resolutionIds, _) =>
      match (state.workers.jobs cycle.own).finished resolutionIds with
      | none => (state, [])
      | some settled => cycle.conclude state (outside.naming settled)

/-- One step.  A process that waits for a port goes on with its answer; a pass ends with the
process that has asked for it. -/
def step : SettlingEvent → SettlingCycle × List CycleReport
  | .cycle event =>
      if (waiting state).isSome ∧ event.advances then (state, [])
      else
        let (reached, reports) := cycle.cycleStep state.cycle event
        let after := { state with cycle := reached }
        if (waiting after).isSome then (after, reports)
        else ({ after with workers := state.workers.done cycle.own }, reports)
  | .work action =>
      if action.worker = some cycle.own then (state, [])
      else ({ state with workers := (cycle.runtime.step state.workers action).1 }, [])
  | .lookUp clock =>
      match waiting state with
      | none => (state, [])
      | some process => cycle.lookUp state process clock
  | .load clock =>
      match waiting state with
      | none => (state, [])
      | some _ => cycle.perform state clock (.load cycle.own clock)
  | .settle clock =>
      match waiting state with
      | none => (state, [])
      | some _ =>
          if ((state.workers.jobs cycle.own).finished []).isSome then (state, [])
          else cycle.perform state clock (.settle cycle.own clock)
  | .fail clock error =>
      match waiting state with
      | none => (state, [])
      | some _ => cycle.conclude state (.raising clock error)
  | .answer outside =>
      match waiting state with
      | none => (state, [])
      | some process => cycle.answer state process outside

/-- What the completed stages have reported. -/
def reports (events : List SettlingEvent) : List CycleReport :=
  (Runs.trace cycle.step state events).flatMap fun answered => answered.2

/-- A generation leaves a stage in which it has booked a settlement, and the stage is not
complete. -/
def abandons (event : SettlingEvent) : Bool :=
  let (reached, reports) := cycle.step state event
  (cycle.held state).any (fun id => id ∈ state.booked) && !atSettlement reached &&
    !reports.any fun report => report.settlements.isSome

/-- The position that a pass is about to settle has a settlement that the cycle has booked. -/
def findsAgain : SettlingEvent → Bool
  | .settle clock =>
      match state.workers.jobs cycle.own with
      | .settling pass =>
          match pass.portfolio, pass.rows with
          | some portfolio, row :: _ =>
              match pass.book portfolio row clock with
              | .ok (_, _, record) =>
                  (state.workers.db.settlement record.ledgerEntry.idempotencyKey
                    (pass.agentId, row.key) row.observation.id).any fun existing =>
                      existing.id ∈ state.booked
              | .error _ => false
          | _, _ => false
      | .idle | .reserved _ _ | .loaded _ _ _ | .decided _ _ _ _ => false
  | .cycle _ | .work _ | .lookUp _ | .load _ | .fail _ _ | .answer _ => false

end CycleRuntime

/-! ## What a step does -/

namespace Runtime

variable {runtime : Runtime} {state : Workers} {worker : ℕ}

/-- The jobs of other workers stay. -/
theorem jobs_withJob_of_ne {other : ℕ} (h : worker ≠ other) (job : Job) :
    (state.withJob other job).jobs worker = state.jobs worker := by
  unfold Workers.withJob
  exact Function.update_of_ne h job state.jobs

theorem jobs_withJob_self (job : Job) : (state.withJob worker job).jobs worker = job := by
  unfold Workers.withJob
  exact Function.update_self worker job state.jobs

/-- What other workers do leaves the job of a worker. -/
theorem step_jobs_of_ne {action : WorkerAction} (h : action.worker ≠ some worker) :
    (runtime.step state action).1.jobs worker = state.jobs worker := by
  have hother {other : ℕ} (haction : action.worker = some other) : worker ≠ other := by
    rintro rfl
    exact h haction
  cases action with
  | submit other call =>
      have hne := hother rfl
      unfold step submit
      dsimp only
      split
      · split
        · rfl
        · split
          · rfl
          · split
            · rfl
            · exact jobs_withJob_of_ne hne _
      · rfl
  | load other clock =>
      have hne := hother rfl
      unfold step load
      dsimp only
      split
      · split
        · exact jobs_withJob_of_ne hne _
        · split
          · exact jobs_withJob_of_ne hne _
          · exact jobs_withJob_of_ne hne _
          · exact jobs_withJob_of_ne hne _
      · split
        · exact jobs_withJob_of_ne hne _
        · exact jobs_withJob_of_ne hne _
        · rfl
      · rfl
  | execute other executor environment =>
      have hne := hother rfl
      unfold step execute
      dsimp only
      split
      · split
        · exact jobs_withJob_of_ne hne _
        · exact jobs_withJob_of_ne hne _
      · rfl
  | persist other =>
      have hne := hother rfl
      unfold step persist
      dsimp only
      split
      · split
        · exact jobs_withJob_of_ne hne _
        · exact jobs_withJob_of_ne hne _
      · rfl
  | openPass other agentId resolutionIds cutoff =>
      have hne := hother rfl
      unfold step openPass
      dsimp only
      split
      · exact jobs_withJob_of_ne hne _
      · rfl
  | settle other clock =>
      have hne := hother rfl
      unfold step settle
      dsimp only
      split
      · split
        · split
          · exact jobs_withJob_of_ne hne _
          · split
            · exact jobs_withJob_of_ne hne _
            · exact jobs_withJob_of_ne hne _
        · exact jobs_withJob_of_ne hne _
        · rfl
      · rfl
  | observe row =>
      unfold step
      dsimp only
      split
      · rfl
      · rfl
  | pause agentId paused => rfl
  | reconcile operationId operationState reconciliation => rfl
  | stop other => exact jobs_withJob_of_ne (hother rfl) _
  | restart executor => rfl

end Runtime

/-- A settlement row that is added has an identifier that no other has. -/
theorem Database.insertSettlementRow_fresh {db next : Database} {row : SettlementRow}
    (hnew : db.settlement row.idempotencyKey row.positionId row.resolutionId = none)
    (h : db.insertSettlementRow row = .ok next) : ∀ other ∈ db.settlements, other.id ≠ row.id := by
  obtain ⟨⟨⟩, -, h⟩ := Checks.bind_eq_ok.mp h
  simp only [hnew] at h
  obtain ⟨⟨⟩, hfresh, -⟩ := Checks.bind_eq_ok.mp h
  rw [Checks.raiseFirst_cons_eq_ok] at hfresh
  simpa using hfresh.1

/-- A settlement that is recorded has an identifier that no other has. -/
theorem Database.persistSettlementRecord_id {vocabulary : List String} {digests : Digests}
    {db next : Database} {record : SettlementRecord} {agentId resolutionId : String}
    {key : PositionKey} {before after : ContractPortfolio} {persisted : PersistenceResult}
    (h : db.persistSettlementRecord vocabulary digests record agentId key resolutionId before
      after = .ok (next, persisted)) :
    (persisted.created = false ∧ next = db ∧
      ∃ existing, db.settlement record.ledgerEntry.idempotencyKey (agentId, key) resolutionId =
        some existing ∧ existing.id = persisted.recordId) ∨
    (persisted.created = true ∧ (∀ row ∈ db.settlements, row.id ≠ persisted.recordId) ∧
      ∃ row ∈ next.settlements, row.id = persisted.recordId) := by
  obtain ⟨-, -, ⟨hcreated, hunchanged, -⟩ | ⟨hcreated, hrecords⟩⟩ := persistSettlementRecord_spec h
  · obtain ⟨-, h⟩ := Checks.ite_error_eq_ok.mp h
    split at h
    next existing hexisting =>
      obtain ⟨-, h⟩ := Checks.ite_error_eq_ok.mp h
      cases h
      exact Or.inl ⟨hcreated, hunchanged, existing, hexisting, rfl⟩
    next =>
      obtain ⟨written, -, h⟩ := Checks.bind_eq_ok.mp h
      cases h
      cases hcreated
  · obtain ⟨-, h⟩ := Checks.ite_error_eq_ok.mp h
    rw [hrecords.unrecorded] at h
    obtain ⟨written, hwritten, h⟩ := Checks.bind_eq_ok.mp h
    cases h
    refine Or.inr ⟨rfl, ?_, settlementRow digests record agentId key resolutionId, ?_, rfl⟩
    · obtain ⟨⟨⟩, -, hwritten⟩ := Checks.bind_eq_ok.mp hwritten
      obtain ⟨posted, hposted, hwritten⟩ := Checks.bind_eq_ok.mp hwritten
      obtain ⟨settled, hsettled, -⟩ := Checks.bind_eq_ok.mp hwritten
      obtain rfl := insertContractLedger_eq hposted
      exact insertSettlementRow_fresh hrecords.unrecorded hsettled
    · rw [hrecords.settlements]
      exact List.mem_append_right _ (List.mem_singleton_self _)

theorem Job.settledIds_of_finished {job : Job} {resolutionIds : List String}
    {settled : List PersistenceResult} (h : job.finished resolutionIds = some settled) :
    settled.map PersistenceResult.recordId = job.settledIds := by
  cases job with
  | idle =>
      obtain ⟨-, hsettled⟩ := Option.ite_none_right_eq_some.mp h
      rw [← Option.some.inj hsettled]
      rfl
  | settling pass =>
      obtain ⟨-, hsettled⟩ := Option.ite_none_right_eq_some.mp h
      rw [← Option.some.inj hsettled]
      rfl
  | reserved call reservation => cases h
  | loaded call reservedId portfolio => cases h
  | decided call reservedId portfolio decision => cases h

/-! ## Where a process stands -/

theorem Phase.held_of_not_waits {phase : Phase} (h : phase.waits = false) (first second : Job) :
    phase.held first = phase.held second := by
  cases phase with
  | invoking stage later fingerprint =>
      have hsettles : stage.settles = false := h
      simp only [held, hsettles, Bool.false_eq_true, if_false]
  | loading later => rfl
  | renewing stage later => rfl
  | beginning stage later now => rfl
  | completing later run result => rfl
  | failing error => rfl

theorem Phase.held_of_not_atSettlement {phase : Phase} (h : phase.atSettlement = false)
    (job : Job) : phase.held job = [] := by
  cases phase with
  | invoking stage later fingerprint =>
      have hsettles : stage.settles = false := h
      simp only [held, hsettles, Bool.false_eq_true, if_false]
  | completing later run result =>
      have hsettles : run.stage.settles = false := h
      simp only [held, hsettles, Bool.false_eq_true, if_false]
  | loading later => rfl
  | renewing stage later => rfl
  | beginning stage later now => rfl
  | failing error => rfl

theorem Phase.atSettlement_of_waits {phase : Phase} (h : phase.waits = true) :
    phase.atSettlement = true := by
  cases phase with
  | invoking stage later fingerprint => exact h
  | completing later run result => cases h
  | loading later => cases h
  | renewing stage later => cases h
  | beginning stage later now => cases h
  | failing error => cases h

/-- Reports that complete no settlement stage. -/
def CompletesNone (reports : List CycleReport) : Prop :=
  ∀ report ∈ reports, report.settlements = none

theorem CompletesNone.any {reports : List CycleReport} (h : CompletesNone reports) :
    (reports.any fun report => report.settlements.isSome) = false := by
  apply List.any_eq_false.mpr
  intro report hmem
  rw [h report hmem]
  simp

theorem CompletesNone.reported {reports : List CycleReport} (h : CompletesNone reports) :
    reportedSettlements reports = [] := by
  apply List.flatMap_eq_nil_iff.mpr
  intro report hmem
  rw [h report hmem]
  rfl

theorem completesNone_nil : CompletesNone [] := by
  intro report hmem
  cases hmem

theorem completesNone_singleton {report : CycleReport} (h : report.settlements = none) :
    CompletesNone [report] := by
  intro other hmem
  obtain rfl := List.mem_singleton.mp hmem
  exact h

/-- What an event of the cycle makes of its process: it stays where it is, comes to a stage
that settles, completes one, or is elsewhere. -/
inductive CycleMove (before : Option Process) (after : Option Process)
    (reports : List CycleReport) : Prop
  | same (process : after = before) (quiet : CompletesNone reports)
  | arrives {process : Process} (away : (before.any fun process => process.phase.atSettlement) = false)
      (process_eq : after = some process) (waits : process.phase.waits = true)
      (quiet : CompletesNone reports)
  | completes {process : Process} {later : List CycleStage} {run : StageRun}
      {result : StageResult run.stage} {completedAt : Instant} (before_eq : before = some process)
      (phase : process.phase = .completing later run result) (settles : run.stage.settles = true)
      (away : (after.any fun process => process.phase.atSettlement) = false)
      (reports_eq : reports = [.completed run result.payload completedAt])
  | elsewhere (away : (after.any fun process => process.phase.atSettlement) = false)
      (quiet : CompletesNone reports)

section

variable {fromisoformat : String → Option Datetime} {sha256 : Json → Sha256} {leaseDuration : ℤ}
  {tables : CycleTables} {process : Process} {outside : Outside}

theorem Process.follow_atSettlement {raised : Option Raised} {phase : Phase}
    (h : phase.atSettlement = false) :
    (process.follow raised phase).phase.atSettlement = false := by
  cases raised with
  | none => exact h
  | some error => rfl

theorem Process.complete_atSettlement {later : List CycleStage} {stage : CycleStage}
    {payload : JsonObject} {completed : Instant} {raised : Option Raised} :
    (process.complete fromisoformat later stage payload completed raised).phase.atSettlement =
      false := by
  unfold complete
  split
  · rfl
  · split
    · rfl
    · rfl

/-- A process that does not wait for a port that settles. -/
theorem Process.advance_moves (h : process.phase.waits = false) :
    CycleMove (some process) (process.advance fromisoformat sha256 leaseDuration tables outside).2.1
      (process.advance fromisoformat sha256 leaseDuration tables outside).2.2 := by
  obtain ⟨claim, outputs, phase⟩ := process
  have hfailing (error : Raised) : CycleMove (some (Process.mk claim outputs phase))
      (some (Process.failing ⟨claim, outputs, phase⟩ error)) [] :=
    .elsewhere rfl completesNone_nil
  cases phase with
  | loading stages =>
      cases stages with
      | nil =>
          unfold advance
          dsimp only
          split
          · exact hfailing _
          · exact .elsewhere rfl (completesNone_singleton rfl)
          · exact .elsewhere rfl (completesNone_singleton rfl)
      | cons stage later =>
          unfold advance
          dsimp only
          split
          · exact hfailing _
          · split
            · exact hfailing _
            · exact .elsewhere rfl completesNone_nil
            · exact .elsewhere rfl (completesNone_singleton rfl)
  | renewing stage later =>
      unfold advance
      dsimp only
      split
      · exact hfailing _
      · exact .elsewhere (follow_atSettlement rfl) completesNone_nil
  | beginning stage later now =>
      unfold advance
      dsimp only
      split
      · exact hfailing _
      next after raised _ =>
        cases raised with
        | some error => exact hfailing error
        | none =>
            cases hsettles : stage.settles with
            | true => exact .arrives rfl rfl hsettles completesNone_nil
            | false => exact .elsewhere hsettles completesNone_nil
  | invoking stage later fingerprint =>
      have hsettles : stage.settles = false := h
      unfold advance
      dsimp only
      split
      · exact hfailing _
      · split
        · exact hfailing _
        · split
          · exact .elsewhere rfl (completesNone_singleton rfl)
          · exact .elsewhere hsettles (completesNone_singleton rfl)
  | completing later run result =>
      unfold advance
      dsimp only
      split
      · exact hfailing _
      next after raised _ =>
        cases hsettles : run.stage.settles with
        | true => exact .completes rfl rfl hsettles complete_atSettlement rfl
        | false =>
            refine .elsewhere (@complete_atSettlement fromisoformat _ later _ _ _ raised) ?_
            apply completesNone_singleton
            simp only [CycleReport.settlements, hsettles, Bool.false_eq_true, if_false]
  | failing error =>
      unfold advance
      dsimp only
      split
      · exact .elsewhere rfl completesNone_nil
      · exact .elsewhere rfl completesNone_nil

/-- A process that waits for a port that settles fails, or has its answer. -/
theorem Process.advance_waiting {stage : CycleStage} {later : List CycleStage}
    {fingerprint : Sha256} (hphase : process.phase = .invoking stage later fingerprint) :
    (∃ error reports, CompletesNone reports ∧
      process.advance fromisoformat sha256 leaseDuration tables outside =
        (tables, some (process.failing error), reports)) ∨
    ∃ run reports, ∃ result : StageResult run.stage, CompletesNone reports ∧
      run.stage = stage ∧ outside.ports run.stage = .ok result ∧
      process.advance fromisoformat sha256 leaseDuration tables outside =
        (tables, some { process with phase := .completing later run result }, reports) := by
  unfold advance
  rw [hphase]
  dsimp only
  cases outside.before with
  | some error => exact Or.inl ⟨error, [], completesNone_nil, rfl⟩
  | none =>
      dsimp only
      cases stageInputs process.outputs stage with
      | error error => exact Or.inl ⟨error, [], completesNone_nil, rfl⟩
      | ok inputs =>
          dsimp only
          cases hport : outside.ports stage with
          | error error => exact Or.inl ⟨error, _, completesNone_singleton rfl, rfl⟩
          | ok result =>
              exact Or.inr ⟨⟨stage, process.outputs, inputs, fingerprint⟩, _, result,
                completesNone_singleton rfl, rfl, hport, rfl⟩

end

/-- An event of a cycle whose process does not wait for a port that settles, or that is no
step of its process. -/
theorem CycleState.step_moves {ids : RandomIds} {fromisoformat : String → Option Datetime}
    {sha256 : Json → Sha256} {leaseDuration : ℤ} {cycleId : String} {state : CycleState}
    {event : CycleEvent}
    (h : event.advances = false ∨ ∀ process ∈ state.process, process.phase.waits = false) :
    CycleMove state.process (state.step ids fromisoformat sha256 leaseDuration cycleId event).1.process
      (state.step ids fromisoformat sha256 leaseDuration cycleId event).2 := by
  unfold step
  cases event with
  | call request =>
      dsimp only
      split
      · exact .same rfl completesNone_nil
      · split
        · exact .same rfl completesNone_nil
        · split
          · exact .same rfl completesNone_nil
          · exact .elsewhere rfl completesNone_nil
  | publish now cutoff =>
      dsimp only
      split
      · exact .same rfl completesNone_nil
      next process hprocess =>
        split
        · exact .same rfl completesNone_nil
        · exact .same hprocess.symm completesNone_nil
  | advance outside =>
      rcases h with hadvances | hwaits
      · cases hadvances
      · dsimp only
        cases hprocess : state.process with
        | none => exact .same hprocess completesNone_nil
        | some process => exact Process.advance_moves (hwaits process hprocess)
  | crash => exact .elsewhere rfl completesNone_nil

namespace CycleRuntime

variable {cycle : CycleRuntime} {state : SettlingCycle} {event : SettlingEvent} {process : Process}

theorem waiting_eq_some_iff : waiting state = some process ↔
    state.cycle.process = some process ∧ process.phase.waits = true := by
  rw [waiting, Option.filter_eq_some_iff]

theorem held_of_not_atSettlement (h : atSettlement state = false) : cycle.held state = [] := by
  unfold held
  split
  · rfl
  next process hprocess =>
    rw [atSettlement, hprocess, Option.any_some] at h
    exact Phase.held_of_not_atSettlement h _

theorem held_of_waiting (h : waiting state = some process) :
    cycle.held state = (state.workers.jobs cycle.own).settledIds ∧ atSettlement state = true := by
  obtain ⟨hprocess, hwaits⟩ := waiting_eq_some_iff.mp h
  rw [held, atSettlement, hprocess]
  dsimp only
  refine ⟨?_, Phase.atSettlement_of_waits hwaits⟩
  cases hphase : process.phase with
  | invoking stage later fingerprint =>
      rw [hphase] at hwaits
      exact if_pos hwaits
  | loading later => rw [hphase] at hwaits; cases hwaits
  | renewing stage later => rw [hphase] at hwaits; cases hwaits
  | beginning stage later now => rw [hphase] at hwaits; cases hwaits
  | completing later run result => rw [hphase] at hwaits; cases hwaits
  | failing error => rw [hphase] at hwaits; cases hwaits

/-- The worker of the ports settles while a process waits for it, and else has nothing to do. -/
structure Serving (cycle : CycleRuntime) (state : SettlingCycle) : Prop where
  kept : state.workers.Kept cycle.runtime.digests fun _ => True
  job : state.workers.jobs cycle.own = .idle ∨
    ∃ pass, state.workers.jobs cycle.own = .settling pass
  idle : waiting state = none → state.workers.jobs cycle.own = .idle

/-- What a step makes of the settlements that are held and reported. -/
inductive Effect (cycle : CycleRuntime) (state : SettlingCycle) (event : SettlingEvent)
    (reached : SettlingCycle × List CycleReport) : Prop
  | stays (booked : reached.1.booked = state.booked)
      (held : cycle.held reached.1 = cycle.held state)
      (stage : cycle.held state = [] ∨ atSettlement reached.1 = true)
      (quiet : CompletesNone reached.2)
  | books {id : String} (fresh : ∀ row ∈ state.workers.db.settlements, row.id ≠ id)
      (recorded : ∃ row ∈ reached.1.workers.db.settlements, row.id = id)
      (booked : reached.1.booked = state.booked ++ [id])
      (held : cycle.held reached.1 = cycle.held state ++ [id])
      (stage : atSettlement reached.1 = true) (quiet : CompletesNone reached.2)
  | finds {id : String} (known : ∃ row ∈ reached.1.workers.db.settlements, row.id = id)
      (again : id ∈ state.booked → cycle.findsAgain state event = true)
      (booked : reached.1.booked = state.booked)
      (held : cycle.held reached.1 = cycle.held state ++ [id])
      (stage : atSettlement reached.1 = true) (quiet : CompletesNone reached.2)
  | completes (booked : reached.1.booked = state.booked) (held : cycle.held reached.1 = [])
      (reported : reportedSettlements reached.2 = cycle.held state)
      (complete : (reached.2.any fun report => report.settlements.isSome) = true)
  | leaves (booked : reached.1.booked = state.booked) (stage : atSettlement reached.1 = false)
      (quiet : CompletesNone reached.2)

/-- What every step does. -/
structure Stepped (cycle : CycleRuntime) (state : SettlingCycle) (event : SettlingEvent)
    (reached : SettlingCycle × List CycleReport) : Prop where
  serving : cycle.Serving reached.1
  settlements : ∀ row ∈ state.workers.db.settlements, row ∈ reached.1.workers.db.settlements
  effect : cycle.Effect state event reached

theorem held_or_atSettlement : cycle.held state = [] ∨ atSettlement state = true := by
  cases hstage : atSettlement state with
  | true => exact Or.inr rfl
  | false => exact Or.inl (held_of_not_atSettlement hstage)

theorem Serving.nothing (h : cycle.Serving state) : cycle.Stepped state event (state, []) where
  serving := h
  settlements _ hmem := hmem
  effect := .stays rfl rfl held_or_atSettlement completesNone_nil

/-- A port that the process waits for raises, or answers with what its pass has settled. -/
theorem Serving.conclude (hwaiting : waiting state = some process) {workers : Workers}
    (hkept : workers.Kept cycle.runtime.digests fun _ => True)
    (hsettlements : ∀ row ∈ state.workers.db.settlements, row ∈ workers.db.settlements)
    {outside : Outside}
    (hanswers : ∀ stage (result : StageResult stage), outside.ports stage = .ok result →
      settlementIds result.payload = (state.workers.jobs cycle.own).settledIds) :
    cycle.Stepped state event (cycle.conclude { state with workers := workers } outside) := by
  obtain ⟨hprocess, hwaits⟩ := waiting_eq_some_iff.mp hwaiting
  have hidle : (workers.done cycle.own).jobs cycle.own = .idle :=
    Function.update_self _ _ _
  unfold CycleRuntime.conclude cycleStep CycleState.step
  dsimp only
  rw [hprocess]
  dsimp only
  cases hphase : process.phase with
  | invoking stage later fingerprint =>
      have hsettles : stage.settles = true := by
        rw [hphase] at hwaits
        exact hwaits
      rcases @Process.advance_waiting cycle.fromisoformat cycle.sha256 cycle.leaseDuration
          state.cycle.tables process outside stage later fingerprint hphase with
        ⟨error, reports, hquiet, hadvance⟩ | ⟨run, reports, result, hquiet, hstage, hport, hadvance⟩
      · rw [hadvance]
        exact ⟨⟨hkept.done, Or.inl hidle, fun _ => hidle⟩, hsettlements, .leaves rfl rfl hquiet⟩
      · rw [hadvance]
        have hrun : run.stage.settles = true := by rw [hstage]; exact hsettles
        refine ⟨⟨hkept.done, Or.inl hidle, fun _ => hidle⟩, hsettlements,
          .stays rfl ?_ (Or.inr hrun) hquiet⟩
        rw [(held_of_waiting hwaiting).1, ← hanswers run.stage result hport]
        exact if_pos hrun
  | loading later => rw [hphase] at hwaits; cases hwaits
  | renewing stage later => rw [hphase] at hwaits; cases hwaits
  | beginning stage later now => rw [hphase] at hwaits; cases hwaits
  | completing later run result => rw [hphase] at hwaits; cases hwaits
  | failing error => rw [hphase] at hwaits; cases hwaits

/-- A port raises. -/
theorem Serving.raises (hwaiting : waiting state = some process) {workers : Workers}
    (hkept : workers.Kept cycle.runtime.digests fun _ => True)
    (hsettlements : ∀ row ∈ state.workers.db.settlements, row ∈ workers.db.settlements)
    (clock : Datetime) (error : Raised) :
    cycle.Stepped state event
      (cycle.conclude { state with workers := workers } (.raising clock error)) := by
  apply Serving.conclude hwaiting hkept hsettlements
  intro stage result hresult
  cases hresult

/-- A pass goes on and books nothing. -/
theorem Serving.proceeds (hwaiting : waiting state = some process) {workers : Workers}
    (hkept : workers.Kept cycle.runtime.digests fun _ => True)
    (hsettlements : ∀ row ∈ state.workers.db.settlements, row ∈ workers.db.settlements)
    (hjob : workers.jobs cycle.own = .idle ∨ ∃ pass, workers.jobs cycle.own = .settling pass)
    (hids : (workers.jobs cycle.own).settledIds = (state.workers.jobs cycle.own).settledIds) :
    cycle.Stepped state event
      ({ state with
        workers := workers
        booked := state.booked ++ WorkerEvent.proceeded.bookedIds }, []) := by
  have hwaiting' : waiting { state with
      workers := workers
      booked := state.booked ++ WorkerEvent.proceeded.bookedIds } = some process := hwaiting
  obtain ⟨hheld, hstage⟩ := @held_of_waiting cycle _ _ hwaiting'
  refine ⟨⟨hkept, hjob, fun hnone => ?_⟩, hsettlements,
    .stays (List.append_nil _) ?_ (Or.inr hstage) completesNone_nil⟩
  · rw [hwaiting'] at hnone
    cases hnone
  · rw [hheld, (held_of_waiting hwaiting).1]
    exact hids

/-- What other workers do, and the passes of the ports, keep the invariant of the workers. -/
theorem Serving.runtime_step (h : cycle.Serving state) (action : WorkerAction) :
    ((cycle.runtime.step state.workers action).1.Kept cycle.runtime.digests fun _ => True) ∧
      ∀ row ∈ state.workers.db.settlements,
        row ∈ (cycle.runtime.step state.workers action).1.db.settlements :=
  ⟨(Runtime.step_kept h.kept trivial action).kept,
    (Runtime.step_kept h.kept trivial action).transition.settlements⟩

theorem Serving.opens (h : cycle.Serving state) (hwaiting : waiting state = some process)
    (clock : Datetime) (agentId : String) (resolutionIds : List String) (cutoff : Datetime) :
    cycle.Stepped state event
      (cycle.perform state clock (.openPass cycle.own agentId resolutionIds cutoff)) := by
  obtain ⟨hkept, hsettlements⟩ :=
    h.runtime_step (.openPass cycle.own agentId resolutionIds cutoff)
  unfold perform
  revert hkept hsettlements
  unfold Runtime.step Runtime.openPass
  rcases h.job with hidle | ⟨pass, hjob⟩
  · simp only [hidle]
    intro hkept hsettlements
    apply Serving.proceeds hwaiting hkept hsettlements
    · exact Or.inr ⟨_, Runtime.jobs_withJob_self _⟩
    · rw [Runtime.jobs_withJob_self, hidle]
      rfl
  · simp only [hjob]
    intro hkept hsettlements
    exact Serving.proceeds hwaiting hkept hsettlements h.job rfl

theorem Serving.loads (h : cycle.Serving state) (hwaiting : waiting state = some process)
    (clock : Datetime) :
    cycle.Stepped state event (cycle.perform state clock (.load cycle.own clock)) := by
  obtain ⟨hkept, hsettlements⟩ := h.runtime_step (.load cycle.own clock)
  unfold perform
  revert hkept hsettlements
  unfold Runtime.step Runtime.load
  rcases h.job with hidle | ⟨pass, hjob⟩
  · simp only [hidle]
    intro hkept hsettlements
    exact Serving.proceeds hwaiting hkept hsettlements h.job rfl
  · simp only [hjob]
    cases hportfolio : pass.portfolio with
    | some portfolio =>
        intro hkept hsettlements
        exact Serving.proceeds hwaiting hkept hsettlements h.job rfl
    | none =>
        cases hload : state.workers.db.loadContractPortfolio pass.agentId with
        | error error =>
            intro hkept hsettlements
            exact Serving.raises hwaiting hkept hsettlements clock error
        | ok portfolio =>
            intro hkept hsettlements
            apply Serving.proceeds hwaiting hkept hsettlements
            · exact Or.inr ⟨_, Runtime.jobs_withJob_self _⟩
            · rw [Runtime.jobs_withJob_self, hjob]
              rfl

theorem Serving.settles (h : cycle.Serving state) (hwaiting : waiting state = some process)
    (clock : Datetime) (hunfinished : (state.workers.jobs cycle.own).finished [] = none) :
    cycle.Stepped state (.settle clock)
      (cycle.perform state clock (.settle cycle.own clock)) := by
  obtain ⟨hkept, hsettlements⟩ := h.runtime_step (.settle cycle.own clock)
  unfold perform
  revert hkept hsettlements
  unfold Runtime.step Runtime.settle
  rcases h.job with hidle | ⟨pass, hjob⟩
  · rw [hidle] at hunfinished
    cases hunfinished
  simp only [hjob]
  cases hportfolio : pass.portfolio with
  | none =>
      intro hkept hsettlements
      exact Serving.proceeds hwaiting hkept hsettlements h.job rfl
  | some portfolio =>
  cases hrows : pass.rows with
  | nil =>
      rw [hjob, Job.finished, if_pos ⟨by rw [hportfolio]; rfl, hrows⟩] at hunfinished
      cases hunfinished
  | cons row rest =>
  dsimp only
  cases hbook : pass.book portfolio row clock with
  | error error =>
      intro hkept hsettlements
      exact Serving.raises hwaiting hkept hsettlements clock error
  | ok booked =>
  obtain ⟨engine, after, record⟩ := booked
  dsimp only
  cases hpersist : state.workers.db.persistSettlementRecord cycle.runtime.vocabulary
      cycle.runtime.digests record pass.agentId row.key row.observation.id portfolio after with
  | error error =>
      intro hkept hsettlements
      exact Serving.raises hwaiting hkept hsettlements clock error
  | ok written =>
  obtain ⟨db, persisted⟩ := written
  intro hkept hsettlements
  dsimp only at hkept hsettlements ⊢
  generalize hpass : ({ pass with
    rows := rest
    portfolio := some after
    engine := engine
    settled := pass.settled ++ [persisted] } : SettlementPass) = next at hkept hsettlements ⊢
  have hsettled : next.settled = pass.settled ++ [persisted] := by rw [← hpass]
  generalize hreached : ({ state with
    workers := { state.workers with db := db }.withJob cycle.own (.settling next)
    booked := state.booked ++ (WorkerEvent.settled record persisted).bookedIds } :
      SettlingCycle) = reached
  have hworkers : reached.workers =
      { state.workers with db := db }.withJob cycle.own (.settling next) := by rw [← hreached]
  have hnext : reached.workers.jobs cycle.own = .settling next := by
    rw [hworkers]
    exact Runtime.jobs_withJob_self _
  have hwaiting' : waiting reached = some process := by
    rw [← hreached]
    exact hwaiting
  obtain ⟨hheld, hstage⟩ := @held_of_waiting cycle _ _ hwaiting'
  have hheld' : cycle.held reached = cycle.held state ++ [persisted.recordId] := by
    rw [hheld, (held_of_waiting hwaiting).1, hnext, hjob, Job.settledIds, Job.settledIds, hsettled,
      List.map_append, List.map_singleton]
  have hdb : reached.workers.db = db := by rw [hworkers]; rfl
  constructor
  case serving =>
    rw [← hworkers] at hkept
    refine ⟨hkept, Or.inr ⟨next, hnext⟩, fun hnone => ?_⟩
    rw [hwaiting'] at hnone
    cases hnone
  case settlements =>
    rw [hworkers]
    exact hsettlements
  case effect =>
    rcases Database.persistSettlementRecord_id hpersist with
      ⟨hcreated, rfl, existing, hexisting, hid⟩ | ⟨hcreated, hfresh, hrecorded⟩
    · apply Effect.finds _ _ _ hheld' hstage completesNone_nil
      · rw [hdb]
        exact ⟨existing, List.mem_of_find?_eq_some hexisting, hid⟩
      · intro hmem
        simp only [findsAgain, hjob, hportfolio, hrows, hbook, hexisting, Option.any_some, hid]
        exact decide_eq_true hmem
      · rw [← hreached, WorkerEvent.bookedIds, hcreated]
        exact List.append_nil _
    · apply Effect.books hfresh _ _ hheld' hstage completesNone_nil
      · rw [hdb]
        exact hrecorded
      · rw [← hreached, WorkerEvent.bookedIds, hcreated]
        rfl

theorem waiting_of_not_atSettlement (h : atSettlement state = false) : waiting state = none := by
  cases hwaiting : waiting state with
  | none => rfl
  | some process =>
      obtain ⟨hprocess, hwaits⟩ := waiting_eq_some_iff.mp hwaiting
      rw [atSettlement, hprocess, Option.any_some, Phase.atSettlement_of_waits hwaits] at h
      cases h

/-- The cycle goes on elsewhere than at a port that settles. -/
theorem Serving.moves (h : cycle.Serving state) {reached : CycleState}
    {reports : List CycleReport}
    (hmove : CycleMove state.cycle.process reached.process reports) :
    cycle.Stepped state event
      (if (waiting { state with cycle := reached }).isSome then
        ({ state with cycle := reached }, reports)
      else (⟨reached, state.workers.done cycle.own, state.booked⟩, reports)) := by
  have hidle : (state.workers.done cycle.own).jobs cycle.own = .idle := Function.update_self _ _ _
  split
  next hwaiting =>
    obtain ⟨process, hwaiting⟩ := Option.isSome_iff_exists.mp hwaiting
    obtain ⟨hheld, hstage⟩ := @held_of_waiting cycle _ _ hwaiting
    refine ⟨⟨h.kept, h.job, fun hnone => ?_⟩, fun _ hmem => hmem, ?_⟩
    · rw [hwaiting] at hnone
      cases hnone
    cases hmove with
    | same hprocess hquiet =>
        refine .stays rfl ?_ (Or.inr hstage) hquiet
        unfold held
        dsimp only
        rw [hprocess]
    | arrives haway hprocess hwaits hquiet =>
        have hjob := h.idle (@waiting_of_not_atSettlement state haway)
        refine .stays rfl ?_ (Or.inr hstage) hquiet
        rw [hheld, held_of_not_atSettlement haway]
        dsimp only
        rw [hjob]
        rfl
    | completes _ _ _ haway _ =>
        rw [atSettlement, haway] at hstage
        cases hstage
    | elsewhere haway _ =>
        rw [atSettlement, haway] at hstage
        cases hstage
  next hwaiting =>
    have hnone : waiting { state with cycle := reached } = none :=
      Option.not_isSome_iff_eq_none.mp hwaiting
    refine ⟨⟨h.kept.done, Or.inl hidle, fun _ => hidle⟩, fun _ hmem => hmem, ?_⟩
    cases hmove with
    | same hprocess hquiet =>
        have hheld : cycle.held ⟨reached, state.workers.done cycle.own, state.booked⟩ =
            cycle.held state := by
          unfold held
          dsimp only
          rw [hprocess]
          cases hbefore : state.cycle.process with
          | none => rfl
          | some process =>
              apply Phase.held_of_not_waits
              cases hwaits : process.phase.waits with
              | false => rfl
              | true =>
                  have hsome : waiting { state with cycle := reached } = some process :=
                    waiting_eq_some_iff.mpr ⟨hprocess.trans hbefore, hwaits⟩
                  exact absurd (hnone.symm.trans hsome) (by simp)
        have hor := @held_or_atSettlement cycle state
        refine .stays rfl hheld ?_ hquiet
        rw [atSettlement, hprocess]
        exact hor
    | @arrives process _ hprocess hwaits _ =>
        have hsome : waiting { state with cycle := reached } = some process :=
          waiting_eq_some_iff.mpr ⟨hprocess, hwaits⟩
        exact absurd (hnone.symm.trans hsome) (by simp)
    | @completes process later run result completedAt hbefore hphase hsettles haway hreports =>
        have hsettlements : (CycleReport.completed run result.payload completedAt).settlements =
            some (settlementIds result.payload) := if_pos hsettles
        refine .completes rfl (held_of_not_atSettlement haway) ?_ ?_
        · rw [hreports, reportedSettlements, List.flatMap_singleton, hsettlements, held, hbefore]
          dsimp only
          rw [hphase]
          exact (if_pos hsettles).symm
        · rw [hreports, List.any_cons, hsettlements]
          rfl
    | elsewhere haway hquiet => exact .leaves rfl haway hquiet

/-- What each step does. -/
theorem Serving.step (h : cycle.Serving state) (event : SettlingEvent) :
    cycle.Stepped state event (cycle.step state event) := by
  have hraises {process : Process} (hwaiting : waiting state = some process) (clock : Datetime)
      (error : Raised) : cycle.Stepped state event
        (cycle.conclude state (.raising clock error)) :=
    Serving.raises hwaiting h.kept (fun _ hmem => hmem) clock error
  unfold CycleRuntime.step
  cases event with
  | cycle event =>
      dsimp only
      split
      · exact h.nothing
      next hgoes =>
        apply h.moves
        apply CycleState.step_moves
        cases hadvances : event.advances with
        | false => exact Or.inl rfl
        | true =>
            right
            intro process hprocess
            cases hwaits : process.phase.waits with
            | false => rfl
            | true =>
                have hsome := waiting_eq_some_iff.mpr ⟨hprocess, hwaits⟩
                exact absurd ⟨by rw [hsome]; rfl, hadvances⟩ hgoes
  | work action =>
      dsimp only
      split
      · exact h.nothing
      next hother =>
        obtain ⟨hkept, hsettlements⟩ := h.runtime_step action
        have hjob := @Runtime.step_jobs_of_ne cycle.runtime state.workers cycle.own action hother
        refine ⟨⟨hkept, by rw [hjob]; exact h.job, fun hnone => ?_⟩, hsettlements,
          .stays rfl ?_ held_or_atSettlement completesNone_nil⟩
        · rw [hjob]
          exact h.idle hnone
        · unfold held
          rw [hjob]
  | lookUp clock =>
      dsimp only
      split
      · exact h.nothing
      next process hwaiting =>
        unfold CycleRuntime.lookUp
        split
        · exact hraises hwaiting clock _
        · exact h.nothing
        · exact h.opens hwaiting clock _ _ _
  | load clock =>
      dsimp only
      split
      · exact h.nothing
      next process hwaiting => exact h.loads hwaiting clock
  | settle clock =>
      dsimp only
      split
      · exact h.nothing
      next process hwaiting =>
        split
        · exact h.nothing
        next hunfinished =>
          exact h.settles hwaiting clock (Option.not_isSome_iff_eq_none.mp hunfinished)
  | fail clock error =>
      dsimp only
      split
      · exact h.nothing
      next process hwaiting => exact hraises hwaiting clock error
  | answer outside =>
      dsimp only
      split
      · exact h.nothing
      next process hwaiting =>
        unfold CycleRuntime.answer
        split
        · exact hraises hwaiting outside.now _
        · split
          · exact h.nothing
          next settled hfinished =>
            apply Serving.conclude hwaiting h.kept (fun _ hmem => hmem)
            intro stage result hresult
            obtain ⟨answered, -, rfl⟩ := Checks.map_eq_ok.mp hresult
            rw [settlementIds_naming]
            exact Job.settledIds_of_finished hfinished

/-! ## Accounts -/

/-- What holds all along: what is named is recorded, and nothing that is booked is named
twice. -/
structure Accounted (cycle : CycleRuntime) (reports : List CycleReport) (state : SettlingCycle) :
    Prop where
  serving : cycle.Serving state
  booked : ∀ id ∈ state.booked, ∃ row ∈ state.workers.db.settlements, row.id = id
  named : ∀ id ∈ reportedSettlements reports ++ cycle.held state,
    ∃ row ∈ state.workers.db.settlements, row.id = id
  once : ∀ id ∈ state.booked, (reportedSettlements reports ++ cycle.held state).count id ≤ 1

/-- Every settlement that is booked is reported, or held at a stage, once. -/
def Accounts (cycle : CycleRuntime) (reports : List CycleReport) (state : SettlingCycle) : Prop :=
  ∀ id ∈ state.booked, (reportedSettlements reports ++ cycle.held state).count id = 1

theorem reportedSettlements_append (first second : List CycleReport) :
    reportedSettlements (first ++ second) =
      reportedSettlements first ++ reportedSettlements second :=
  List.flatMap_append

/-- A step that finds nothing booked again keeps the accounts exactly when it abandons
nothing. -/
theorem Accounted.step {reports : List CycleReport} (h : cycle.Accounted reports state)
    (hfresh : cycle.findsAgain state event = false) :
    cycle.Accounted (reports ++ (cycle.step state event).2) (cycle.step state event).1 ∧
      (cycle.Accounts (reports ++ (cycle.step state event).2) (cycle.step state event).1 ↔
        cycle.Accounts reports state ∧ cycle.abandons state event = false) := by
  obtain ⟨hserving, hsettlements, heffect⟩ := h.serving.step event
  have hbooked (id : String) (hmem : id ∈ state.booked) :
      ∃ row ∈ (cycle.step state event).1.workers.db.settlements, row.id = id := by
    obtain ⟨row, hrow, hid⟩ := h.booked id hmem
    exact ⟨row, hsettlements row hrow, hid⟩
  have hnamed (id : String) (hmem : id ∈ reportedSettlements reports ++ cycle.held state) :
      ∃ row ∈ (cycle.step state event).1.workers.db.settlements, row.id = id := by
    obtain ⟨row, hrow, hid⟩ := h.named id hmem
    exact ⟨row, hsettlements row hrow, hid⟩
  -- A step that neither books nor abandons, and names the same settlements but for one that
  -- the cycle has not booked.
  have hkeep (hsame : (cycle.step state event).1.booked = state.booked)
      (hkeeps : cycle.abandons state event = false)
      (hlist : ∀ id, id ∈ reportedSettlements (reports ++ (cycle.step state event).2) ++
          cycle.held (cycle.step state event).1 →
        id ∈ reportedSettlements reports ++ cycle.held state ∨
          ∃ row ∈ (cycle.step state event).1.workers.db.settlements, row.id = id)
      (hcount : ∀ id ∈ state.booked,
        (reportedSettlements (reports ++ (cycle.step state event).2) ++
          cycle.held (cycle.step state event).1).count id =
        (reportedSettlements reports ++ cycle.held state).count id) :
      cycle.Accounted (reports ++ (cycle.step state event).2) (cycle.step state event).1 ∧
        (cycle.Accounts (reports ++ (cycle.step state event).2) (cycle.step state event).1 ↔
          cycle.Accounts reports state ∧ cycle.abandons state event = false) := by
    refine ⟨⟨hserving, ?_, ?_, ?_⟩, ?_⟩
    · rw [hsame]
      exact hbooked
    · intro id hmem
      exact (hlist id hmem).elim (hnamed id) fun hrow => hrow
    · rw [hsame]
      intro id hmem
      rw [hcount id hmem]
      exact h.once id hmem
    · rw [and_iff_left hkeeps, Accounts, Accounts, hsame]
      exact forall₂_congr fun id hmem => by rw [hcount id hmem]
  cases heffect with
  | stays hsame hheld hstage hquiet =>
      have hequal : reportedSettlements (reports ++ (cycle.step state event).2) ++
          cycle.held (cycle.step state event).1 =
            reportedSettlements reports ++ cycle.held state := by
        rw [reportedSettlements_append, hquiet.reported, List.append_nil, hheld]
      apply hkeep hsame
      · unfold abandons
        rcases hstage with hnone | hstage
        · simp [hnone]
        · simp [hstage]
      · intro id hmem
        rw [hequal] at hmem
        exact Or.inl hmem
      · intro id _
        rw [hequal]
  | @finds id hknown hagain hsame hheld hstage hquiet =>
      have hequal : reportedSettlements (reports ++ (cycle.step state event).2) ++
          cycle.held (cycle.step state event).1 =
            reportedSettlements reports ++ cycle.held state ++ [id] := by
        rw [reportedSettlements_append, hquiet.reported, List.append_nil, hheld, List.append_assoc]
      apply hkeep hsame
      · simp [abandons, hstage]
      · intro other hmem
        rw [hequal, List.mem_append, List.mem_singleton] at hmem
        rcases hmem with hmem | rfl
        · exact Or.inl hmem
        · exact Or.inr hknown
      · intro other hmem
        have hne : id ≠ other := by
          rintro rfl
          rw [hagain hmem] at hfresh
          cases hfresh
        rw [hequal, List.count_append, List.count_singleton, beq_false_of_ne hne]
        rfl
  | completes hsame hheld hreported hcomplete =>
      have hequal : reportedSettlements (reports ++ (cycle.step state event).2) ++
          cycle.held (cycle.step state event).1 =
            reportedSettlements reports ++ cycle.held state := by
        rw [reportedSettlements_append, hreported, hheld, List.append_nil]
      apply hkeep hsame
      · simp [abandons, hcomplete]
      · intro id hmem
        rw [hequal] at hmem
        exact Or.inl hmem
      · intro id _
        rw [hequal]
  | @books id hnew hrecorded hmore hheld hstage hquiet =>
      have hequal : reportedSettlements (reports ++ (cycle.step state event).2) ++
          cycle.held (cycle.step state event).1 =
            reportedSettlements reports ++ cycle.held state ++ [id] := by
        rw [reportedSettlements_append, hquiet.reported, List.append_nil, hheld, List.append_assoc]
      have hkeeps : cycle.abandons state event = false := by simp [abandons, hstage]
      have hnot : id ∉ reportedSettlements reports ++ cycle.held state := by
        intro hmem
        obtain ⟨row, hrow, hid⟩ := h.named id hmem
        exact hnew row hrow hid
      have hself : (reportedSettlements reports ++ cycle.held state ++ [id]).count id = 1 := by
        rw [List.count_append, List.count_eq_zero.mpr hnot, List.count_singleton_self]
      have hother (other : String) (hmem : other ∈ state.booked) :
          (reportedSettlements reports ++ cycle.held state ++ [id]).count other =
            (reportedSettlements reports ++ cycle.held state).count other := by
        have hne : id ≠ other := by
          rintro rfl
          obtain ⟨row, hrow, hid⟩ := h.booked id hmem
          exact hnew row hrow hid
        rw [List.count_append, List.count_singleton, beq_false_of_ne hne]
        rfl
      refine ⟨⟨hserving, ?_, ?_, ?_⟩, ?_⟩
      · rw [hmore]
        intro other hmem
        rcases List.mem_append.mp hmem with hold | hlast
        · exact hbooked other hold
        · obtain rfl := List.mem_singleton.mp hlast
          exact hrecorded
      · rw [hequal]
        intro other hmem
        rcases List.mem_append.mp hmem with hold | hlast
        · exact hnamed other hold
        · obtain rfl := List.mem_singleton.mp hlast
          exact hrecorded
      · rw [hmore, hequal]
        intro other hmem
        rcases List.mem_append.mp hmem with hold | hlast
        · rw [hother other hold]
          exact h.once other hold
        · obtain rfl := List.mem_singleton.mp hlast
          exact hself.le
      · rw [and_iff_left hkeeps, Accounts, Accounts, hmore, hequal]
        constructor
        · intro haccounts other hmem
          rw [← hother other hmem]
          exact haccounts other (List.mem_append_left _ hmem)
        · intro haccounts other hmem
          rcases List.mem_append.mp hmem with hold | hlast
          · rw [hother other hold]
            exact haccounts other hold
          · obtain rfl := List.mem_singleton.mp hlast
            exact hself
  | leaves hsame hstage hquiet =>
      have hequal : reportedSettlements (reports ++ (cycle.step state event).2) ++
          cycle.held (cycle.step state event).1 = reportedSettlements reports := by
        rw [reportedSettlements_append, hquiet.reported, List.append_nil,
          held_of_not_atSettlement hstage, List.append_nil]
      have habandons : cycle.abandons state event = false ↔
          ∀ id ∈ state.booked, (cycle.held state).count id = 0 := by
        simp only [abandons, hstage, hquiet.any, Bool.not_false, Bool.and_true, List.any_eq_false,
          decide_eq_true_eq, List.count_eq_zero]
        exact ⟨fun hnone id hmem hheld => hnone id hheld hmem,
          fun hnone id hheld hmem => hnone id hmem hheld⟩
      have hsum (id : String) : (reportedSettlements reports ++ cycle.held state).count id =
          (reportedSettlements reports).count id + (cycle.held state).count id :=
        List.count_append
      refine ⟨⟨hserving, ?_, ?_, ?_⟩, ?_⟩
      · rw [hsame]
        exact hbooked
      · rw [hequal]
        intro id hmem
        exact hnamed id (List.mem_append_left _ hmem)
      · rw [hsame, hequal]
        intro id hmem
        have honce := h.once id hmem
        rw [hsum] at honce
        omega
      · rw [Accounts, Accounts, hsame, hequal, habandons, ← forall₂_and]
        apply forall₂_congr
        intro id hmem
        have honce := h.once id hmem
        rw [hsum] at honce ⊢
        omega

/-- Before anything happens there is nothing to account for. -/
theorem Accounted.start (hworkers : state.workers.AtRest) (hprocess : state.cycle.process = none)
    (hbooked : state.booked = []) : cycle.Accounted [] state ∧ cycle.Accounts [] state := by
  have hheld : cycle.held state = [] := by rw [held, hprocess]
  refine ⟨⟨⟨hworkers.kept, Or.inl (hworkers.jobs _), fun _ => hworkers.jobs _⟩, ?_, ?_, ?_⟩, ?_⟩
  · rw [hbooked]
    intro id hmem
    cases hmem
  · rw [hheld]
    intro id hmem
    cases hmem
  · rw [hbooked]
    intro id hmem
    cases hmem
  · rw [Accounts, hbooked]
    intro id hmem
    cases hmem

/-- Over a run that finds nothing booked again, the accounts are kept exactly when nothing is
abandoned. -/
theorem accounts_run {start : SettlingCycle} (hworkers : start.workers.AtRest)
    (hprocess : start.cycle.process = none) (hbooked : start.booked = [])
    (events : List SettlingEvent)
    (hfresh : Runs.Along cycle.step (fun state event => cycle.findsAgain state event = false)
      start events) :
    cycle.Accounted (cycle.reports start events) (Runs.final cycle.step start events) ∧
      (cycle.Accounts (cycle.reports start events) (Runs.final cycle.step start events) ↔
        Runs.Along cycle.step (fun state event => cycle.abandons state event = false) start
          events) := by
  induction events using List.reverseRecOn with
  | nil =>
      obtain ⟨haccounted, haccounts⟩ := @Accounted.start cycle start hworkers hprocess hbooked
      exact ⟨haccounted, iff_of_true haccounts trivial⟩
  | append_singleton events event ih =>
      obtain ⟨hbefore, hlast, -⟩ := (Runs.along_append _ _ _ _).mp hfresh
      obtain ⟨haccounted, haccounts⟩ := ih hbefore
      have hreports : cycle.reports start (events ++ [event]) = cycle.reports start events ++
          (cycle.step (Runs.final cycle.step start events) event).2 := by
        rw [reports, Runs.trace_concat, List.flatMap_append, List.flatMap_singleton, reports]
      obtain ⟨hnext, hkeeps⟩ := haccounted.step hlast
      rw [hreports, Runs.final_concat, Runs.along_append, Runs.Along, Runs.Along, and_true]
      refine ⟨hnext, hkeeps.trans ?_⟩
      rw [haccounts]

end CycleRuntime

namespace Sample

/-- A cycle whose freeze names an observation that an earlier purchase wins by. -/
def settlingCycle : CycleRuntime where
  runtime := runtime
  ids := randomIds
  fromisoformat _ := none
  sha256 _ := digest
  parseUuid
    | .text id => some id
    | .null | .bool _ | .int _ | .float _ | .array _ | .object _ => none
  leaseDuration := 1000
  cycleId := randomIds.hex 1
  own := 1

def settlingStart : SettlingCycle := ⟨.unscheduled hourly, workers, []⟩

def goesOn (steps : ℕ) (now : Datetime) : List SettlingEvent :=
  List.replicate steps (.cycle (.advance
    (outside now [("resolution_ids", .array [.text "resolution"])])))

/-- The purchase, the observation, the claim and the freeze; then the first stage that settles
is begun. -/
def beforeSettlement : List SettlingEvent :=
  (observedPurchase.take 5).map .work ++
    .cycle (.call (.claimDue scheduling leaseTerms moment)) :: goesOn 8 moment

/-- The port finds nothing more, the stage is completed, and so are the later ones. -/
def afterSettlement (now : Datetime) : List SettlingEvent :=
  .answer (outside now []) :: goesOn 19 now ++
    .lookUp now :: .load now :: .answer (outside now []) :: goesOn 2 now

/-- The worker stops when it has settled the position. -/
def crashedSettlement : List SettlingEvent :=
  beforeSettlement ++ [.lookUp moment, .load moment, .settle moment, .cycle .crash,
      .cycle (.call (.recoverExpired scheduling leaseTerms none nextHour))] ++
    goesOn 4 nextHour ++ .lookUp nextHour :: .load nextHour :: afterSettlement nextHour

/-- Nothing stops the worker. -/
def settledInOneGo : List SettlingEvent :=
  beforeSettlement ++ [.lookUp moment, .load moment, .settle moment] ++ afterSettlement moment

end Sample

namespace Sample

end Sample

end VTrade
