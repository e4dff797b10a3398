/-
# One run for all generations

However many generations work on a cycle, its harness has one run: the first that is persisted
stays, and every answer of the port names it, whether it has been executed or recovered.  So
does the checkpoint of the stage, and the summary of a cycle that has finished.
-/

import VTrade.HarnessExecutions

namespace VTrade

/-! ## What holds of the answers -/

section

variable (holds : JsonObject → Prop)

/-- The output of the harness that a process knows, and the answer that it completes the stage
with. -/
structure Process.Answered (process : Process) : Prop where
  complete : ∀ stages ∈ process.phase.pending,
    process.outputs.map Prod.fst ++ stages = stageOrder
  outputs : ∀ payload, (.harness, payload) ∈ process.outputs → holds payload
  result : ∀ later run (result : StageResult run.stage),
    process.phase = .completing later run result → run.stage = .harness → holds result.payload

/-- The checkpoint of the harness, when it is completed. -/
def CycleTables.HarnessCompleted (tables : CycleTables) (cycleId : String) : Prop :=
  ∀ row, tables.completedRow cycleId .harness = some row →
    ∃ checkpoint, row.output = some checkpoint ∧ holds checkpoint.payload

/-- The summary of a cycle that has finished. -/
def FinishedWith (report : CycleReport) : Prop :=
  ∀ summary, report = .finished summary →
    ∃ payload, Json.get summary "harness" = some (.object payload) ∧ holds payload

/-- What a step of a process leads to. -/
structure AnsweredNext (cycleId : String) (after : CycleTables) (next : Option Process)
    (reports : List CycleReport) : Prop where
  completed : after.HarnessCompleted holds cycleId
  process : ∀ later ∈ next, later.Answered holds
  finished : ∀ report ∈ reports, FinishedWith holds report

end

section

variable {holds : JsonObject → Prop} {tables : CycleTables} {cycleId : String}

theorem CycleTables.HarnessCompleted.of_completed {after : CycleTables}
    (h : tables.HarnessCompleted holds cycleId)
    (hsame : after.completedRow cycleId = tables.completedRow cycleId) :
    after.HarnessCompleted holds cycleId := by
  intro row hrow
  rw [hsame] at hrow
  exact h row hrow

theorem Process.Answered.start (claim : CycleClaim) : (Process.start claim).Answered holds where
  complete stages hmem := by
    obtain rfl := Option.some.inj hmem
    rfl
  outputs _ hmem := by cases hmem
  result _ _ _ hphase := by cases hphase

theorem Process.Answered.failing {process : Process} (h : process.Answered holds) (error : Raised) :
    (process.failing error).Answered holds where
  complete _ hmem := by cases hmem
  outputs := h.outputs
  result _ _ _ hphase := by cases hphase

/-- The process goes on with the same outputs. -/
theorem Process.Answered.proceed {process : Process} (h : process.Answered holds) {phase : Phase}
    (hpending : phase.pending = process.phase.pending)
    (hphase : ∀ later run (result : StageResult run.stage), phase ≠ .completing later run result) :
    ({ process with phase := phase } : Process).Answered holds where
  complete := by
    dsimp only
    rw [hpending]
    exact h.complete
  outputs := h.outputs
  result later run result heq := absurd heq (hphase later run result)

theorem Process.Answered.follow {process : Process} (h : process.Answered holds)
    {raised : Option Raised} {phase : Phase} (hpending : phase.pending = process.phase.pending)
    (hphase : ∀ later run (result : StageResult run.stage), phase ≠ .completing later run result) :
    (process.follow raised phase).Answered holds := by
  cases raised with
  | some error => exact h.failing error
  | none => exact h.proceed hpending hphase

theorem AnsweredNext.failing {process : Process} {error : Raised}
    (hcompleted : tables.HarnessCompleted holds cycleId) (h : process.Answered holds)
    {reports : List CycleReport} (hreports : ∀ report ∈ reports, FinishedWith holds report) :
    AnsweredNext holds cycleId tables (some (process.failing error)) reports where
  completed := hcompleted
  process := by
    rintro _ ⟨⟩
    exact h.failing error
  finished := hreports

theorem finishedWith_nil : ∀ report ∈ ([] : List CycleReport), FinishedWith holds report :=
  fun _ hmem => by cases hmem

theorem CycleStage.value_injective : Function.Injective CycleStage.value := by
  intro first second
  cases first <;> cases second <;> decide

/-- The summary of a cycle has the output of every stage. -/
theorem get_cycleSummary {outputs : StageOutputs} {stage : CycleStage}
    (h : stage ∈ outputs.map Prod.fst) :
    ∃ payload, (stage, payload) ∈ outputs ∧
      Json.get (cycleSummary outputs) stage.value = some (.object payload) := by
  induction outputs with
  | nil => cases h
  | cons output outputs ih =>
      obtain ⟨first, payload⟩ := output
      unfold Json.get cycleSummary
      rw [List.map_cons, List.lookup_cons]
      by_cases hstage : stage = first
      · subst hstage
        rw [beq_self_eq_true]
        exact ⟨payload, List.mem_cons_self, rfl⟩
      · have hvalue : (stage.value == first.value) = false := by
          simpa using fun hsame => hstage (CycleStage.value_injective hsame)
        rw [hvalue]
        rw [List.map_cons, List.mem_cons] at h
        obtain ⟨payload', hmem, hget⟩ := ih (h.resolve_left hstage)
        exact ⟨payload', List.mem_cons_of_mem _ hmem, hget⟩

/-- What is read of a stage is the output of its checkpoint. -/
theorem payload_of_loadStage {stage : CycleStage} {result : StageResult stage}
    (h : tables.loadStage cycleId stage = .ok (some result)) :
    ∃ row checkpoint, tables.completedRow cycleId stage = some row ∧
      row.output = some checkpoint ∧ result.payload = checkpoint.payload := by
  unfold CycleTables.loadStage at h
  split at h
  · cases h
  next row hrow =>
    split at h
    · cases h
    next checkpoint houtput =>
      obtain ⟨restored, hrestored, heq⟩ := Checks.map_eq_ok.mp h
      cases heq
      unfold restoreStage at hrestored
      split at hrestored
      · cases hrestored
        exact ⟨row, checkpoint, hrow, houtput, rfl⟩
      · cases hrestored

variable {fromisoformat : String → Option Datetime} {sha256 : Json → Sha256} {leaseDuration : ℤ}

/-- What holds of the answers of the port, and of them as the checkpoint gives them back, holds
of what the process knows, of the checkpoint and of the summary. -/
theorem Process.Answered.advance {process : Process} {outside : Outside}
    (hjsonb : ∀ payload, holds payload → holds (Json.jsonbFields payload))
    (hcompleted : tables.HarnessCompleted holds cycleId) (h : process.Answered holds)
    (hcycle : process.claim.cycleId = cycleId)
    (hport : ∀ later fingerprint, process.phase = .invoking .harness later fingerprint →
      outside.before = none → ∀ inputs, stageInputs process.outputs .harness = .ok inputs →
      ∀ result, outside.ports .harness = .ok result → holds result.payload) :
    AnsweredNext holds cycleId
      (process.advance fromisoformat sha256 leaseDuration tables outside).1
      (process.advance fromisoformat sha256 leaseDuration tables outside).2.1
      (process.advance fromisoformat sha256 leaseDuration tables outside).2.2 := by
  obtain ⟨claim, outputs, phase⟩ := process
  dsimp only at hcycle
  subst hcycle
  unfold Process.advance
  dsimp only
  cases phase with
  | failing error =>
      dsimp only
      cases hdone : outside.transact (tables.failCycle claim outside.now outside.reason) with
      | error error => exact ⟨hcompleted, fun _ hmem => (by cases hmem), finishedWith_nil⟩
      | ok done =>
          have hsame := CycleTables.failCycle_evidence (Outside.transact_eq_ok hdone)
          exact ⟨hcompleted.of_completed hsame.completed, fun _ hmem => (by cases hmem),
            finishedWith_nil⟩
  | renewing stage later =>
      dsimp only
      cases hdone : outside.transact (tables.renewLease claim outside.now leaseDuration) with
      | error error => exact .failing hcompleted h finishedWith_nil
      | ok done =>
          have hsame := CycleTables.renewLease_evidence (Outside.transact_eq_ok hdone)
          refine ⟨hcompleted.of_completed hsame.completed, ?_, finishedWith_nil⟩
          rintro _ ⟨⟩
          exact h.follow rfl fun _ _ _ hphase => by cases hphase
  | beginning stage later now =>
      dsimp only
      cases hdone : outside.transact (tables.beginStage claim stage
          (fingerprintInputs sha256 claim.cycleId stage outputs) now) with
      | error error => exact .failing hcompleted h finishedWith_nil
      | ok done =>
          have hsame := CycleTables.beginStage_evidence (Outside.transact_eq_ok hdone)
          refine ⟨hcompleted.of_completed hsame.completed, ?_, finishedWith_nil⟩
          rintro _ ⟨⟩
          exact h.follow rfl fun _ _ _ hphase => by cases hphase
  | invoking stage later fingerprint =>
      have hinvoked (run : StageRun) : ∀ report ∈ [CycleReport.invoked run claim.dataCutoff],
          FinishedWith holds report := by
        intro report hmem summary hreport
        obtain rfl := List.mem_singleton.mp hmem
        cases hreport
      dsimp only
      cases hbefore : outside.before with
      | some error => exact .failing hcompleted h finishedWith_nil
      | none =>
          cases hinputs : stageInputs outputs stage with
          | error error => exact .failing hcompleted h finishedWith_nil
          | ok inputs =>
              dsimp only
              cases hanswer : outside.ports stage with
              | error error => exact .failing hcompleted h (hinvoked _)
              | ok result =>
                  refine ⟨hcompleted, ?_, hinvoked _⟩
                  rintro _ ⟨⟩
                  refine ⟨h.complete, h.outputs, ?_⟩
                  rintro _ _ _ ⟨⟩ hharness
                  dsimp only at hharness
                  subst hharness
                  exact hport later fingerprint rfl hbefore inputs hinputs result hanswer
  | completing later run result =>
      dsimp only
      cases hdone : outside.transact (tables.completeStage fromisoformat claim run.fingerprint
          result outside.now outside.registered) with
      | error error => exact .failing hcompleted h finishedWith_nil
      | ok done =>
          obtain ⟨after, raised⟩ := done
          have hcompletes := CycleTables.completeStage_evidence (Outside.transact_eq_ok hdone)
          have hafter : after.HarnessCompleted holds claim.cycleId := by
            intro row hrow
            by_cases hharness : run.stage = .harness
            · obtain ⟨stored, hstored, houtput⟩ := hcompletes.stored
              rw [hharness, hrow] at hstored
              obtain rfl := Option.some.inj hstored
              exact ⟨_, houtput, hjsonb _ (h.result later run result rfl hharness)⟩
            · rw [hcompletes.others _ (Ne.symm hharness)] at hrow
              exact hcompleted row hrow
          have hreport : ∀ report ∈ [CycleReport.completed run result.payload outside.now.instant],
              FinishedWith holds report := by
            intro report hmem summary hreport
            obtain rfl := List.mem_singleton.mp hmem
            cases hreport
          dsimp only
          unfold Process.complete
          cases raised with
          | some error => exact .failing hafter h hreport
          | none =>
              dsimp only
              cases claimAfter fromisoformat claim run.stage result.payload outside.now.instant with
              | error error => exact .failing hafter h hreport
              | ok next =>
                  refine ⟨hafter, ?_, hreport⟩
                  rintro _ ⟨⟩
                  refine ⟨?_, ?_, fun _ _ _ hphase => by cases hphase⟩
                  · rintro _ ⟨⟩
                    have hcomplete := h.complete _ rfl
                    rw [List.map_append, List.append_assoc]
                    exact hcomplete
                  · intro payload hmem
                    rcases List.mem_append.mp hmem with hmem | hmem
                    · exact h.outputs payload hmem
                    · have heq := Prod.mk.inj (List.mem_singleton.mp hmem)
                      rw [heq.2]
                      exact h.result later run result rfl heq.1.symm
  | loading stages =>
      cases stages with
      | nil =>
          have hfinished : ∀ report ∈ [CycleReport.finished (cycleSummary outputs)],
              FinishedWith holds report := by
            intro report hmem summary hreport
            obtain rfl := List.mem_singleton.mp hmem
            cases hreport
            have hcomplete := h.complete _ rfl
            rw [List.append_nil] at hcomplete
            dsimp only at hcomplete
            have hharness : CycleStage.harness ∈ outputs.map Prod.fst := by
              rw [hcomplete]
              decide
            obtain ⟨payload, hmem, hget⟩ := get_cycleSummary hharness
            exact ⟨payload, hget, h.outputs payload hmem⟩
          dsimp only
          cases hdone : outside.transact (tables.completeCycle claim outside.now
              (cycleSummary outputs)) with
          | error error => exact .failing hcompleted h finishedWith_nil
          | ok done =>
              obtain ⟨after, raised⟩ := done
              have hsame := CycleTables.completeCycle_evidence (Outside.transact_eq_ok hdone)
              have hafter := hcompleted.of_completed hsame.completed
              cases raised with
              | some error => exact .failing hafter h hfinished
              | none => exact ⟨hafter, fun _ hmem => (by cases hmem), hfinished⟩
      | cons stage later =>
          dsimp only
          cases outside.before with
          | some error => exact .failing hcompleted h finishedWith_nil
          | none =>
              dsimp only
              cases hload : tables.loadStage claim.cycleId stage with
              | error error => exact .failing hcompleted h finishedWith_nil
              | ok stored =>
                  cases stored with
                  | none =>
                      refine ⟨hcompleted, ?_, finishedWith_nil⟩
                      rintro _ ⟨⟩
                      exact h.proceed rfl fun _ _ _ hphase => by cases hphase
                  | some result =>
                      have hrestored : ∀ report ∈ [CycleReport.restored stage result.payload],
                          FinishedWith holds report := by
                        intro report hmem summary hreport
                        obtain rfl := List.mem_singleton.mp hmem
                        cases hreport
                      refine ⟨hcompleted, ?_, hrestored⟩
                      rintro _ ⟨⟩
                      refine ⟨?_, ?_, fun _ _ _ hphase => by cases hphase⟩
                      · rintro _ ⟨⟩
                        have hcomplete := h.complete _ rfl
                        rw [List.map_append, List.append_assoc]
                        exact hcomplete
                      · intro payload hmem
                        rcases List.mem_append.mp hmem with hmem | hmem
                        · exact h.outputs payload hmem
                        · have heq := Prod.mk.inj (List.mem_singleton.mp hmem)
                          obtain ⟨row, checkpoint, hrow, houtput, hpayload⟩ :=
                            payload_of_loadStage hload
                          rw [← heq.1] at hrow
                          obtain ⟨other, hother, hholds⟩ := hcompleted row hrow
                          rw [houtput] at hother
                          obtain rfl := Option.some.inj hother
                          rw [heq.2, hpayload]
                          exact hholds

end

/-! ## The run of the cycle -/

namespace HarnessTables

/-- The run of a cycle stays. -/
def KeepsRun (cycleId : String) (before after : HarnessTables) : Prop :=
  ∀ run, before.run? cycleId = some run → after.run? cycleId = some run

variable {tables : HarnessTables}

theorem runs_of_insertToolRecord {row : HarnessToolRow} {after : HarnessTables}
    (h : tables.insertToolRecord row = .ok after) : after.runs = tables.runs := by
  unfold insertToolRecord at h
  split at h
  · cases h
  · split at h
    · cases h
    · cases h
      rfl

theorem runs_of_insertUsage {cycleId : String} {telemetry : List ProviderTelemetry}
    {completedAt retainUntil : Instant} {artifacts : List ArtifactRegistration}
    {after : HarnessTables}
    (h : tables.insertUsage cycleId telemetry completedAt retainUntil artifacts = .ok after) :
    after.runs = tables.runs := by
  unfold insertUsage at h
  split at h
  · cases h
  · cases h
    rfl

/-- A run that is persisted is that of its cycle from then on, or was already. -/
theorem persistRun_keeps {agentCycleId transcriptUri : String} {result : HarnessResult}
    {transcriptSha256 : Sha256} {completedAt retainUntil : Instant}
    {artifacts : List ArtifactRegistration} {after : HarnessTables}
    (h : tables.persistRun agentCycleId result transcriptUri transcriptSha256 completedAt
      retainUntil artifacts = .ok after) :
    (∀ cycleId, tables.KeepsRun cycleId after) ∧
      ∃ run, after.run? agentCycleId = some run ∧ run.transcriptSha256 = transcriptSha256 := by
  obtain ⟨-, h⟩ := Checks.ite_error_eq_ok.mp h
  split at h
  next existing hexisting =>
    obtain ⟨hsame, h⟩ := Checks.ite_error_eq_ok.mp h
    cases h
    exact ⟨fun _ _ hrun => hrun, existing, hexisting, not_not.mp hsame⟩
  next hnone =>
    obtain ⟨recorded, hrecorded, h⟩ := Checks.bind_eq_ok.mp h
    have hruns : after.runs = tables.runs ++ [runRow agentCycleId result transcriptUri
        transcriptSha256 completedAt retainUntil] := by
      rw [runs_of_insertUsage h]
      refine Checks.foldlM_invariant (fun _ state => state.runs = tables.runs ++ _) []
        (fun seen state row next _ hruns hnext => ?_) hrecorded rfl
      rw [runs_of_insertToolRecord hnext]
      exact hruns
    have hfound (cycleId : String) : after.run? cycleId =
        (tables.run? cycleId).or (KeyedList.lookup HarnessRunRow.agentCycleId cycleId
          [runRow agentCycleId result transcriptUri transcriptSha256 completedAt retainUntil]) := by
      rw [run?, hruns, KeyedList.lookup_append, run?]
    refine ⟨fun cycleId run hrun => ?_, runRow agentCycleId result transcriptUri
      transcriptSha256 completedAt retainUntil, ?_, rfl⟩
    · rw [hfound, hrun, Option.some_or]
    · rw [hfound, hnone, Option.none_or]
      exact @KeyedList.lookup_cons_self _ _ _ HarnessRunRow.agentCycleId _ _

end HarnessTables

/-- A payload of the harness names a run: its identifier and the digest of its transcript. -/
def HarnessLibrary.Names (library : HarnessLibrary) (run : HarnessRunRow) (payload : JsonObject) :
    Prop :=
  Json.get payload "harness_run_id" = some (.text (library.runId run.agentCycleId)) ∧
    Json.get payload "transcript_sha256" = some (.text run.transcriptSha256.hex)

/-- A payload names the run of the cycle. -/
def HarnessLibrary.NamesRun (library : HarnessLibrary) (cycleId : String)
    (stored : HarnessTables) (payload : JsonObject) : Prop :=
  ∃ run, stored.run? cycleId = some run ∧ library.Names run payload

variable {library : HarnessLibrary} {cycleId : String}

theorem get_jsonbFields {fields : JsonObject} {key value : String}
    (h : Json.get fields key = some (.text value)) :
    Json.get (Json.jsonbFields fields) key = some (.text value) := by
  unfold Json.get at h ⊢
  induction fields with
  | nil => cases h
  | cons field rest ih =>
      obtain ⟨name, first⟩ := field
      rw [Json.jsonbFields, List.lookup_cons]
      rw [List.lookup_cons] at h
      split
      next hname =>
        rw [hname] at h
        obtain rfl := Option.some.inj h
        rfl
      next hname =>
        rw [hname] at h
        exact ih h

theorem HarnessLibrary.NamesRun.jsonb {stored : HarnessTables} {payload : JsonObject}
    (h : library.NamesRun cycleId stored payload) :
    library.NamesRun cycleId stored (Json.jsonbFields payload) := by
  obtain ⟨run, hrun, hid, hsha⟩ := h
  exact ⟨run, hrun, get_jsonbFields hid, get_jsonbFields hsha⟩

theorem HarnessLibrary.NamesRun.mono {stored after : HarnessTables} {payload : JsonObject}
    (h : library.NamesRun cycleId stored payload) (hkeeps : stored.KeepsRun cycleId after) :
    library.NamesRun cycleId after payload := by
  obtain ⟨run, hrun, hnames⟩ := h
  exact ⟨run, hkeeps run hrun, hnames⟩

/-- The port of a generation has answered with the run of the cycle, or is about to. -/
def HarnessPhase.Agrees (library : HarnessLibrary) (cycleId : String) (stored : HarnessTables) :
    HarnessPhase → Prop
  | .answered (.ok result) => library.NamesRun cycleId stored result.payload
  | .auditing result =>
      ∃ run, stored.run? cycleId = some run ∧ run.transcriptSha256 = library.transcriptSha256 result
  | _ => True

/-- What is reported names the run of the cycle. -/
def ReportAgrees (library : HarnessLibrary) (cycleId : String) (stored : HarnessTables) :
    ℕ × (HarnessReport ⊕ CycleReport) → Prop
  | (_, .inl (.answers result)) => library.NamesRun cycleId stored result.payload
  | (_, .inl _) => True
  | (_, .inr report) => FinishedWith (library.NamesRun cycleId stored) report

theorem FinishedWith.mono {holds holds' : JsonObject → Prop} {report : CycleReport}
    (h : FinishedWith holds report) (himp : ∀ payload, holds payload → holds' payload) :
    FinishedWith holds' report := by
  intro summary hreport
  obtain ⟨payload, hget, hholds⟩ := h summary hreport
  exact ⟨payload, hget, himp payload hholds⟩

theorem Process.Answered.mono {holds holds' : JsonObject → Prop} {process : Process}
    (h : process.Answered holds) (himp : ∀ payload, holds payload → holds' payload) :
    process.Answered holds' where
  complete := h.complete
  outputs payload hmem := himp payload (h.outputs payload hmem)
  result later run result hphase hharness := himp _ (h.result later run result hphase hharness)

theorem HarnessPhase.Agrees.mono {stored after : HarnessTables} {phase : HarnessPhase}
    (h : phase.Agrees library cycleId stored) (hkeeps : stored.KeepsRun cycleId after) :
    phase.Agrees library cycleId after := by
  cases phase with
  | answered answer =>
      cases answer with
      | error error => trivial
      | ok result => exact HarnessLibrary.NamesRun.mono h hkeeps
  | auditing result =>
      obtain ⟨run, hrun, hsha⟩ := h
      exact ⟨run, hkeeps run hrun, hsha⟩
  | _ => trivial

theorem ReportAgrees.mono {stored after : HarnessTables} {report : ℕ × (HarnessReport ⊕ CycleReport)}
    (h : ReportAgrees library cycleId stored report) (hkeeps : stored.KeepsRun cycleId after) :
    ReportAgrees library cycleId after report := by
  obtain ⟨index, report⟩ := report
  cases report with
  | inl report =>
      cases report with
      | answers result => exact HarnessLibrary.NamesRun.mono h hkeeps
      | _ => trivial
  | inr report => exact FinishedWith.mono h fun _ hnames => hnames.mono hkeeps

/-- A step of the port keeps the run of the cycle, and answers with it. -/
theorem port_agrees {cycles : CycleTables} {stored : HarnessTables} {claim : CycleClaim}
    {phase : HarnessPhase} (outside : HarnessOutside) (hcycle : claim.cycleId = cycleId)
    (h : phase.Agrees library cycleId stored) :
    stored.KeepsRun cycleId (library.step cycles stored claim phase outside).1 ∧
      (library.step cycles stored claim phase outside).2.1.Agrees library cycleId
        (library.step cycles stored claim phase outside).1 ∧
      ∀ report ∈ (library.step cycles stored claim phase outside).2.2,
        ∀ index, ReportAgrees library cycleId
          (library.step cycles stored claim phase outside).1 (index, .inl report) := by
  subst hcycle
  have hkept : stored.KeepsRun claim.cycleId stored := fun _ hrun => hrun
  have hfailed (error : Raised) :
      HarnessPhase.Agrees library claim.cycleId stored (.answered (.error error)) := trivial
  have hsilent : ∀ report ∈ (none : Option HarnessReport), ∀ index,
      ReportAgrees library claim.cycleId stored (index, .inl report) := fun _ hmem => by cases hmem
  unfold HarnessLibrary.step
  cases phase with
  | answered answer => exact ⟨hkept, h, hsilent⟩
  | executing =>
      dsimp only
      cases outside.move with
      | calls =>
          refine ⟨hkept, trivial, ?_⟩
          rintro _ ⟨⟩ _
          trivial
      | returns result => exact ⟨hkept, trivial, hsilent⟩
      | raises error => exact ⟨hkept, hfailed error, hsilent⟩
  | deciding =>
      cases outside.before with
      | some error => exact ⟨hkept, hfailed error, hsilent⟩
      | none =>
          dsimp only
          split
          · exact ⟨hkept, trivial, hsilent⟩
          · refine ⟨hkept, trivial, ?_⟩
            rintro _ ⟨⟩ _
            trivial
  | rehydrating =>
      cases outside.before with
      | some error => exact ⟨hkept, hfailed error, hsilent⟩
      | none =>
          dsimp only
          split
          next error _ => exact ⟨hkept, hfailed error, hsilent⟩
          next result hresult =>
            have hnames : library.NamesRun claim.cycleId stored result.payload := by
              unfold HarnessLibrary.recoverCompletedRun at hresult
              split at hresult
              · cases hresult
              next run hrun =>
                split at hresult
                · cases hresult
                  exact ⟨run, hrun, rfl, rfl⟩
                · cases hresult
            refine ⟨hkept, hnames, ?_⟩
            rintro _ ⟨⟩ _
            exact hnames
  | loading =>
      cases outside.before with
      | some error => exact ⟨hkept, hfailed error, hsilent⟩
      | none => exact ⟨hkept, trivial, hsilent⟩
  | storing result =>
      cases outside.before with
      | some error => exact ⟨hkept, hfailed error, hsilent⟩
      | none =>
          dsimp only
          cases hpersisted : library.persistResult stored claim.cycleId result outside with
          | error failure => exact ⟨hkept, hfailed _, hsilent⟩
          | ok after =>
              obtain ⟨hkeeps, hrun⟩ := HarnessTables.persistRun_keeps hpersisted
              dsimp only
              cases outside.after with
              | some error => exact ⟨hkeeps _, trivial, fun _ hmem => by cases hmem⟩
              | none => exact ⟨hkeeps _, hrun, fun _ hmem => by cases hmem⟩
  | auditing result =>
      cases outside.before with
      | some error => exact ⟨hkept, hfailed error, hsilent⟩
      | none =>
          obtain ⟨run, hrun, hsha⟩ := h
          have hcycle : run.agentCycleId = claim.cycleId := KeyedList.key_of_lookup_eq_some hrun
          have hnames : library.NamesRun claim.cycleId stored
              (library.executedResult claim.cycleId result outside.operationIds).payload :=
            ⟨run, hrun, by rw [hcycle]; rfl, by rw [hsha]; rfl⟩
          refine ⟨hkept, hnames, ?_⟩
          rintro _ ⟨⟩ _
          exact hnames

/-! ## All generations -/

/-- Everything that is known of the harness of the cycle names its run. -/
structure Agreeing (library : HarnessLibrary) (cycleId : String) (world : HarnessWorld)
    (reports : HarnessReports) : Prop where
  completed : world.cycles.HarnessCompleted (library.NamesRun cycleId world.stored) cycleId
  process : ∀ generation ∈ world.generations, ∀ process ∈ generation.process,
    process.Answered (library.NamesRun cycleId world.stored)
  port : ∀ generation ∈ world.generations, ∀ phase ∈ generation.port,
    phase.Agrees library cycleId world.stored
  reports : ∀ report ∈ reports, ReportAgrees library cycleId world.stored report

variable {world : HarnessWorld} {reports : HarnessReports}

theorem CycleTables.HarnessCompleted.mono {holds holds' : JsonObject → Prop} {tables : CycleTables}
    (h : tables.HarnessCompleted holds cycleId) (himp : ∀ payload, holds payload → holds' payload) :
    tables.HarnessCompleted holds' cycleId := by
  intro row hrow
  obtain ⟨checkpoint, houtput, hholds⟩ := h row hrow
  exact ⟨checkpoint, houtput, himp _ hholds⟩

/-- One generation goes on, and the run of the cycle stays. -/
theorem Agreeing.replace {after : CycleTables} {stored : HarnessTables} {index : ℕ}
    {next : Generation} {later : HarnessReports} (h : Agreeing library cycleId world reports)
    (hkeeps : world.stored.KeepsRun cycleId stored)
    (hcompleted : after.HarnessCompleted (library.NamesRun cycleId stored) cycleId)
    (hprocess : ∀ process ∈ next.process, process.Answered (library.NamesRun cycleId stored))
    (hport : ∀ phase ∈ next.port, phase.Agrees library cycleId stored)
    (hlater : ∀ report ∈ later, ReportAgrees library cycleId stored report) :
    Agreeing library cycleId ⟨after, stored, world.generations.set index next⟩
      (reports ++ later) where
  completed := hcompleted
  process generation hmem process hrunning := by
    rcases List.mem_or_eq_of_mem_set hmem with hmem | rfl
    · exact (h.process generation hmem process hrunning).mono fun _ hnames => hnames.mono hkeeps
    · exact hprocess process hrunning
  port generation hmem phase hphase := by
    rcases List.mem_or_eq_of_mem_set hmem with hmem | rfl
    · exact (h.port generation hmem phase hphase).mono hkeeps
    · exact hport phase hphase
  reports report hmem := by
    rcases List.mem_append.mp hmem with hmem | hmem
    · exact (h.reports report hmem).mono hkeeps
    · exact hlater report hmem

/-- The tables go on, and the run of the cycle stays. -/
theorem Agreeing.tables {after : CycleTables} {stored : HarnessTables}
    (h : Agreeing library cycleId world reports) (hkeeps : world.stored.KeepsRun cycleId stored)
    (hcompleted : after.completedRow cycleId .harness = world.cycles.completedRow cycleId .harness) :
    Agreeing library cycleId ⟨after, stored, world.generations⟩ reports where
  completed := by
    have hmono := h.completed.mono fun _ hnames => hnames.mono hkeeps
    intro row hrow
    rw [hcompleted] at hrow
    exact hmono row hrow
  process generation hmem process hrunning :=
    (h.process generation hmem process hrunning).mono fun _ hnames => hnames.mono hkeeps
  port generation hmem phase hphase := (h.port generation hmem phase hphase).mono hkeeps
  reports report hmem := (h.reports report hmem).mono hkeeps

variable {ids : RandomIds} {fromisoformat : String → Option Datetime} {sha256 : Json → Sha256}
  {leaseDuration : ℤ}

theorem Agreeing.moved {index : ℕ} {claim : CycleClaim} {process : Process}
    {port : Option HarnessPhase} {outside : Outside} (h : Agreeing library cycleId world reports)
    (hfound : world.generations[index]? = some ⟨claim, some process, port⟩)
    (hcycle : process.claim.cycleId = cycleId)
    (hport : ∀ later fingerprint, process.phase = .invoking .harness later fingerprint →
      outside.before = none → ∀ inputs, stageInputs process.outputs .harness = .ok inputs →
      ∀ result, outside.ports .harness = .ok result →
        library.NamesRun cycleId world.stored result.payload) :
    let advanced := process.advance fromisoformat sha256 leaseDuration world.cycles outside
    Agreeing library cycleId
      ⟨advanced.1, world.stored, world.generations.set index ⟨claim, advanced.2.1, none⟩⟩
      (reports ++ advanced.2.2.map fun report => (index, .inr report)) := by
  intro advanced
  have hmem : (⟨claim, some process, port⟩ : Generation) ∈ world.generations :=
    List.mem_of_getElem? hfound
  have hanswered := h.process _ hmem process rfl
  have hnext : AnsweredNext (library.NamesRun cycleId world.stored) cycleId advanced.1
      advanced.2.1 advanced.2.2 :=
    hanswered.advance (fun _ hnames => hnames.jsonb) h.completed hcycle hport
  refine h.replace (fun _ hrun => hrun) hnext.completed hnext.process
    (fun _ hmem => by cases hmem) fun report hreport => ?_
  obtain ⟨shown, hshown, rfl⟩ := List.mem_map.mp hreport
  exact hnext.finished shown hshown

theorem Agreeing.advance {index : ℕ} {outside : Outside} (h : Agreeing library cycleId world reports)
    (hsupervised : Supervised cycleId world reports) :
    Agreeing library cycleId (world.advance fromisoformat sha256 leaseDuration index outside).1
      (reports ++ (world.advance fromisoformat sha256 leaseDuration index outside).2) := by
  have hstay : Agreeing library cycleId world (reports ++ []) := by
    rw [List.append_nil]
    exact h
  unfold HarnessWorld.advance
  cases hrunning : world.running? index with
  | none => exact hstay
  | some found =>
      obtain ⟨claim, process, port⟩ := found
      have hfound := running?_eq_some hrunning
      have hcycle : process.claim.cycleId = cycleId :=
        ((hsupervised.sound index _ hfound).order process rfl).cycle
      have hmem : (⟨claim, some process, port⟩ : Generation) ∈ world.generations :=
        List.mem_of_getElem? hfound
      have hprocess := h.process _ hmem
      have hport := h.port _ hmem
      dsimp only at hport hprocess ⊢
      split
      next later fingerprint hphase =>
        split
        next =>
          refine h.replace (fun _ hrun => hrun) h.completed ?_ ?_ fun _ hmem => by cases hmem
          · exact hprocess
          · rintro _ ⟨⟩
            trivial
        next hnot =>
          refine h.moved hfound hcycle fun _ _ _ hbefore inputs hinputs => ?_
          exact absurd hinputs (hnot inputs hbefore)
      next later fingerprint answer hphase =>
        refine h.moved hfound hcycle fun _ _ _ _ _ _ result hresult => ?_
        dsimp only at hresult
        rw [Function.update_self] at hresult
        subst hresult
        exact hport _ rfl
      next => exact hstay
      next hnone _ hsome =>
        refine h.moved hfound hcycle fun later fingerprint hphase => ?_
        obtain ⟨phase, hwaits⟩ :=
          Option.ne_none_iff_exists'.mp fun hnot => hnone later fingerprint hphase hnot
        exact absurd hwaits (hsome later fingerprint phase hphase)

/-- Whatever happens, there is one run for all. -/
theorem Agreeing.step (h : Agreeing library cycleId world reports)
    (hsupervised : Supervised cycleId world reports) (event : HarnessEvent) :
    Agreeing library cycleId
      (world.step ids fromisoformat sha256 leaseDuration library cycleId event).1
      (reports ++ (world.step ids fromisoformat sha256 leaseDuration library cycleId event).2) := by
  have hstay : Agreeing library cycleId world (reports ++ []) := by
    rw [List.append_nil]
    exact h
  have hkept : world.stored.KeepsRun cycleId world.stored := fun _ hrun => hrun
  unfold HarnessWorld.step
  cases event with
  | call request =>
      dsimp only
      split
      next => exact hstay
      next hothers =>
        have hother : ∀ claim ∈ request.claim?, claim.cycleId ≠ cycleId := by
          intro claim hclaim hsame
          apply hothers
          rw [Option.mem_def.mp hclaim]
          exact decide_eq_true hsame
        split
        next => exact hstay
        next after claims hdone =>
          have hsame := (CycleTables.transact_spec hdone).sameEvidence hother
          have hnext := h.tables hkept (congrFun hsame.completed .harness)
          rw [List.append_nil]
          cases hlast : CycleTables.lastClaim cycleId claims with
          | none => exact hnext
          | some claim =>
              refine ⟨hnext.completed, fun generation hmem => ?_, fun generation hmem => ?_,
                hnext.reports⟩
              · rcases List.mem_append.mp hmem with hmem | hmem
                · exact hnext.process generation hmem
                · rw [List.mem_singleton.mp hmem]
                  rintro _ ⟨⟩
                  exact .start claim
              · rcases List.mem_append.mp hmem with hmem | hmem
                · exact hnext.port generation hmem
                · rw [List.mem_singleton.mp hmem]
                  exact fun _ hphase => by cases hphase
  | publish index now cutoff =>
      dsimp only
      split
      next => exact hstay
      next claim process port hrunning =>
        split
        next => exact hstay
        next after hdone =>
          have hfound := running?_eq_some hrunning
          have hcycle : process.claim.cycleId = cycleId :=
            ((hsupervised.sound index _ hfound).order process rfl).cycle
          have hsame := CycleTables.publishFreeze_evidence hdone
          rw [hcycle] at hsame
          rw [List.append_nil]
          exact h.tables hkept (congrFun hsame.completed .harness)
  | advance index outside => exact h.advance hsupervised
  | port index outside =>
      dsimp only
      split
      next claim process phase hrunning =>
        have hfound := running?_eq_some hrunning
        have hmem := List.mem_of_getElem? hfound
        have hcycle : process.claim.cycleId = cycleId :=
          ((hsupervised.sound index _ hfound).order process rfl).cycle
        obtain ⟨hkeeps, hagrees, hreports⟩ := @port_agrees library cycleId world.cycles
          world.stored process.claim phase outside hcycle (h.port _ hmem phase rfl)
        refine h.replace hkeeps (h.completed.mono fun _ hnames => hnames.mono hkeeps) ?_ ?_ ?_
        · rintro _ ⟨⟩
          exact (h.process _ hmem process rfl).mono fun _ hnames => hnames.mono hkeeps
        · rintro _ ⟨⟩
          exact hagrees
        · intro report hreport
          obtain ⟨shown, hshown, rfl⟩ := List.mem_map.mp hreport
          exact hreports shown (Option.mem_toList.mp hshown) index
      next => exact hstay
  | crash index =>
      dsimp only
      split
      next => exact hstay
      next generation hfound =>
        exact h.replace hkept h.completed (fun _ hmem => by cases hmem)
          (fun _ hmem => by cases hmem) fun _ hmem => by cases hmem
  | persistOther other result outside =>
      dsimp only
      split
      next => exact hstay
      next =>
        split
        next => exact hstay
        next after hdone =>
          rw [List.append_nil]
          exact h.tables ((HarnessTables.persistRun_keeps hdone).1 cycleId) rfl
  | retain inventory =>
      rw [List.append_nil]
      exact h.tables (fun _ hrun => hrun) rfl

theorem agreeing_unscheduled (schedules : ScheduleTable) (stored : HarnessTables) :
    Agreeing library cycleId (.unscheduled schedules stored) [] where
  completed _ hrow := by cases hrow
  process _ hmem := by cases hmem
  port _ hmem := by cases hmem
  reports _ hmem := by cases hmem

/-- However generations of a cycle crash, lose their leases and go on without them: the answers
of all ports name one run, the one that is persisted for the cycle, by its identifier and the
digest of its transcript; the completed checkpoint of the harness names it too; and a cycle that
has finished has it in its summary, so a cycle without a persisted run never finishes. -/
theorem harness_agreement (ids : RandomIds) (fromisoformat : String → Option Datetime)
    (sha256 : Json → Sha256) (leaseDuration : ℤ) (library : HarnessLibrary) (cycleId : String)
    (schedules : ScheduleTable) (stored : HarnessTables) (events : List HarnessEvent) :
    let world := Runs.final
      (HarnessWorld.step ids fromisoformat sha256 leaseDuration library cycleId)
      (.unscheduled schedules stored) events
    let reports := harnessReports ids fromisoformat sha256 leaseDuration library cycleId
      (.unscheduled schedules stored) events
    (∀ index result, (index, .inl (.answers result)) ∈ reports →
      library.NamesRun cycleId world.stored result.payload) ∧
    (∀ row, world.cycles.completedRow cycleId .harness = some row →
      ∃ checkpoint, row.output = some checkpoint ∧
        library.NamesRun cycleId world.stored checkpoint.payload) ∧
    (∀ index summary, (index, .inr (.finished summary)) ∈ reports →
      ∃ payload, Json.get summary "harness" = some (.object payload) ∧
        library.NamesRun cycleId world.stored payload) := by
  intro world reports
  have h : Supervised cycleId world reports ∧ Agreeing library cycleId world reports := by
    refine Runs.final_invariant
      (HarnessWorld.step ids fromisoformat sha256 leaseDuration library cycleId)
      (fun trace world => Supervised cycleId world (trace.flatMap fun answered => answered.2) ∧
        Agreeing library cycleId world (trace.flatMap fun answered => answered.2))
      ⟨supervised_unscheduled schedules stored, agreeing_unscheduled schedules stored⟩
      (fun seen world event hboth => ?_) events
    rw [List.flatMap_append, List.flatMap_singleton]
    exact ⟨hboth.1.step event, hboth.2.step hboth.1 event⟩
  refine ⟨fun index result hmem => h.2.reports _ hmem, h.2.completed, fun index summary hmem => ?_⟩
  exact h.2.reports _ hmem summary rfl

end VTrade
