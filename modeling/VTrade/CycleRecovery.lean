/-
# Recovered cycles

A generation that recovers a cycle takes the outputs of completed stages from their
checkpoints and runs the others.  Whatever interrupts the earlier generations, and wherever,
the stages are completed in their order and each once, and every stage is run as in a cycle
that nothing interrupts, as long as the checkpoints give back what they were given.  A
column of type `jsonb` does not do so for a floating point number that is a negative zero
or has no fraction and sixteen digits or more before the point.
-/

import VTrade.CycleEvidence
import VTrade.Orchestrator

namespace VTrade

/-! ## The uninterrupted cycle -/

section

variable (fromisoformat : String → Option Datetime) (sha256 : Json → Sha256) (cycleId : String)

/-- How a stage is run after these outputs, when nothing is interrupted. -/
def straightRun (prior : StageOutputs) (stage : CycleStage) : Except Raised StageRun := do
  let inputs ← stageInputs prior stage
  .ok ⟨stage, prior, inputs, fingerprintInputs sha256 cycleId stage prior⟩

/-- How the stages of a cycle are run that nothing interrupts and whose stages have these
outputs. -/
def uninterrupted : StageOutputs → StageOutputs → Except Raised (List StageRun)
  | _, [] => .ok []
  | prior, (stage, payload) :: later => do
      let run ← straightRun sha256 cycleId prior stage
      let runs ← uninterrupted (prior ++ [(stage, payload)]) later
      .ok (run :: runs)

/-- Equal outputs, but for the order of keys. -/
def SamePayload (first second : JsonObject) : Prop := (Json.object first).Same (.object second)

/-- The same run of a stage. -/
structure StageRun.Same (first second : StageRun) : Prop where
  stage : first.stage = second.stage
  prior : List.Forall₂ (fun output output' => output.1 = output'.1 ∧
    SamePayload output.2 output'.2) first.prior second.prior
  inputs : List.Forall₂ SamePayload first.inputs second.inputs
  fingerprint : first.fingerprint = second.fingerprint

theorem StageRun.Same.refl (run : StageRun) : run.Same run where
  stage := rfl
  prior := List.forall₂_same.mpr fun _ _ => ⟨rfl, .refl _⟩
  inputs := List.forall₂_same.mpr fun _ _ => .refl _
  fingerprint := rfl

/-- A stage that was completed. -/
structure Completion where
  run : StageRun
  payload : JsonObject
  completedAt : Instant

/-- The stages that were completed, in their order. -/
def completions (reports : List CycleReport) : List Completion :=
  reports.filterMap fun
    | .completed run payload completedAt => some ⟨run, payload, completedAt⟩
    | .restored _ _ | .invoked _ _ | .finished _ => none

/-- The outputs of the stages that were completed. -/
def outputsOf (reports : List CycleReport) : StageOutputs :=
  (completions reports).map fun done => (done.run.stage, done.payload)

/-- The cutoff that the freeze of the cycle fixed. -/
def CutoffOf (reports : List CycleReport) (cutoff : Instant) : Prop :=
  ∃ done ∈ completions reports, done.run.stage = .marketFreeze ∧
    CycleTables.marketFreezeCutoff fromisoformat done.payload done.completedAt = .ok cutoff

/-- What may happen to a cycle after what has happened.  An output that is restored is the
output that the stage was completed with.  A stage that is run was not completed before; it
is run as in a cycle that nothing interrupts, under the cutoff that the freeze fixed.  Stages
are completed in their order, and a cycle finishes with all of them. -/
def Expected (before : List CycleReport) : CycleReport → Prop
  | .restored stage payload =>
      stage ∈ (outputsOf before).map Prod.fst ∧
        ∀ done ∈ completions before, done.run.stage = stage → SamePayload payload done.payload
  | .invoked run dataCutoff =>
      run.stage ∉ (outputsOf before).map Prod.fst ∧
        (∃ straight, straightRun sha256 cycleId (outputsOf before) run.stage = .ok straight ∧
          run.Same straight) ∧
        ∀ cutoff, CutoffOf fromisoformat before cutoff → dataCutoff = some cutoff
  | .completed run _ _ =>
      (outputsOf before).map Prod.fst ++ [run.stage] <+: stageOrder ∧
        ∃ straight, straightRun sha256 cycleId (outputsOf before) run.stage = .ok straight ∧
          run.Same straight
  | .finished summary =>
      (outputsOf before).map Prod.fst = stageOrder ∧
        SamePayload summary (cycleSummary (outputsOf before))

/-- A cycle was run as one that nothing interrupts and whose stages have the same outputs. -/
structure Resumed (reports : List CycleReport) (tables : CycleTables) : Prop where
  each : Runs.Each (Expected fromisoformat sha256 cycleId) reports
  runs : ∃ straight, uninterrupted sha256 cycleId [] (outputsOf reports) = .ok straight ∧
    List.Forall₂ StageRun.Same ((completions reports).map Completion.run) straight
  cutoff : ∀ done ∈ completions reports, done.run.stage = .marketFreeze →
    ∃ cutoff, CycleTables.marketFreezeCutoff fromisoformat done.payload done.completedAt =
      .ok cutoff ∧ ∃ row, tables.cycleRow cycleId = some row ∧ row.dataCutoff = some cutoff

/-- An output is restored only if it has no number that the column writes as another one. -/
def RestoresKept (before : List CycleReport) : CycleReport → Prop
  | .restored stage _ => ∀ done ∈ completions before, done.run.stage = stage →
      ∀ number ∈ (Json.object done.payload).floats, ¬ Json.Respelled number
  | .invoked _ _ | .completed _ _ _ | .finished _ => True

instance RestoresKept.decidable (before : List CycleReport) :
    (report : CycleReport) → Decidable (RestoresKept before report)
  | .restored stage _ => inferInstanceAs (Decidable (∀ done ∈ completions before,
      done.run.stage = stage → ∀ number ∈ (Json.object done.payload).floats,
        ¬ Json.Respelled number))
  | .invoked _ _ | .completed _ _ _ | .finished _ => isTrue trivial

/-! ## Checkpoints hold what was completed -/

theorem completions_append (reports later : List CycleReport) :
    completions (reports ++ later) = completions reports ++ completions later :=
  List.filterMap_append

theorem outputsOf_append (reports later : List CycleReport) :
    outputsOf (reports ++ later) = outputsOf reports ++ outputsOf later := by
  rw [outputsOf, completions_append, List.map_append, outputsOf, outputsOf]

/-- Nothing was completed. -/
def Quiet (reports : List CycleReport) : Prop := completions reports = []

theorem completions_append_quiet {reports later : List CycleReport} (h : Quiet later) :
    completions (reports ++ later) = completions reports := by
  rw [completions_append, h, List.append_nil]

theorem outputsOf_append_quiet {reports later : List CycleReport} (h : Quiet later) :
    outputsOf (reports ++ later) = outputsOf reports := by
  rw [outputsOf, completions_append_quiet h, outputsOf]

/-- The checkpoints are those of the stages that were completed, and the row of the cycle has
the cutoff that the freeze fixed. -/
structure Checkpointed (reports : List CycleReport) (tables : CycleTables) : Prop where
  incomplete : ∀ stage, stage ∉ (outputsOf reports).map Prod.fst →
    tables.completedRow cycleId stage = none
  stored : ∀ done ∈ completions reports, ∃ row, ∃ result : StageResult done.run.stage,
    tables.completedRow cycleId done.run.stage = some row ∧
      row.output = some (stageCheckpoint result) ∧ result.payload = done.payload
  cutoff : ∀ done ∈ completions reports, done.run.stage = .marketFreeze →
    ∃ cutoff, CycleTables.marketFreezeCutoff fromisoformat done.payload done.completedAt =
      .ok cutoff ∧ ∃ row, tables.cycleRow cycleId = some row ∧ row.dataCutoff = some cutoff

variable {fromisoformat sha256 cycleId} {reports : List CycleReport} {tables : CycleTables}

theorem mem_stages_iff {stage : CycleStage} :
    stage ∈ (outputsOf reports).map Prod.fst ↔
      ∃ done ∈ completions reports, done.run.stage = stage := by
  simp [outputsOf]

/-- What leaves the evidence of a cycle leaves its checkpoints. -/
theorem Checkpointed.keeps {after : CycleTables} {later : List CycleReport}
    (h : Checkpointed fromisoformat cycleId reports tables)
    (hkeeps : tables.KeepsEvidence cycleId after) (hquiet : Quiet later) :
    Checkpointed fromisoformat cycleId (reports ++ later) after := by
  constructor
  case incomplete =>
    intro stage hstage
    rw [outputsOf_append_quiet hquiet] at hstage
    rw [hkeeps.completed]
    exact h.incomplete stage hstage
  case stored =>
    intro done hdone
    rw [completions_append_quiet hquiet] at hdone
    rw [hkeeps.completed]
    exact h.stored done hdone
  case cutoff =>
    intro done hdone hfreeze
    rw [completions_append_quiet hquiet] at hdone
    obtain ⟨cutoff, hcutoff, row, hrow, hfixed⟩ := h.cutoff done hdone hfreeze
    exact ⟨cutoff, hcutoff, hkeeps.cutoff row cutoff hrow hfixed⟩

/-- A stage that completes was not completed before. -/
theorem Checkpointed.not_mem {stage : CycleStage}
    (h : Checkpointed fromisoformat cycleId reports tables)
    (hincomplete : tables.completedRow cycleId stage = none) :
    stage ∉ (outputsOf reports).map Prod.fst := by
  intro hmem
  obtain ⟨done, hdone, rfl⟩ := mem_stages_iff.mp hmem
  obtain ⟨row, result, hrow, -, -⟩ := h.stored done hdone
  rw [hrow] at hincomplete
  cases hincomplete

/-- Completing a stage adds its checkpoint. -/
theorem Checkpointed.complete {after : CycleTables} {run : StageRun}
    {result : StageResult run.stage} {now : Instant}
    (h : Checkpointed fromisoformat cycleId reports tables)
    (hcompletes : CycleTables.Completes fromisoformat cycleId result now tables after) :
    Checkpointed fromisoformat cycleId
      (reports ++ [.completed run result.payload now]) after := by
  have hnew := h.not_mem hcompletes.incomplete
  have hother {done : Completion} (hdone : done ∈ completions reports) :
      done.run.stage ≠ run.stage := fun hsame => hnew (mem_stages_iff.mpr ⟨done, hdone, hsame⟩)
  constructor
  case incomplete =>
    intro stage hstage
    rw [outputsOf_append, List.map_append, List.mem_append, not_or] at hstage
    have hne : stage ≠ run.stage := fun hsame => hstage.2 (by simp [outputsOf, completions, hsame])
    rw [hcompletes.others stage hne]
    exact h.incomplete stage hstage.1
  case stored =>
    intro done hdone
    rw [completions_append, List.mem_append] at hdone
    rcases hdone with hdone | hdone
    · obtain ⟨row, stored, hrow, houtput, hpayload⟩ := h.stored done hdone
      exact ⟨row, stored, (hcompletes.others _ (hother hdone)).trans hrow, houtput, hpayload⟩
    · obtain rfl := List.mem_singleton.mp hdone
      obtain ⟨row, hrow, houtput⟩ := hcompletes.stored
      exact ⟨row, result, hrow, houtput, rfl⟩
  case cutoff =>
    intro done hdone hfreeze
    rw [completions_append, List.mem_append] at hdone
    rcases hdone with hdone | hdone
    · have hne : run.stage ≠ .marketFreeze := fun hsame => hother hdone (hfreeze.trans hsame.symm)
      rw [hcompletes.same hne]
      exact h.cutoff done hdone hfreeze
    · obtain rfl := List.mem_singleton.mp hdone
      exact hcompletes.cutoff hfreeze

/-- What a generation reads of a stage: nothing, or the output that the stage was completed
with as the column gives it back. -/
theorem Checkpointed.loadStage (h : Checkpointed fromisoformat cycleId reports tables)
    (stage : CycleStage) :
    (stage ∉ (outputsOf reports).map Prod.fst ∧ tables.loadStage cycleId stage = .ok none) ∨
      (stage ∈ (outputsOf reports).map Prod.fst ∧ ∃ stored : StageResult stage,
        tables.loadStage cycleId stage = .ok (some stored) ∧
          ∀ done ∈ completions reports, done.run.stage = stage →
            stored.payload = Json.jsonbFields done.payload) := by
  by_cases hstage : stage ∈ (outputsOf reports).map Prod.fst
  · obtain ⟨done, hdone, rfl⟩ := mem_stages_iff.mp hstage
    obtain ⟨row, result, hrow, houtput, hpayload⟩ := h.stored done hdone
    refine Or.inr ⟨hstage, ⟨Json.jsonbFields result.payload, result.runtime⟩, ?_, ?_⟩
    · rw [CycleTables.loadStage, ← CycleTables.completedRow, hrow]
      dsimp only
      rw [houtput]
      dsimp only
      rw [restoreStage_stageCheckpoint]
      rfl
    · intro other hother hsame
      obtain ⟨row', result', hrow', houtput', hpayload'⟩ := h.stored other hother
      rw [hsame, hrow] at hrow'
      obtain rfl := Option.some.inj hrow'
      rw [houtput] at houtput'
      have hcheckpoint := congrArg Checkpoint.payload (Option.some.inj houtput')
      rw [← hpayload']
      exact hcheckpoint
  · refine Or.inl ⟨hstage, ?_⟩
    rw [CycleTables.loadStage, ← CycleTables.completedRow, h.incomplete stage hstage]

/-! ## Processes on their way -/

/-- Where a process stands when these outputs are done: it has taken over some of them, or is
at a stage after all of them. -/
def Phase.Stands (sha256 : Json → Sha256) (cycleId : String) (done outputs : StageOutputs) :
    Phase → Prop
  | .loading later => outputs <+: done ∧ outputs.map Prod.fst ++ later = stageOrder
  | .renewing stage later | .beginning stage later _ =>
      outputs = done ∧ outputs.map Prod.fst ++ stage :: later = stageOrder
  | .invoking stage later fingerprint =>
      outputs = done ∧ outputs.map Prod.fst ++ stage :: later = stageOrder ∧
        fingerprint = fingerprintInputs sha256 cycleId stage outputs
  | .completing later run _ =>
      outputs = done ∧ outputs.map Prod.fst ++ run.stage :: later = stageOrder ∧
        straightRun sha256 cycleId outputs run.stage = .ok run
  | .failing _ => True

/-- A process that has not failed knows the cutoff and stands where the cycle does. -/
structure OnTrack (fromisoformat : String → Option Datetime) (sha256 : Json → Sha256)
    (cycleId : String) (reports : List CycleReport) (process : Process) : Prop where
  cutoff : (∀ error, process.phase ≠ .failing error) →
    ∀ cutoff, CutoffOf fromisoformat reports cutoff → process.claim.dataCutoff = some cutoff
  phase : process.phase.Stands sha256 cycleId (outputsOf reports) process.outputs

theorem OnTrack.failing (process : Process) (error : Raised) :
    OnTrack fromisoformat sha256 cycleId reports (process.failing error) where
  cutoff hfailing := absurd rfl (hfailing error)
  phase := trivial

theorem cutoffOf_append_quiet {later : List CycleReport} (h : Quiet later) {cutoff : Instant} :
    CutoffOf fromisoformat (reports ++ later) cutoff ↔ CutoffOf fromisoformat reports cutoff := by
  rw [CutoffOf, CutoffOf, completions_append_quiet h]

/-- A process that goes on while nothing is completed. -/
theorem OnTrack.proceed {process : Process} {outputs : StageOutputs} {phase : Phase}
    {later : List CycleReport} (h : OnTrack fromisoformat sha256 cycleId reports process)
    (hquiet : Quiet later) (hrunning : ∀ error, process.phase ≠ .failing error)
    (hphase : phase.Stands sha256 cycleId (outputsOf reports) outputs) :
    OnTrack fromisoformat sha256 cycleId (reports ++ later) ⟨process.claim, outputs, phase⟩ where
  cutoff _ cutoff hcutoff := h.cutoff hrunning cutoff ((cutoffOf_append_quiet hquiet).mp hcutoff)
  phase := by
    rw [outputsOf_append_quiet hquiet]
    exact hphase

theorem OnTrack.follow {process : Process} {raised : Option Raised} {phase : Phase}
    (h : OnTrack fromisoformat sha256 cycleId reports process)
    (hrunning : ∀ error, process.phase ≠ .failing error)
    (hphase : phase.Stands sha256 cycleId (outputsOf reports) process.outputs) :
    OnTrack fromisoformat sha256 cycleId (reports ++ []) (process.follow raised phase) := by
  cases raised with
  | some error => exact .failing process error
  | none => exact h.proceed rfl hrunning hphase

/-- A process that begins under a claim with the cutoff of the cycle. -/
theorem OnTrack.start {claim : CycleClaim}
    (h : Checkpointed fromisoformat cycleId reports tables) {row : AgentCycleRow}
    (hrow : tables.cycleRow cycleId = some row)
    (hcutoff : row.dataCutoff = claim.dataCutoff) :
    OnTrack fromisoformat sha256 cycleId reports (.start claim) where
  cutoff := by
    rintro - cutoff ⟨done, hdone, hfreeze, hfixed⟩
    obtain ⟨cutoff', hcutoff', row', hrow', hrowcutoff⟩ := h.cutoff done hdone hfreeze
    rw [hfixed] at hcutoff'
    obtain rfl := Except.ok.inj hcutoff'
    rw [hrow] at hrow'
    obtain rfl := Option.some.inj hrow'
    exact hcutoff.symm.trans hrowcutoff
  phase := ⟨List.nil_prefix, rfl⟩

/-! ## Places in the order of stages -/

theorem stageOrder_nodup : stageOrder.Nodup := by decide

/-- The next stage is not done. -/
theorem next_not_mem {outputs : StageOutputs} {stage : CycleStage} {later : List CycleStage}
    (hnext : outputs.map Prod.fst ++ stage :: later = stageOrder) :
    stage ∉ outputs.map Prod.fst := by
  intro hearlier
  have hnodup := stageOrder_nodup
  rw [← hnext] at hnodup
  exact (List.nodup_append.mp hnodup).2.2 stage hearlier stage List.mem_cons_self rfl

/-- Outputs that are done up to a stage that is not done are all that are done. -/
theorem eq_of_next_not_mem {outputs done : StageOutputs} {stage : CycleStage}
    {later : List CycleStage} (hbegun : outputs <+: done)
    (horder : done.map Prod.fst <+: stageOrder)
    (hnext : outputs.map Prod.fst ++ stage :: later = stageOrder)
    (hnot : stage ∉ done.map Prod.fst) : outputs = done := by
  obtain ⟨rest, rfl⟩ := hbegun
  cases rest with
  | nil => rw [List.append_nil]
  | cons output rest =>
      rw [← hnext, List.map_append, List.prefix_append_right_inj, List.map_cons,
        List.cons_prefix_cons] at horder
      rw [← horder.1] at hnot
      simp at hnot

/-- The output of the next stage, when it is done, continues the outputs. -/
theorem prefix_of_next_mem {outputs done : StageOutputs} {stage : CycleStage}
    {later : List CycleStage} (hbegun : outputs <+: done)
    (horder : done.map Prod.fst <+: stageOrder)
    (hnext : outputs.map Prod.fst ++ stage :: later = stageOrder)
    (hmem : stage ∈ done.map Prod.fst) :
    ∃ payload, (stage, payload) ∈ done ∧ outputs ++ [(stage, payload)] <+: done := by
  have hfresh := next_not_mem hnext
  obtain ⟨rest, rfl⟩ := hbegun
  cases rest with
  | nil =>
      rw [List.append_nil] at hmem
      exact absurd hmem hfresh
  | cons output rest =>
      rw [← hnext, List.map_append, List.prefix_append_right_inj, List.map_cons,
        List.cons_prefix_cons] at horder
      obtain ⟨stage', payload⟩ := output
      obtain rfl : stage' = stage := horder.1
      refine ⟨payload, by simp, rest, ?_⟩
      rw [List.append_assoc, List.singleton_append]

/-- Nothing is done after the last stage. -/
theorem eq_of_all {outputs done : StageOutputs} (hbegun : outputs <+: done)
    (horder : done.map Prod.fst <+: stageOrder) (hall : outputs.map Prod.fst = stageOrder) :
    outputs = done := by
  apply hbegun.eq_of_length_le
  have hlength := horder.length_le
  rw [← hall] at hlength
  simpa using hlength

/-! ## Steps -/

/-- What is restored is what the column gives back. -/
def RestoresStored (before : List CycleReport) : CycleReport → Prop
  | .restored stage payload => ∀ done ∈ completions before, done.run.stage = stage →
      payload = Json.jsonbFields done.payload
  | .invoked _ _ | .completed _ _ _ | .finished _ => True

/-- What holds all along a run of a cycle; the last part as long as checkpoints give back what
they were given. -/
structure Resuming (fromisoformat : String → Option Datetime) (sha256 : Json → Sha256)
    (cycleId : String) (reports : List CycleReport) (state : CycleState) : Prop where
  checkpoints : Checkpointed fromisoformat cycleId reports state.tables
  claim : ∀ process ∈ state.process, process.claim.cycleId = cycleId
  restored : Runs.Each RestoresStored reports
  expected : Runs.Each RestoresKept reports →
    Runs.Each (Expected fromisoformat sha256 cycleId) reports ∧
      (outputsOf reports).map Prod.fst <+: stageOrder ∧
      ∀ process ∈ state.process, OnTrack fromisoformat sha256 cycleId reports process

/-- A step that reports nothing. -/
theorem Resuming.silent {state next : CycleState}
    (h : Resuming fromisoformat sha256 cycleId reports state)
    (hkeeps : state.tables.KeepsEvidence cycleId next.tables)
    (hclaim : ∀ process ∈ next.process, process.claim.cycleId = cycleId)
    (htrack : (outputsOf reports).map Prod.fst <+: stageOrder →
      (∀ process ∈ state.process, OnTrack fromisoformat sha256 cycleId reports process) →
      ∀ process ∈ next.process, OnTrack fromisoformat sha256 cycleId reports process) :
    Resuming fromisoformat sha256 cycleId (reports ++ []) next := by
  have hcheckpoints := @Checkpointed.keeps _ _ _ _ _ [] h.checkpoints hkeeps rfl
  rw [List.append_nil] at hcheckpoints ⊢
  constructor
  case checkpoints => exact hcheckpoints
  case claim => exact hclaim
  case restored => exact h.restored
  case expected =>
    intro hkept
    obtain ⟨hexpected, horder, hprocess⟩ := h.expected hkept
    exact ⟨hexpected, horder, htrack horder hprocess⟩

/-- A step with a report. -/
theorem Resuming.report {state next : CycleState} {report : CycleReport}
    (h : Resuming fromisoformat sha256 cycleId reports state)
    (hcheckpoints : Checkpointed fromisoformat cycleId (reports ++ [report]) next.tables)
    (hclaim : ∀ process ∈ next.process, process.claim.cycleId = cycleId)
    (hrestored : RestoresStored reports report)
    (hexpected : RestoresKept reports report → (outputsOf reports).map Prod.fst <+: stageOrder →
      (∀ process ∈ state.process, OnTrack fromisoformat sha256 cycleId reports process) →
      Expected fromisoformat sha256 cycleId reports report ∧
        (outputsOf (reports ++ [report])).map Prod.fst <+: stageOrder ∧
        ∀ process ∈ next.process,
          OnTrack fromisoformat sha256 cycleId (reports ++ [report]) process) :
    Resuming fromisoformat sha256 cycleId (reports ++ [report]) next := by
  constructor
  case checkpoints => exact hcheckpoints
  case claim => exact hclaim
  case restored => exact Runs.each_concat.mpr ⟨h.restored, hrestored⟩
  case expected =>
    intro hkept
    obtain ⟨hkept, hkeptreport⟩ := Runs.each_concat.mp hkept
    obtain ⟨hearlier, horder, hprocess⟩ := h.expected hkept
    obtain ⟨hreport, horder', hprocess'⟩ := hexpected hkeptreport horder hprocess
    exact ⟨Runs.each_concat.mpr ⟨hearlier, hreport⟩, horder', hprocess'⟩

theorem Outside.transact_eq_ok {outside : Outside} {transaction : Except Raised CycleTables}
    {after : CycleTables} {raised : Option Raised}
    (h : outside.transact transaction = .ok (after, raised)) : transaction = .ok after := by
  unfold Outside.transact at h
  split at h
  · cases h
  · obtain ⟨done, hdone, heq⟩ := Checks.map_eq_ok.mp h
    cases heq
    exact hdone

/-- A step in which the process fails, or stops. -/
theorem Resuming.stop {process : Process} {after : CycleTables} {next : Option Process}
    (h : Resuming fromisoformat sha256 cycleId reports ⟨tables, some process⟩)
    (hkeeps : tables.KeepsEvidence cycleId after)
    (hnext : ∀ stopped ∈ next, ∃ error, stopped = process.failing error) :
    Resuming fromisoformat sha256 cycleId (reports ++ []) ⟨after, next⟩ := by
  apply h.silent hkeeps
  · intro stopped hstopped
    obtain ⟨error, rfl⟩ := hnext stopped hstopped
    exact h.claim process rfl
  · intro _ _ stopped hstopped
    obtain ⟨error, rfl⟩ := hnext stopped hstopped
    exact .failing process error

theorem Resuming.failing {process : Process} (error : Raised)
    (h : Resuming fromisoformat sha256 cycleId reports ⟨tables, some process⟩) :
    Resuming fromisoformat sha256 cycleId (reports ++ [])
      ⟨tables, some (process.failing error)⟩ := by
  apply h.stop (CycleTables.SameEvidence.refl _ _).keeps
  rintro _ ⟨⟩
  exact ⟨error, rfl⟩

/-- A transaction that completes nothing, and after which the process goes on. -/
theorem Resuming.transacted {process : Process} {after : CycleTables} {raised : Option Raised}
    {phase : Phase} (h : Resuming fromisoformat sha256 cycleId reports ⟨tables, some process⟩)
    (hsame : CycleTables.SameEvidence process.claim.cycleId tables after)
    (hrunning : ∀ error, process.phase ≠ .failing error)
    (hphase : process.phase.Stands sha256 cycleId (outputsOf reports) process.outputs →
      phase.Stands sha256 cycleId (outputsOf reports) process.outputs) :
    Resuming fromisoformat sha256 cycleId (reports ++ [])
      ⟨after, some (process.follow raised phase)⟩ := by
  have hclaim := h.claim process rfl
  rw [hclaim] at hsame
  apply h.silent hsame.keeps
  · rintro _ ⟨⟩
    cases raised with
    | some error => exact hclaim
    | none => exact hclaim
  · rintro horder hprocess _ ⟨⟩
    have htrack := hprocess process rfl
    have hfollow := @OnTrack.follow fromisoformat sha256 cycleId reports process raised phase htrack
      hrunning (hphase htrack.phase)
    rw [List.append_nil] at hfollow
    exact hfollow

section

variable {claim : CycleClaim} {outputs : StageOutputs} {leaseDuration : ℤ} {outside : Outside}

/-- A process goes on to the next state of a step with its reports. -/
def Steps (fromisoformat : String → Option Datetime) (sha256 : Json → Sha256) (cycleId : String)
    (reports : List CycleReport) (result : CycleTables × Option Process × List CycleReport) : Prop :=
  Resuming fromisoformat sha256 cycleId (reports ++ result.2.2) ⟨result.1, result.2.1⟩

theorem Resuming.renewing {stage : CycleStage} {later : List CycleStage}
    (h : Resuming fromisoformat sha256 cycleId reports
      ⟨tables, some ⟨claim, outputs, .renewing stage later⟩⟩) :
    Steps fromisoformat sha256 cycleId reports
      (Process.advance fromisoformat sha256 leaseDuration tables
        ⟨claim, outputs, .renewing stage later⟩ outside) := by
  unfold Process.advance
  dsimp only
  cases hdone : outside.transact (tables.renewLease claim outside.now leaseDuration) with
  | error error => exact h.failing error
  | ok done =>
      obtain ⟨after, raised⟩ := done
      apply h.transacted
      · exact CycleTables.renewLease_evidence (Outside.transact_eq_ok hdone)
      · simp
      · exact id

theorem Resuming.beginning {stage : CycleStage} {later : List CycleStage} {now : Datetime}
    (h : Resuming fromisoformat sha256 cycleId reports
      ⟨tables, some ⟨claim, outputs, .beginning stage later now⟩⟩) :
    Steps fromisoformat sha256 cycleId reports
      (Process.advance fromisoformat sha256 leaseDuration tables
        ⟨claim, outputs, .beginning stage later now⟩ outside) := by
  have hclaim : claim.cycleId = cycleId := h.claim _ rfl
  unfold Process.advance
  dsimp only
  cases hdone : outside.transact (tables.beginStage claim stage
      (fingerprintInputs sha256 claim.cycleId stage outputs) now) with
  | error error => exact h.failing error
  | ok done =>
      obtain ⟨after, raised⟩ := done
      apply h.transacted
      · exact CycleTables.beginStage_evidence (Outside.transact_eq_ok hdone)
      · simp
      · rintro ⟨houtputs, hnext⟩
        refine ⟨houtputs, hnext, ?_⟩
        rw [hclaim]

/-- A stage that is completed is read back, another one is run. -/
theorem Resuming.loading {stage : CycleStage} {later : List CycleStage}
    (h : Resuming fromisoformat sha256 cycleId reports
      ⟨tables, some ⟨claim, outputs, .loading (stage :: later)⟩⟩) :
    Steps fromisoformat sha256 cycleId reports
      (Process.advance fromisoformat sha256 leaseDuration tables
        ⟨claim, outputs, .loading (stage :: later)⟩ outside) := by
  have hclaim : claim.cycleId = cycleId := h.claim _ rfl
  unfold Steps Process.advance
  dsimp only
  cases outside.before with
  | some error => exact h.failing error
  | none =>
      rcases h.checkpoints.loadStage stage with ⟨hnot, hload⟩ | ⟨hmem, stored, hload, hstored⟩
      · rw [hclaim, hload]
        dsimp only
        apply h.silent
        · exact (CycleTables.SameEvidence.refl _ _).keeps
        · rintro _ ⟨⟩
          exact hclaim
        · rintro horder hprocess _ ⟨⟩
          have htrack := hprocess _ rfl
          obtain ⟨hbegun, hnext⟩ := htrack.phase
          rw [← List.append_nil reports]
          apply htrack.proceed (show Quiet [] from rfl) (by simp)
          exact ⟨eq_of_next_not_mem hbegun horder hnext hnot, hnext⟩
      · rw [hclaim, hload]
        dsimp only
        apply h.report
        · exact h.checkpoints.keeps (CycleTables.SameEvidence.refl _ _).keeps rfl
        · rintro _ ⟨⟩
          exact hclaim
        · exact hstored
        · intro hkept horder hprocess
          have htrack := hprocess _ rfl
          obtain ⟨hbegun, hnext⟩ := htrack.phase
          have hquiet : Quiet [.restored stage stored.payload] := rfl
          have hsame (done : Completion) (hdone : done ∈ completions reports)
              (hstage : done.run.stage = stage) : stored.payload = done.payload := by
            have hjsonb := Json.jsonb_eq_self (.object done.payload) (hkept done hdone hstage)
            rw [hstored done hdone hstage]
            exact Json.object.inj hjsonb
          obtain ⟨payload, hdone, hcontinued⟩ := prefix_of_next_mem hbegun horder hnext hmem
          obtain ⟨done, hdone, heq⟩ := List.mem_map.mp hdone
          obtain ⟨hstage, hpayload⟩ := Prod.mk.inj heq
          refine ⟨⟨hmem, fun other hother hstage' => ?_⟩, ?_, ?_⟩
          · rw [hsame other hother hstage']
            exact .refl _
          · rw [outputsOf_append_quiet hquiet]
            exact horder
          · rintro _ ⟨⟩
            apply htrack.proceed hquiet (by simp)
            rw [hsame done hdone hstage, hpayload]
            refine ⟨hcontinued, ?_⟩
            rw [List.map_append, List.append_assoc]
            exact hnext

theorem stageInputs_straight {stage : CycleStage} {inputs : List JsonObject}
    (h : stageInputs outputs stage = .ok inputs) :
    straightRun sha256 cycleId outputs stage =
      .ok ⟨stage, outputs, inputs, fingerprintInputs sha256 cycleId stage outputs⟩ := by
  rw [straightRun, h]
  rfl

/-- A port is asked for the result of a stage. -/
theorem Resuming.invoking {stage : CycleStage} {later : List CycleStage} {fingerprint : Sha256}
    (h : Resuming fromisoformat sha256 cycleId reports
      ⟨tables, some ⟨claim, outputs, .invoking stage later fingerprint⟩⟩) :
    Steps fromisoformat sha256 cycleId reports
      (Process.advance fromisoformat sha256 leaseDuration tables
        ⟨claim, outputs, .invoking stage later fingerprint⟩ outside) := by
  have hclaim : claim.cycleId = cycleId := h.claim _ rfl
  unfold Steps Process.advance
  dsimp only
  cases outside.before with
  | some error => exact h.failing error
  | none =>
      cases hinputs : stageInputs outputs stage with
      | error error => exact h.failing error
      | ok inputs =>
          have hquiet : Quiet [.invoked ⟨stage, outputs, inputs, fingerprint⟩ claim.dataCutoff] := rfl
          have hcheckpoints := h.checkpoints.keeps (CycleTables.SameEvidence.refl _ _).keeps hquiet
          -- What is reported is what the straight run would be given.
          have hreport (htrack : OnTrack fromisoformat sha256 cycleId reports
              ⟨claim, outputs, .invoking stage later fingerprint⟩) :
              Expected fromisoformat sha256 cycleId reports
                (.invoked ⟨stage, outputs, inputs, fingerprint⟩ claim.dataCutoff) := by
            obtain ⟨houtputs, hnext, hfingerprint⟩ := htrack.phase
            dsimp only at houtputs hnext hfingerprint
            subst houtputs hfingerprint
            exact ⟨next_not_mem hnext, ⟨_, stageInputs_straight hinputs, .refl _⟩,
              htrack.cutoff (by simp)⟩
          cases outside.ports stage with
          | error error =>
              dsimp only
              apply h.report
              · exact hcheckpoints
              · rintro _ ⟨⟩
                exact hclaim
              · trivial
              · intro _ horder hprocess
                refine ⟨hreport (hprocess _ rfl), ?_, ?_⟩
                · rw [outputsOf_append_quiet hquiet]
                  exact horder
                · rintro _ ⟨⟩
                  exact .failing _ error
          | ok result =>
              dsimp only
              apply h.report
              · exact hcheckpoints
              · rintro _ ⟨⟩
                exact hclaim
              · trivial
              · intro _ horder hprocess
                have htrack := hprocess _ rfl
                refine ⟨hreport htrack, ?_, ?_⟩
                · rw [outputsOf_append_quiet hquiet]
                  exact horder
                · rintro _ ⟨⟩
                  apply htrack.proceed hquiet (by simp)
                  obtain ⟨houtputs, hnext, hfingerprint⟩ := htrack.phase
                  dsimp only at houtputs hnext hfingerprint
                  subst hfingerprint
                  exact ⟨houtputs, hnext, stageInputs_straight hinputs⟩

theorem cutoffOf_complete {run : StageRun} {payload : JsonObject} {now cutoff : Instant}
    (hnew : run.stage ∉ (outputsOf reports).map Prod.fst)
    (h : CutoffOf fromisoformat (reports ++ [.completed run payload now]) cutoff) :
    if run.stage = .marketFreeze then
      CycleTables.marketFreezeCutoff fromisoformat payload now = .ok cutoff
    else CutoffOf fromisoformat reports cutoff := by
  obtain ⟨done, hdone, hfreeze, hcutoff⟩ := h
  rw [completions_append, List.mem_append] at hdone
  rcases hdone with hdone | hdone
  · rw [if_neg]
    · exact ⟨done, hdone, hfreeze, hcutoff⟩
    · intro hsame
      exact hnew (mem_stages_iff.mpr ⟨done, hdone, hfreeze.trans hsame.symm⟩)
  · obtain rfl := List.mem_singleton.mp hdone
    rw [if_pos hfreeze]
    exact hcutoff

/-- The claim of a process that has completed a stage knows the cutoff. -/
theorem dataCutoff_of_claimAfter {stage : CycleStage} {payload : JsonObject} {now : Instant}
    {after : CycleClaim} (h : claimAfter fromisoformat claim stage payload now = .ok after) :
    after.cycleId = claim.cycleId ∧
      if stage = .marketFreeze then ∀ cutoff,
        CycleTables.marketFreezeCutoff fromisoformat payload now = .ok cutoff →
          after.dataCutoff = some cutoff
      else after.dataCutoff = claim.dataCutoff := by
  unfold claimAfter at h
  split at h
  next hfreeze =>
    rw [if_pos hfreeze]
    obtain ⟨cutoff, hcutoff, h⟩ := Checks.bind_eq_ok.mp h
    unfold CycleClaim.withCutoff at h
    split at h
    · cases h
      refine ⟨rfl, fun other hother => ?_⟩
      rw [hcutoff] at hother
      obtain rfl := Except.ok.inj hother
      rfl
    · cases h
  next hfreeze =>
    rw [if_neg hfreeze]
    cases h
    exact ⟨rfl, rfl⟩

/-- A stage is completed. -/
theorem Resuming.completing {later : List CycleStage} {run : StageRun}
    {result : StageResult run.stage}
    (h : Resuming fromisoformat sha256 cycleId reports
      ⟨tables, some ⟨claim, outputs, .completing later run result⟩⟩) :
    Steps fromisoformat sha256 cycleId reports
      (Process.advance fromisoformat sha256 leaseDuration tables
        ⟨claim, outputs, .completing later run result⟩ outside) := by
  have hclaim : claim.cycleId = cycleId := h.claim _ rfl
  unfold Steps Process.advance
  dsimp only
  cases hdone : outside.transact (tables.completeStage fromisoformat claim run.fingerprint result
      outside.now outside.registered) with
  | error error => exact h.failing error
  | ok done =>
      obtain ⟨after, raised⟩ := done
      have hcompletes := CycleTables.completeStage_evidence (Outside.transact_eq_ok hdone)
      rw [hclaim] at hcompletes
      have hnew := h.checkpoints.not_mem hcompletes.incomplete
      dsimp only
      apply h.report
      · exact h.checkpoints.complete hcompletes
      · rintro _ ⟨⟩
        unfold Process.complete
        split
        · exact hclaim
        · split
          · exact hclaim
          next hafter => exact (dataCutoff_of_claimAfter hafter).1.trans hclaim
      · trivial
      · intro _ horder hprocess
        have htrack := hprocess _ rfl
        obtain ⟨houtputs, hnext, hstraight⟩ := htrack.phase
        dsimp only at houtputs hnext hstraight
        have hplace : (outputsOf reports).map Prod.fst ++ [run.stage] <+: stageOrder := by
          rw [← houtputs, ← hnext, List.prefix_append_right_inj]
          exact ⟨later, rfl⟩
        refine ⟨⟨hplace, ?_⟩, ?_, ?_⟩
        · rw [← houtputs]
          exact ⟨run, hstraight, .refl run⟩
        · rw [outputsOf_append, List.map_append]
          exact hplace
        · rintro _ ⟨⟩
          unfold Process.complete
          split
          · exact .failing _ _
          · split
            · exact .failing _ _
            next claim' hafter =>
              constructor
              case cutoff =>
                intro _ cutoff hcutoff
                have hcutoff := cutoffOf_complete hnew hcutoff
                have hknown := (dataCutoff_of_claimAfter hafter).2
                by_cases hfreeze : run.stage = .marketFreeze
                · rw [if_pos hfreeze] at hcutoff hknown
                  exact hknown cutoff hcutoff
                · rw [if_neg hfreeze] at hcutoff hknown
                  exact hknown.trans (htrack.cutoff (by simp) cutoff hcutoff)
              case phase =>
                dsimp only
                rw [outputsOf_append, houtputs]
                refine ⟨List.prefix_refl _, ?_⟩
                rw [List.map_append, List.append_assoc, ← houtputs]
                exact hnext

/-- The cycle is completed after its last stage. -/
theorem Resuming.finishing
    (h : Resuming fromisoformat sha256 cycleId reports
      ⟨tables, some ⟨claim, outputs, .loading []⟩⟩) :
    Steps fromisoformat sha256 cycleId reports
      (Process.advance fromisoformat sha256 leaseDuration tables
        ⟨claim, outputs, .loading []⟩ outside) := by
  have hclaim : claim.cycleId = cycleId := h.claim _ rfl
  unfold Steps Process.advance
  dsimp only
  cases hdone : outside.transact (tables.completeCycle claim outside.now
      (cycleSummary outputs)) with
  | error error => exact h.failing error
  | ok done =>
      obtain ⟨after, raised⟩ := done
      have hsame := CycleTables.completeCycle_evidence (Outside.transact_eq_ok hdone)
      rw [hclaim] at hsame
      have hquiet : Quiet [.finished (cycleSummary outputs)] := rfl
      have hcheckpoints := h.checkpoints.keeps hsame.keeps hquiet
      have hreport (horder : (outputsOf reports).map Prod.fst <+: stageOrder)
          (htrack : OnTrack fromisoformat sha256 cycleId reports ⟨claim, outputs, .loading []⟩) :
          Expected fromisoformat sha256 cycleId reports (.finished (cycleSummary outputs)) := by
        obtain ⟨hbegun, hall⟩ := htrack.phase
        rw [List.append_nil] at hall
        have houtputs := eq_of_all hbegun horder hall
        dsimp only at houtputs hall
        rw [houtputs] at hall ⊢
        exact ⟨hall, .refl _⟩
      cases raised with
      | some error =>
          apply h.report
          · exact hcheckpoints
          · rintro _ ⟨⟩
            exact hclaim
          · trivial
          · intro _ horder hprocess
            refine ⟨hreport horder (hprocess _ rfl), ?_, ?_⟩
            · rw [outputsOf_append_quiet hquiet]
              exact horder
            · rintro _ ⟨⟩
              exact .failing _ error
      | none =>
          apply h.report
          · exact hcheckpoints
          · rintro _ ⟨⟩
          · trivial
          · intro _ horder hprocess
            refine ⟨hreport horder (hprocess _ rfl), ?_, ?_⟩
            · rw [outputsOf_append_quiet hquiet]
              exact horder
            · rintro _ ⟨⟩

/-- The cycle fails, and the process ends. -/
theorem Resuming.failed {error : Raised}
    (h : Resuming fromisoformat sha256 cycleId reports
      ⟨tables, some ⟨claim, outputs, .failing error⟩⟩) :
    Steps fromisoformat sha256 cycleId reports
      (Process.advance fromisoformat sha256 leaseDuration tables
        ⟨claim, outputs, .failing error⟩ outside) := by
  have hclaim : claim.cycleId = cycleId := h.claim _ rfl
  unfold Steps Process.advance
  dsimp only
  cases hdone : outside.transact (tables.failCycle claim outside.now outside.reason) with
  | error _ =>
      apply h.stop (CycleTables.SameEvidence.refl _ _).keeps
      rintro _ ⟨⟩
  | ok done =>
      obtain ⟨after, raised⟩ := done
      have hsame := CycleTables.failCycle_evidence (Outside.transact_eq_ok hdone)
      rw [hclaim] at hsame
      apply h.stop hsame.keeps
      rintro _ ⟨⟩

theorem Resuming.advance {process : Process}
    (h : Resuming fromisoformat sha256 cycleId reports ⟨tables, some process⟩) :
    Steps fromisoformat sha256 cycleId reports
      (process.advance fromisoformat sha256 leaseDuration tables outside) := by
  obtain ⟨claim, outputs, phase⟩ := process
  cases phase with
  | loading stages =>
      cases stages with
      | nil => exact h.finishing
      | cons stage later => exact h.loading
  | renewing stage later => exact h.renewing
  | beginning stage later now => exact h.beginning
  | invoking stage later fingerprint => exact h.invoking
  | completing later run result => exact h.completing
  | failing error => exact h.failed

end

/-- What is not done under a claim of the cycle leaves what was completed of it. -/
theorem CycleTables.Transacted.sameEvidence {ids : RandomIds} {after : CycleTables}
    {request : CycleCall} {claims : List CycleClaim}
    (h : CycleTables.Transacted ids tables after request claims)
    (hother : ∀ claim ∈ request.claim?, claim.cycleId ≠ cycleId) :
    CycleTables.SameEvidence cycleId tables after := by
  cases h with
  | scheduled _ h => exact h.evidence cycleId
  | left _ hsame =>
      rw [hsame]
      exact .refl cycleId tables
  | written claim hrequest _ hwrites _ =>
      exact .of_content (hwrites.others cycleId (hother claim hrequest).symm)

/-- The claim that is granted last for a cycle is one for the cycle, under its cutoff. -/
theorem CycleTables.Transacted.cutoff_of_lastClaim {ids : RandomIds} {after : CycleTables}
    {request : CycleCall} {claims : List CycleClaim} {claim : CycleClaim}
    (h : CycleTables.Transacted ids tables after request claims)
    (hlast : CycleTables.lastClaim cycleId claims = some claim) :
    claim.cycleId = cycleId ∧ ∃ row, after.cycleRow cycleId = some row ∧
      row.dataCutoff = claim.dataCutoff := by
  have hmem := List.mem_of_getLast? hlast
  rw [List.mem_filter, decide_eq_true_iff] at hmem
  obtain ⟨hmem, rfl⟩ := hmem
  refine ⟨rfl, ?_⟩
  cases h with
  | scheduled _ h => exact h.cutoffs claim hmem
  | left _ _ => cases hmem
  | written _ _ _ _ _ => cases hmem

variable {ids : RandomIds} {leaseDuration : ℤ} {state : CycleState}

theorem Resuming.unchanged (h : Resuming fromisoformat sha256 cycleId reports state) :
    Resuming fromisoformat sha256 cycleId (reports ++ []) state := by
  rw [List.append_nil]
  exact h

/-- Whatever happens to a cycle, it is as it should be. -/
theorem Resuming.step (h : Resuming fromisoformat sha256 cycleId reports state)
    (event : CycleEvent) :
    Resuming fromisoformat sha256 cycleId
      (reports ++ (state.step ids fromisoformat sha256 leaseDuration cycleId event).2)
      (state.step ids fromisoformat sha256 leaseDuration cycleId event).1 := by
  obtain ⟨tables, process⟩ := state
  unfold CycleState.step
  cases event with
  | call request =>
      dsimp only
      split
      next => exact h.unchanged
      next hothers =>
        have hother : ∀ claim ∈ request.claim?, claim.cycleId ≠ cycleId := by
          intro claim hclaim hsame
          apply hothers
          rw [Option.mem_def.mp hclaim]
          exact decide_eq_true hsame
        cases hdone : tables.transact ids fromisoformat request with
        | error error => exact h.unchanged
        | ok done =>
            obtain ⟨after, claims⟩ := done
            have htransacted := CycleTables.transact_spec hdone
            have hsame := htransacted.sameEvidence hother
            dsimp only
            cases hlast : CycleTables.lastClaim cycleId claims with
            | none => exact h.silent hsame.keeps h.claim fun _ hprocess => hprocess
            | some claim =>
                obtain ⟨hclaim, row, hrow, hcutoff⟩ := htransacted.cutoff_of_lastClaim hlast
                have hcheckpoints := h.checkpoints.keeps hsame.keeps (show Quiet [] from rfl)
                rw [List.append_nil] at hcheckpoints
                apply h.silent hsame.keeps
                · rintro _ ⟨⟩
                  exact hclaim
                · rintro _ _ _ ⟨⟩
                  exact .start hcheckpoints hrow hcutoff
  | publish now cutoff =>
      cases process with
      | none => exact h.unchanged
      | some process =>
          dsimp only
          cases hdone : tables.publishFreeze process.claim now cutoff with
          | error error => exact h.unchanged
          | ok after =>
              have hkeeps := CycleTables.publishFreeze_evidence hdone
              rw [h.claim process rfl] at hkeeps
              exact h.silent hkeeps h.claim fun _ hprocess => hprocess
  | advance outside =>
      cases process with
      | none => exact h.unchanged
      | some process => exact h.advance
  | crash =>
      dsimp only
      apply h.silent
      · exact (CycleTables.SameEvidence.refl _ _).keeps
      · rintro _ ⟨⟩
      · rintro _ _ _ ⟨⟩

/-! ## Runs -/

/-- A cycle before it is scheduled. -/
def CycleState.unscheduled (schedules : ScheduleTable) : CycleState :=
  ⟨CycleTables.unscheduled schedules, none⟩

theorem resuming_unscheduled (schedules : ScheduleTable) :
    Resuming fromisoformat sha256 cycleId [] (.unscheduled schedules) where
  checkpoints := {
    incomplete := fun _ _ => rfl
    stored := fun _ hdone => by cases hdone
    cutoff := fun _ hdone => by cases hdone }
  claim _ hprocess := by cases hprocess
  restored := Runs.each_nil
  expected _ := ⟨Runs.each_nil, List.nil_prefix, fun _ hprocess => by cases hprocess⟩

theorem resuming_run (schedules : ScheduleTable) (events : List CycleEvent) :
    Resuming fromisoformat sha256 cycleId
      (cycleReports ids fromisoformat sha256 leaseDuration cycleId (.unscheduled schedules) events)
      (Runs.final (CycleState.step ids fromisoformat sha256 leaseDuration cycleId)
        (.unscheduled schedules) events) := by
  refine Runs.final_invariant (CycleState.step ids fromisoformat sha256 leaseDuration cycleId)
    (fun trace state => Resuming fromisoformat sha256 cycleId
      (trace.flatMap fun answered => answered.2) state) (resuming_unscheduled schedules) ?_ events
  intro seen state event h
  rw [List.flatMap_append, List.flatMap_singleton]
  exact h.step event

theorem uninterrupted_concat {prior later : StageOutputs} {stage : CycleStage}
    {payload : JsonObject} {runs : List StageRun} {run : StageRun}
    (hruns : uninterrupted sha256 cycleId prior later = .ok runs)
    (hrun : straightRun sha256 cycleId (prior ++ later) stage = .ok run) :
    uninterrupted sha256 cycleId prior (later ++ [(stage, payload)]) = .ok (runs ++ [run]) := by
  induction later generalizing prior runs with
  | nil =>
      cases hruns
      rw [List.append_nil] at hrun
      rw [List.nil_append, uninterrupted, hrun]
      rfl
  | cons output later ih =>
      obtain ⟨first, hfirst, hruns⟩ := Checks.bind_eq_ok.mp hruns
      obtain ⟨rest, hrest, hruns⟩ := Checks.bind_eq_ok.mp hruns
      cases hruns
      rw [List.append_cons] at hrun
      rw [List.cons_append, uninterrupted, hfirst]
      exact Checks.bind_eq_ok.mpr ⟨first, rfl, Checks.bind_eq_ok.mpr ⟨_, ih hrest hrun, rfl⟩⟩

/-- Stages that are each run as in a straight run make up an uninterrupted cycle. -/
theorem runs_of_each (h : Runs.Each (Expected fromisoformat sha256 cycleId) reports) :
    ∃ straight, uninterrupted sha256 cycleId [] (outputsOf reports) = .ok straight ∧
      List.Forall₂ StageRun.Same ((completions reports).map Completion.run) straight := by
  induction reports using List.reverseRecOn with
  | nil => exact ⟨[], rfl, .nil⟩
  | append_singleton reports report ih =>
      obtain ⟨hearlier, hreport⟩ := Runs.each_concat.mp h
      obtain ⟨straight, hstraight, hsame⟩ := ih hearlier
      rw [outputsOf_append, completions_append, List.map_append]
      cases report with
      | restored stage payload =>
          refine ⟨straight, ?_, ?_⟩
          · rw [show outputsOf [.restored stage payload] = [] from rfl, List.append_nil]
            exact hstraight
          · rw [show completions [.restored stage payload] = [] from rfl, List.map_nil,
              List.append_nil]
            exact hsame
      | invoked run dataCutoff =>
          refine ⟨straight, ?_, ?_⟩
          · rw [show outputsOf [.invoked run dataCutoff] = [] from rfl, List.append_nil]
            exact hstraight
          · rw [show completions [.invoked run dataCutoff] = [] from rfl, List.map_nil,
              List.append_nil]
            exact hsame
      | finished summary =>
          refine ⟨straight, ?_, ?_⟩
          · rw [show outputsOf [.finished summary] = [] from rfl, List.append_nil]
            exact hstraight
          · rw [show completions [.finished summary] = [] from rfl, List.map_nil, List.append_nil]
            exact hsame
      | completed run payload completedAt =>
          obtain ⟨-, next, hnext, hrun⟩ := hreport
          refine ⟨straight ++ [next], uninterrupted_concat hstraight hnext, ?_⟩
          exact List.rel_append hsame (.cons hrun .nil)

/-- Outputs that were restored as they had been completed have no respelled numbers. -/
theorem restoresKept_of_expected (hstored : Runs.Each RestoresStored reports)
    (h : Runs.Each (Expected fromisoformat sha256 cycleId) reports) :
    Runs.Each RestoresKept reports := by
  intro before report after hsplit
  have hreport := h before report after hsplit
  have hrestored := hstored before report after hsplit
  cases report with
  | restored stage payload =>
      intro done hdone hstage
      apply (Json.jsonb_same_iff _).mp
      have hsame := hreport.2 done hdone hstage
      rw [hrestored done hdone hstage] at hsame
      exact hsame
  | invoked _ _ => trivial
  | completed _ _ _ => trivial
  | finished _ => trivial

/-- However a cycle is interrupted, fails and is recovered, it is run as one that nothing
interrupts exactly when no output is read back from its checkpoint that holds a number
which the column writes as another one. -/
theorem cycle_resumed_iff (ids : RandomIds) (fromisoformat : String → Option Datetime)
    (sha256 : Json → Sha256) (leaseDuration : ℤ) (cycleId : String)
    (schedules : ScheduleTable) (events : List CycleEvent) :
    Resumed fromisoformat sha256 cycleId
      (cycleReports ids fromisoformat sha256 leaseDuration cycleId (.unscheduled schedules) events)
      (Runs.final (CycleState.step ids fromisoformat sha256 leaseDuration cycleId)
        (.unscheduled schedules) events).tables ↔
    Runs.Each RestoresKept
      (cycleReports ids fromisoformat sha256 leaseDuration cycleId (.unscheduled schedules)
        events) := by
  have h := @resuming_run fromisoformat sha256 cycleId ids leaseDuration schedules events
  constructor
  · intro hresumed
    exact restoresKept_of_expected h.restored hresumed.each
  · intro hkept
    obtain ⟨heach, -, -⟩ := h.expected hkept
    exact ⟨heach, runs_of_each heach, h.checkpoints.cutoff⟩

end

namespace Sample

/-- Every stage has this output. -/
def outside (now : Datetime) (payload : JsonObject) : Outside where
  now := now
  before := none
  after := none
  ports
    | .marketFreeze => .ok ⟨payload, moment⟩
    | .preSettlement | .prompt | .broker => .ok ⟨payload, (0 : ℤ)⟩
    | .harness => .ok ⟨payload, ((0 : ℤ), (0 : ℤ))⟩
    | .settlementValuation => .ok ⟨payload, ((0 : ℤ), (0 : ℤ), (0 : ℤ))⟩
  registered := .ok ()
  reason := ""

/-- The freeze has a volume of `1e23` in its output; the worker stops once the stage is
completed, and an hour later another generation runs the cycle to its end. -/
def interruptedCycle : List CycleEvent :=
  .call (.claimDue scheduling leaseTerms moment) ::
    List.replicate 5 (.advance (outside moment [("volume", .float ⟨false, 1, 23⟩)])) ++
    .crash :: .call (.recoverExpired scheduling leaseTerms none nextHour) ::
    List.replicate 27 (.advance (outside nextHour []))

/-- Whether a cycle has finished. -/
def finishes (reports : List CycleReport) : Bool :=
  reports.any fun
    | .finished _ => true
    | .restored _ _ | .invoked _ _ | .completed _ _ _ => false

set_option maxRecDepth 10000 in
theorem interruptedCycle_finishes :
    finishes (cycleReports randomIds (fun _ => none) (fun _ => digest) 1000 (randomIds.hex 1)
        (.unscheduled hourly) interruptedCycle) = true ∧
      ¬ Runs.Each RestoresKept (cycleReports randomIds (fun _ => none) (fun _ => digest) 1000
        (randomIds.hex 1) (.unscheduled hourly) interruptedCycle) := by
  decide +kernel

/-- A cycle that is recovered and finishes although it was not run as one that nothing
interrupts. -/
theorem interruptedCycle_not_resumed :
    finishes (cycleReports randomIds (fun _ => none) (fun _ => digest) 1000 (randomIds.hex 1)
        (.unscheduled hourly) interruptedCycle) = true ∧
      ¬ Resumed (fun _ => none) (fun _ => digest) (randomIds.hex 1)
        (cycleReports randomIds (fun _ => none) (fun _ => digest) 1000 (randomIds.hex 1)
          (.unscheduled hourly) interruptedCycle)
        (Runs.final (CycleState.step randomIds (fun _ => none) (fun _ => digest) 1000
          (randomIds.hex 1)) (.unscheduled hourly) interruptedCycle).tables := by
  obtain ⟨hfinishes, hrestores⟩ := interruptedCycle_finishes
  refine ⟨hfinishes, fun hresumed => hrestores ?_⟩
  have hrun := @resuming_run (fun _ => none) (fun _ => digest) (randomIds.hex 1) randomIds 1000
    hourly interruptedCycle
  exact restoresKept_of_expected hrun.restored hresumed.each

end Sample

end VTrade
