/-
# What the transactions of a cycle leave

Beside what a transaction may write, what it leaves of a cycle: the checkpoints that are
completed and the cutoff, once it is fixed.  Only completing a stage adds a checkpoint, and
only the freeze fixes the cutoff.
-/

import VTrade.CycleLeases

namespace VTrade

namespace CycleTables

variable {tables : CycleTables} {claim : CycleClaim}

theorem updateCycle_evidence {fields : CycleRowFields} {after : CycleTables}
    (h : tables.updateCycle fields = .ok after) :
    (∀ cycleId, after.completedRow cycleId = tables.completedRow cycleId) ∧
      ∃ row, after.cycleRow fields.id = some row ∧ row.dataCutoff = fields.dataCutoff := by
  obtain ⟨row, hrow, h⟩ := Checks.bind_eq_ok.mp h
  cases h
  have hfields := AgentCycleRow.make_eq_ok_iff.mp hrow
  refine ⟨fun _ => rfl, row, ?_, by rw [hfields]⟩
  have hid : row.id = fields.id := by rw [hfields]
  rw [← hid, cycleRow_setCycle_self]

/-- Writing other fields of the row of a cycle. -/
theorem updateCycle_sameEvidence {fields : CycleRowFields} {row : AgentCycleRow} {cycleId : String}
    {after : CycleTables} (h : tables.updateCycle fields = .ok after)
    (hrow : tables.cycleRow cycleId = some row) (hid : fields.id = row.id)
    (hcutoff : fields.dataCutoff = row.dataCutoff) : SameEvidence cycleId tables after := by
  obtain ⟨hcompleted, row', hrow', hcutoff'⟩ := updateCycle_evidence h
  rw [hid, id_of_cycleRow tables hrow] at hrow'
  refine ⟨hcompleted cycleId, fun old hold => ⟨row', hrow', ?_⟩⟩
  rw [hrow] at hold
  obtain rfl := Option.some.inj hold
  rw [hcutoff', hcutoff]

theorem renewLease_evidence {now : Datetime} {duration : ℤ} {after : CycleTables}
    (h : tables.renewLease claim now duration = .ok after) :
    SameEvidence claim.cycleId tables after := by
  obtain ⟨moment, -, h⟩ := Checks.bind_eq_ok.mp h
  obtain ⟨-, h⟩ := Checks.ite_error_eq_ok.mp h
  obtain ⟨row, hleased, h⟩ := Checks.bind_eq_ok.mp h
  obtain ⟨hrow, -, -, -⟩ := assertLease_eq_ok hleased
  exact updateCycle_sameEvidence h hrow rfl rfl

theorem completeCycle_evidence {now : Datetime} {summary : JsonObject} {after : CycleTables}
    (h : tables.completeCycle claim now summary = .ok after) :
    SameEvidence claim.cycleId tables after := by
  obtain ⟨moment, -, h⟩ := Checks.bind_eq_ok.mp h
  obtain ⟨status, -, h⟩ := Checks.bind_eq_ok.mp h
  obtain ⟨row, hleased, h⟩ := Checks.bind_eq_ok.mp h
  obtain ⟨hrow, -, -, -⟩ := assertLease_eq_ok hleased
  exact updateCycle_sameEvidence h hrow rfl rfl

/-- Failing the checkpoints that are running leaves those that are completed. -/
theorem completedRow_failSteps (tables : CycleTables) (failed reason : String) (now : Instant)
    (cycleId : String) :
    (tables.failSteps failed reason now).completedRow cycleId = tables.completedRow cycleId := by
  funext stage
  rw [completedRow, stepRow_failSteps, completedRow]
  cases hstep : tables.stepRow cycleId stage with
  | none => rfl
  | some row =>
      rw [Option.map_some]
      split
      next hrunning => simp [Option.filter, hrunning.2]
      next => rfl

theorem failCycle_evidence {now : Datetime} {reason : String} {after : CycleTables}
    (h : tables.failCycle claim now reason = .ok after) :
    SameEvidence claim.cycleId tables after := by
  obtain ⟨moment, -, h⟩ := Checks.bind_eq_ok.mp h
  split at h
  next =>
    cases h
    exact .refl _ _
  next row hrow =>
    obtain ⟨updated, hupdated, h⟩ := Checks.bind_eq_ok.mp h
    cases h
    have hrow := (Option.filter_eq_some_iff.mp hrow).1
    refine (updateCycle_sameEvidence hupdated hrow rfl rfl).trans
      ⟨?_, fun old hold => ⟨old, hold, rfl⟩⟩
    apply completedRow_failSteps

/-- Beginning a stage leaves what is completed. -/
theorem beginStage_evidence {stage : CycleStage} {inputFingerprint : Sha256} {now : Datetime}
    {after : CycleTables} (h : tables.beginStage claim stage inputFingerprint now = .ok after) :
    SameEvidence claim.cycleId tables after := by
  obtain ⟨moment, -, h⟩ := Checks.bind_eq_ok.mp h
  obtain ⟨leased, -, h⟩ := Checks.bind_eq_ok.mp h
  split at h
  next hnone =>
    cases h
    refine ⟨funext fun other => ?_, fun old hold => ⟨old, hold, rfl⟩⟩
    apply completedRow_setStep_of_ne
    · simp
    · intro old hold
      dsimp only at hold
      rw [hnone] at hold
      cases hold
  next row hrow =>
    obtain ⟨-, h⟩ := Checks.ite_error_eq_ok.mp h
    obtain ⟨hcycle, hstage⟩ := key_of_stepRow tables hrow
    split at h
    · cases h
      exact .refl _ _
    next hopen =>
      cases h
      refine ⟨funext fun other => ?_, fun old hold => ⟨old, hold, rfl⟩⟩
      apply completedRow_setStep_of_ne
      · simp
      · intro old hold
        dsimp only at hold
        rw [hcycle, hstage, hrow] at hold
        cases hold
        exact hopen

/-- What was completed of a cycle is the same, and its cutoff if it was fixed. -/
structure KeepsEvidence (cycleId : String) (before after : CycleTables) : Prop where
  completed : after.completedRow cycleId = before.completedRow cycleId
  cutoff : ∀ row cutoff, before.cycleRow cycleId = some row → row.dataCutoff = some cutoff →
    ∃ row', after.cycleRow cycleId = some row' ∧ row'.dataCutoff = some cutoff

theorem SameEvidence.keeps {cycleId : String} {before after : CycleTables}
    (h : SameEvidence cycleId before after) : KeepsEvidence cycleId before after where
  completed := h.completed
  cutoff row cutoff hrow hcutoff := by
    obtain ⟨row', hrow', hsame⟩ := h.cutoff row hrow
    exact ⟨row', hrow', hsame.trans hcutoff⟩

theorem publishFreeze_evidence {now cutoff : Instant} {after : CycleTables}
    (h : tables.publishFreeze claim now cutoff = .ok after) :
    KeepsEvidence claim.cycleId tables after := by
  obtain ⟨row, hleased, h⟩ := Checks.bind_eq_ok.mp h
  obtain ⟨hrow, -, -, -⟩ := assertLease_eq_ok hleased
  split at h
  next hnone =>
    refine ⟨(updateCycle_evidence h).1 claim.cycleId, fun old fixed hold hfixed => ?_⟩
    rw [hrow] at hold
    obtain rfl := Option.some.inj hold
    rw [hnone] at hfixed
    cases hfixed
  next =>
    split at h
    · cases h
      exact (SameEvidence.refl _ _).keeps
    · cases h

/-- Completing a stage leaves its checkpoint, and for the freeze the cutoff of the cycle. -/
structure Completes (fromisoformat : String → Option Datetime) (cycleId : String)
    {stage : CycleStage} (result : StageResult stage) (now : Instant)
    (before after : CycleTables) : Prop where
  incomplete : before.completedRow cycleId stage = none
  stored : ∃ row, after.completedRow cycleId stage = some row ∧
    row.output = some (stageCheckpoint result)
  others : ∀ other, other ≠ stage →
    after.completedRow cycleId other = before.completedRow cycleId other
  cutoff : stage = .marketFreeze → ∃ cutoff, marketFreezeCutoff fromisoformat result.payload now =
    .ok cutoff ∧ ∃ row, after.cycleRow cycleId = some row ∧ row.dataCutoff = some cutoff
  same : stage ≠ .marketFreeze → after.cycleRow cycleId = before.cycleRow cycleId

theorem publishCutoff_evidence {row : AgentCycleRow} {cutoff : Instant} {after : CycleTables}
    (h : tables.publishCutoff row cutoff = .ok after) :
    (∀ cycleId, after.completedRow cycleId = tables.completedRow cycleId) ∧
      ∃ row', after.cycleRow row.id = some row' ∧ row'.dataCutoff = some cutoff := by
  unfold publishCutoff at h
  split at h
  · exact updateCycle_evidence h
  · cases h

theorem completedRow_setStep_self {row : StepRow} {cycleId : String} {stage : CycleStage}
    (hcycle : row.agentCycleId = cycleId) (hstage : row.stage = stage)
    (h : row.status = .completed) :
    (tables.setStep row).completedRow cycleId stage = some row := by
  subst hcycle hstage
  exact completedRow_eq_some.mpr ⟨stepRow_setStep_self tables row, h⟩

theorem completedRow_setStep_of_stage_ne {row : StepRow} {cycleId : String}
    {stage other : CycleStage} (hstage : row.stage = stage) (hne : other ≠ stage) :
    (tables.setStep row).completedRow cycleId other = tables.completedRow cycleId other := by
  rw [completedRow, stepRow_setStep_of_ne, completedRow]
  exact fun hkey => hne ((Prod.mk.inj hkey).2.trans hstage)

theorem completeStage_evidence {fromisoformat : String → Option Datetime} {stage : CycleStage}
    {inputFingerprint : Sha256} {result : StageResult stage} {now : Datetime}
    {registered : Except Raised Unit} {after : CycleTables}
    (h : tables.completeStage fromisoformat claim inputFingerprint result now registered =
      .ok after) :
    Completes fromisoformat claim.cycleId result now.instant tables after := by
  obtain ⟨moment, hmoment, h⟩ := Checks.bind_eq_ok.mp h
  obtain rfl := awareInstant_eq_ok hmoment
  obtain ⟨leased, hleased, h⟩ := Checks.bind_eq_ok.mp h
  split at h
  next => cases h
  next row hrow =>
    obtain ⟨hrow, htest⟩ := Option.filter_eq_some_iff.mp hrow
    simp only [Bool.and_eq_true, decide_eq_true_eq] at htest
    obtain ⟨hcycle, hstage⟩ := key_of_stepRow tables hrow
    obtain ⟨_, -, h⟩ := Checks.bind_eq_ok.mp h
    obtain ⟨leased', hleased', h⟩ := Checks.bind_eq_ok.mp h
    have hincomplete : tables.completedRow claim.cycleId stage = none := by
      rw [completedRow, hrow, Option.filter_some_neg]
      rw [htest.1]
      rfl
    split at h
    next hfreeze =>
      obtain ⟨cutoff, hcutoff, h⟩ := Checks.bind_eq_ok.mp h
      obtain ⟨hcompleted, row', hrow', hcutoff'⟩ := publishCutoff_evidence h
      rw [id_of_cycleRow _ (assertLease_eq_ok hleased').1] at hrow'
      constructor
      case incomplete => exact hincomplete
      case stored =>
        rw [hcompleted]
        exact ⟨_, completedRow_setStep_self hcycle hstage rfl, rfl⟩
      case others =>
        intro other hne
        rw [hcompleted]
        exact completedRow_setStep_of_stage_ne hstage hne
      case cutoff => exact fun _ => ⟨cutoff, hcutoff, row', hrow', hcutoff'⟩
      case same => exact fun hne => absurd hfreeze hne
    next hfreeze =>
      cases h
      constructor
      case incomplete => exact hincomplete
      case stored => exact ⟨_, completedRow_setStep_self hcycle hstage rfl, rfl⟩
      case others => exact fun other hne => completedRow_setStep_of_stage_ne hstage hne
      case cutoff => exact fun heq => absurd heq hfreeze
      case same => exact fun _ => rfl

end CycleTables

end VTrade
