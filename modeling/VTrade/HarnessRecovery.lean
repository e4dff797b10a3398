/-
# The checkpoint of the harness

A generation that has recovered a cycle reads in the checkpoint of the harness whether a
provider may have been called before it.  The orchestrator has written that checkpoint itself
when it asks the port, so what the checkpoint says rests on three writers: a stage is begun
only after the freeze has fixed the cutoff of the cycle, a cycle with a cutoff that fails is
never recovered, and only failing a cycle leaves an error in a checkpoint of the harness.
-/

import VTrade.CycleExclusion
import VTrade.CycleRecovery

namespace VTrade

namespace CycleTables

/-- The cutoff of a cycle is fixed. -/
def CutoffFixed (tables : CycleTables) (cycleId : String) : Prop :=
  ∃ row, tables.cycleRow cycleId = some row ∧ row.dataCutoff.isSome = true

/-- What the checkpoints of a cycle say of its row: a freeze that is completed and a harness
that is begun have a cutoff, and a harness with an error is one of a cycle that has failed. -/
structure HarnessEvidence (tables : CycleTables) (cycleId : String) : Prop where
  freeze : ∀ step, tables.stepRow cycleId .marketFreeze = some step → step.status = .completed →
    tables.CutoffFixed cycleId
  harness : ∀ step, tables.stepRow cycleId .harness = some step → tables.CutoffFixed cycleId
  failed : ∀ step, tables.stepRow cycleId .harness = some step → step.error ≠ none →
    ∃ row, tables.cycleRow cycleId = some row ∧ row.status = .failed

/-- What a transaction keeps of a cycle. -/
structure Advances (cycleId : String) (before after : CycleTables) : Prop where
  row : (before.cycleRow cycleId).isSome = true → (after.cycleRow cycleId).isSome = true
  cutoff : before.CutoffFixed cycleId → after.CutoffFixed cycleId
  harness : (before.stepRow cycleId .harness).isSome = true →
    (after.stepRow cycleId .harness).isSome = true
  evidence : before.HarnessEvidence cycleId → after.HarnessEvidence cycleId

variable {tables : CycleTables} {cycleId : String}

theorem Advances.refl (tables : CycleTables) : Advances cycleId tables tables :=
  ⟨id, id, id, id⟩

theorem Advances.trans {first second third : CycleTables} (h : Advances cycleId first second)
    (h' : Advances cycleId second third) : Advances cycleId first third :=
  ⟨h'.row ∘ h.row, h'.cutoff ∘ h.cutoff, h'.harness ∘ h.harness, h'.evidence ∘ h.evidence⟩

/-- Nothing of the cycle is written. -/
theorem Advances.of_content {after : CycleTables}
    (h : after.content cycleId = tables.content cycleId) : Advances cycleId tables after := by
  have hrow : after.cycleRow cycleId = tables.cycleRow cycleId := congrArg Prod.fst h
  have hstep : after.stepRow cycleId = tables.stepRow cycleId := congrArg Prod.snd h
  constructor
  case row => rw [hrow]; exact id
  case cutoff => unfold CutoffFixed; rw [hrow]; exact id
  case harness => rw [hstep]; exact id
  case evidence =>
    intro hevidence
    constructor
    case freeze => unfold CutoffFixed; rw [hrow, hstep]; exact hevidence.freeze
    case harness => unfold CutoffFixed; rw [hrow, hstep]; exact hevidence.harness
    case failed => rw [hrow, hstep]; exact hevidence.failed

/-! ## One write -/

/-- A row that has not failed is written over, with its cutoff if it has one. -/
theorem setCycle_advances {row old : AgentCycleRow} (hold : tables.cycleRow row.id = some old)
    (hopen : old.status ≠ .failed)
    (hcutoff : old.dataCutoff.isSome = true → row.dataCutoff.isSome = true) :
    Advances cycleId tables (tables.setCycle row) := by
  by_cases hcycle : cycleId = row.id
  · subst hcycle
    have hfixed : tables.CutoffFixed row.id → (tables.setCycle row).CutoffFixed row.id := by
      rintro ⟨found, hfound, hsome⟩
      rw [hold] at hfound
      obtain rfl := Option.some.inj hfound
      exact ⟨row, cycleRow_setCycle_self tables row, hcutoff hsome⟩
    refine ⟨fun _ => ?_, hfixed, id, fun h => ?_⟩
    · rw [cycleRow_setCycle_self]
      rfl
    · refine ⟨fun step hstep hdone => hfixed (h.freeze step hstep hdone),
        fun step hstep => hfixed (h.harness step hstep), fun step hstep herror => ?_⟩
      obtain ⟨found, hfound, hfailed⟩ := h.failed step hstep herror
      rw [hold] at hfound
      obtain rfl := Option.some.inj hfound
      exact absurd hfailed hopen
  · apply Advances.of_content
    exact Prod.ext (cycleRow_setCycle_of_ne tables hcycle) rfl

/-- A cycle that has no row gets one. -/
theorem setCycle_new_advances {row : AgentCycleRow} (hnone : tables.cycleRow row.id = none) :
    Advances cycleId tables (tables.setCycle row) := by
  by_cases hcycle : cycleId = row.id
  · subst hcycle
    have hunfixed : ¬tables.CutoffFixed row.id := by
      rintro ⟨found, hfound, -⟩
      rw [hnone] at hfound
      cases hfound
    refine ⟨fun _ => ?_, fun h => absurd h hunfixed, id, fun h => ?_⟩
    · rw [cycleRow_setCycle_self]
      rfl
    · exact ⟨fun step hstep hdone => absurd (h.freeze step hstep hdone) hunfixed,
        fun step hstep => absurd (h.harness step hstep) hunfixed,
        fun step hstep _ => absurd (h.harness step hstep) hunfixed⟩
  · apply Advances.of_content
    exact Prod.ext (cycleRow_setCycle_of_ne tables hcycle) rfl

theorem updateCycle_advances {fields : CycleRowFields} {old : AgentCycleRow} {after : CycleTables}
    (h : tables.updateCycle fields = .ok after) (hold : tables.cycleRow fields.id = some old)
    (hopen : old.status ≠ .failed)
    (hcutoff : old.dataCutoff.isSome = true → fields.dataCutoff.isSome = true) :
    Advances cycleId tables after := by
  obtain ⟨row, hrow, h⟩ := Checks.bind_eq_ok.mp h
  cases h
  have hfields := AgentCycleRow.make_eq_ok_iff.mp hrow
  exact setCycle_advances (by rw [hfields]; exact hold) hopen (by rw [hfields]; exact hcutoff)

/-- A checkpoint is found where it has been written. -/
theorem stepRow_setStep_of_key {row : StepRow} {stage : CycleStage}
    (hcycle : row.agentCycleId = cycleId) (hstage : row.stage = stage) :
    (tables.setStep row).stepRow cycleId stage = some row := by
  subst hcycle hstage
  exact stepRow_setStep_self tables row

/-- A checkpoint is written that does not complete a freeze; one of the harness is written
over another or after the cutoff is fixed, and with no error but the one it had. -/
theorem setStep_advances {row : StepRow}
    (hfreeze : row.stage = .marketFreeze → row.status ≠ .completed)
    (hfixed : row.stage = .harness → (tables.stepRow row.agentCycleId .harness).isSome = true ∨
      tables.CutoffFixed row.agentCycleId)
    (herror : row.stage = .harness → row.error ≠ none →
      ∃ old, tables.stepRow row.agentCycleId .harness = some old ∧ old.error = row.error) :
    Advances cycleId tables (tables.setStep row) := by
  by_cases hcycle : cycleId = row.agentCycleId
  · subst hcycle
    have hother {stage : CycleStage} (hne : stage ≠ row.stage) :
        (tables.setStep row).stepRow row.agentCycleId stage =
          tables.stepRow row.agentCycleId stage := by
      apply stepRow_setStep_of_ne
      exact fun hkey => hne (Prod.mk.inj hkey).2
    have hself (stage : CycleStage) (hstage : stage = row.stage) :
        (tables.setStep row).stepRow row.agentCycleId stage = some row :=
      stepRow_setStep_of_key rfl hstage.symm
    refine ⟨id, id, fun hsome => ?_, fun h => ?_⟩
    · by_cases hstage : CycleStage.harness = row.stage
      · rw [hself _ hstage]
        rfl
      · rw [hother hstage]
        exact hsome
    · constructor
      case freeze =>
        intro step hstep hdone
        by_cases hstage : CycleStage.marketFreeze = row.stage
        · rw [hself _ hstage] at hstep
          obtain rfl := Option.some.inj hstep
          exact absurd hdone (hfreeze hstage.symm)
        · rw [hother hstage] at hstep
          exact h.freeze step hstep hdone
      case harness =>
        intro step hstep
        by_cases hstage : CycleStage.harness = row.stage
        · rcases hfixed hstage.symm with hsome | hfixed
          · obtain ⟨old, hold⟩ := Option.isSome_iff_exists.mp hsome
            exact h.harness old hold
          · exact hfixed
        · rw [hother hstage] at hstep
          exact h.harness step hstep
      case failed =>
        intro step hstep hsome
        by_cases hstage : CycleStage.harness = row.stage
        · rw [hself _ hstage] at hstep
          obtain rfl := Option.some.inj hstep
          obtain ⟨old, hold, hsame⟩ := herror hstage.symm hsome
          exact h.failed old hold (by rw [hsame]; exact hsome)
        · rw [hother hstage] at hstep
          exact h.failed step hstep hsome
  · apply Advances.of_content
    refine Prod.ext rfl (funext fun stage => ?_)
    apply stepRow_setStep_of_ne
    exact fun hkey => hcycle (Prod.mk.inj hkey).1

theorem cutoffFixed_setCycle (tables : CycleTables) {row : AgentCycleRow} (hid : row.id = cycleId)
    (hcutoff : row.dataCutoff.isSome = true) : (tables.setCycle row).CutoffFixed cycleId := by
  subst hid
  exact ⟨row, cycleRow_setCycle_self tables row, hcutoff⟩

/-- The cutoff of a cycle that has not failed is fixed, and its harness stays as it is. -/
theorem Advances.of_fixed {after : CycleTables} {old : AgentCycleRow}
    (hfixed : after.CutoffFixed cycleId)
    (hharness : after.stepRow cycleId .harness = tables.stepRow cycleId .harness)
    (hold : tables.cycleRow cycleId = some old) (hopen : old.status ≠ .failed) :
    Advances cycleId tables after := by
  constructor
  case row =>
    obtain ⟨row, hrow, -⟩ := hfixed
    exact fun _ => Option.isSome_of_eq_some hrow
  case cutoff => exact fun _ => hfixed
  case harness => rw [hharness]; exact id
  case evidence =>
    intro h
    refine ⟨fun _ _ _ => hfixed, fun _ _ => hfixed, fun step hstep herror => ?_⟩
    rw [hharness] at hstep
    obtain ⟨found, hfound, hfailed⟩ := h.failed step hstep herror
    rw [hold] at hfound
    obtain rfl := Option.some.inj hfound
    exact absurd hfailed hopen

/-! ## What a generation writes -/

variable {claim : CycleClaim}

theorem renewLease_advances {now : Datetime} {duration : ℤ} {after : CycleTables}
    (h : tables.renewLease claim now duration = .ok after) : Advances cycleId tables after := by
  obtain ⟨moment, -, h⟩ := Checks.bind_eq_ok.mp h
  obtain ⟨-, h⟩ := Checks.ite_error_eq_ok.mp h
  obtain ⟨row, hleased, h⟩ := Checks.bind_eq_ok.mp h
  obtain ⟨hrow, hrunning, -, -⟩ := assertLease_eq_ok hleased
  have hid := id_of_cycleRow tables hrow
  exact updateCycle_advances h (by dsimp only; rw [hid]; exact hrow) (by rw [hrunning]; simp) id

/-- The harness is begun after the cutoff has been fixed. -/
theorem beginStage_advances {stage : CycleStage} {inputFingerprint : Sha256} {now : Datetime}
    {after : CycleTables} (h : tables.beginStage claim stage inputFingerprint now = .ok after)
    (hfixed : stage = .harness → tables.CutoffFixed claim.cycleId) :
    Advances cycleId tables after ∧ (after.stepRow claim.cycleId stage).isSome = true := by
  obtain ⟨moment, -, h⟩ := Checks.bind_eq_ok.mp h
  obtain ⟨leased, hleased, h⟩ := Checks.bind_eq_ok.mp h
  split at h
  next hnone =>
    cases h
    refine ⟨setStep_advances (fun _ => by simp) (fun hharness => Or.inr (hfixed hharness))
      fun _ herror => absurd rfl herror, ?_⟩
    exact Option.isSome_of_eq_some (stepRow_setStep_self tables _)
  next row hrow =>
    obtain ⟨-, h⟩ := Checks.ite_error_eq_ok.mp h
    obtain ⟨hcycle, hstage⟩ := key_of_stepRow tables hrow
    split at h
    · cases h
      exact ⟨.refl tables, Option.isSome_of_eq_some hrow⟩
    next hopen =>
      cases h
      refine ⟨setStep_advances (fun _ => by simp) (fun hharness => ?_) fun hharness _ => ?_, ?_⟩
      · dsimp only
        rw [hcycle]
        exact Or.inr (hfixed (hstage.symm.trans hharness))
      · dsimp only at hharness ⊢
        rw [hstage] at hharness
        subst hharness
        exact ⟨row, by rw [hcycle]; exact hrow, by rw [if_pos rfl]⟩
      · exact Option.isSome_of_eq_some (stepRow_setStep_of_key hcycle hstage)

theorem publishFreeze_advances {now cutoff : Instant} {after : CycleTables}
    (h : tables.publishFreeze claim now cutoff = .ok after) : Advances cycleId tables after := by
  obtain ⟨row, hleased, h⟩ := Checks.bind_eq_ok.mp h
  obtain ⟨hrow, hrunning, -, -⟩ := assertLease_eq_ok hleased
  have hid := id_of_cycleRow tables hrow
  split at h
  · exact updateCycle_advances h (by dsimp only; rw [hid]; exact hrow) (by rw [hrunning]; simp)
      fun _ => rfl
  · split at h
    · cases h
      exact .refl tables
    · cases h

/-- A freeze that is completed leaves the cycle with a cutoff. -/
theorem completeStage_advances {fromisoformat : String → Option Datetime} {stage : CycleStage}
    {inputFingerprint : Sha256} {result : StageResult stage} {now : Datetime}
    {registered : Except Raised Unit} {after : CycleTables}
    (h : tables.completeStage fromisoformat claim inputFingerprint result now registered =
      .ok after) :
    Advances cycleId tables after ∧
      (stage = .marketFreeze → after.CutoffFixed claim.cycleId) := by
  obtain ⟨moment, -, h⟩ := Checks.bind_eq_ok.mp h
  obtain ⟨leased, hleased, h⟩ := Checks.bind_eq_ok.mp h
  split at h
  next => cases h
  next row hrow =>
    obtain ⟨hrow, -⟩ := Option.filter_eq_some_iff.mp hrow
    obtain ⟨hcycle, hstage⟩ := key_of_stepRow tables hrow
    obtain ⟨_, -, h⟩ := Checks.bind_eq_ok.mp h
    obtain ⟨leased', hleased', h⟩ := Checks.bind_eq_ok.mp h
    obtain ⟨hrow', hrunning, -, -⟩ := assertLease_eq_ok hleased'
    have hid := id_of_cycleRow _ hrow'
    rw [cycleRow_setStep] at hrow'
    split at h
    next hfreeze =>
      subst hfreeze
      obtain ⟨cutoff, -, h⟩ := Checks.bind_eq_ok.mp h
      unfold publishCutoff at h
      split at h
      · obtain ⟨written, hwritten, h⟩ := Checks.bind_eq_ok.mp h
        cases h
        have hfields := AgentCycleRow.make_eq_ok_iff.mp hwritten
        have hwid : written.id = claim.cycleId := by rw [hfields]; exact hid
        have hself := cutoffFixed_setCycle (tables.setStep { row with
          status := .completed
          output := some (stageCheckpoint result)
          completedAt := some moment
          error := none }) hwid (by rw [hfields]; rfl)
        refine ⟨?_, fun _ => hself⟩
        by_cases hsame : cycleId = claim.cycleId
        · subst hsame
          refine Advances.of_fixed hself ?_ hrow' (by rw [hrunning]; simp)
          rw [stepRow_setCycle, stepRow_setStep_of_ne]
          intro hkey
          have hstage' := (Prod.mk.inj hkey).2
          rw [hstage] at hstage'
          cases hstage'
        · apply Advances.of_content
          refine Prod.ext ?_ (funext fun stage => ?_)
          · exact cycleRow_setCycle_of_ne _ (by rw [hwid]; exact hsame)
          · dsimp only [content]
            rw [stepRow_setCycle]
            apply stepRow_setStep_of_ne
            intro hkey
            exact hsame ((Prod.mk.inj hkey).1.trans hcycle)
      · cases h
    next hother =>
      cases h
      refine ⟨setStep_advances (fun hfreeze => ?_) (fun hharness => ?_)
        (fun _ herror => absurd rfl herror), fun hfreeze => absurd hfreeze hother⟩
      · exact absurd (hstage.symm.trans hfreeze) hother
      · dsimp only at hharness ⊢
        rw [hstage] at hharness
        subst hharness
        rw [hcycle, hrow]
        exact Or.inl rfl

theorem completeCycle_advances {now : Datetime} {summary : JsonObject} {after : CycleTables}
    (h : tables.completeCycle claim now summary = .ok after) : Advances cycleId tables after := by
  obtain ⟨moment, -, h⟩ := Checks.bind_eq_ok.mp h
  obtain ⟨status, -, h⟩ := Checks.bind_eq_ok.mp h
  obtain ⟨row, hleased, h⟩ := Checks.bind_eq_ok.mp h
  obtain ⟨hrow, hrunning, -, -⟩ := assertLease_eq_ok hleased
  have hid := id_of_cycleRow tables hrow
  exact updateCycle_advances h (by dsimp only; rw [hid]; exact hrow) (by rw [hrunning]; simp) id

/-- The checkpoints of a cycle fail that has failed itself, if its cutoff is fixed. -/
theorem failSteps_advances {failed reason : String} {now : Instant}
    (h : tables.CutoffFixed failed →
      ∃ row, tables.cycleRow failed = some row ∧ row.status = .failed) :
    Advances cycleId tables (tables.failSteps failed reason now) := by
  constructor
  case row => exact id
  case cutoff => exact id
  case harness =>
    rw [stepRow_failSteps, Option.isSome_map]
    exact id
  case evidence =>
    intro hevidence
    constructor
    case freeze =>
      intro step hstep hdone
      rw [stepRow_failSteps, Option.map_eq_some_iff] at hstep
      obtain ⟨old, hold, rfl⟩ := hstep
      split at hdone
      · cases hdone
      · exact hevidence.freeze old hold hdone
    case harness =>
      intro step hstep
      rw [stepRow_failSteps, Option.map_eq_some_iff] at hstep
      obtain ⟨old, hold, -⟩ := hstep
      exact hevidence.harness old hold
    case failed =>
      intro step hstep herror
      rw [stepRow_failSteps, Option.map_eq_some_iff] at hstep
      obtain ⟨old, hold, rfl⟩ := hstep
      split at herror
      next hfails =>
        have hcycle := (key_of_stepRow tables hold).1.symm.trans hfails.1
        subst hcycle
        exact h (hevidence.harness old hold)
      next => exact hevidence.failed old hold herror

/-- A harness fails with its cycle, which has a cutoff by then and so has failed for good. -/
theorem failCycle_advances {now : Datetime} {reason : String} {after : CycleTables}
    (h : tables.failCycle claim now reason = .ok after) : Advances cycleId tables after := by
  obtain ⟨moment, -, h⟩ := Checks.bind_eq_ok.mp h
  split at h
  next =>
    cases h
    exact .refl tables
  next row hrow =>
    obtain ⟨hrow, htest⟩ := Option.filter_eq_some_iff.mp hrow
    simp only [Bool.and_eq_true, decide_eq_true_eq] at htest
    obtain ⟨updated, hupdated, h⟩ := Checks.bind_eq_ok.mp h
    cases h
    have hid := id_of_cycleRow tables hrow
    have hadvances : Advances cycleId tables updated :=
      updateCycle_advances hupdated (by dsimp only; rw [hid]; exact hrow)
        (by rw [htest.1]; simp) id
    refine hadvances.trans ?_
    obtain ⟨written, hwritten, hupdated⟩ := Checks.bind_eq_ok.mp hupdated
    cases hupdated
    have hfields := AgentCycleRow.make_eq_ok_iff.mp hwritten
    have hwid : written.id = claim.cycleId := by rw [hfields]; exact hid
    refine failSteps_advances fun ⟨found, hfound, hcutoff⟩ => ⟨found, hfound, ?_⟩
    rw [← hwid, cycleRow_setCycle_self] at hfound
    obtain rfl := Option.some.inj hfound
    rw [hfields] at hcutoff ⊢
    dsimp only at hcutoff ⊢
    rw [if_neg]
    rintro hnone
    rw [hnone] at hcutoff
    cases hcutoff

/-! ## What scheduling writes -/

variable {ids : RandomIds}

/-- A scheduling transaction keeps what the checkpoints say, grants a claim that is no recovery
only on a cycle that had no row, and leaves a cycle that has failed as it is. -/
structure Reschedules (cycleId : String) (before after : CycleTables) (claims : List CycleClaim) :
    Prop where
  advances : Advances cycleId before after
  fresh : ∀ claim ∈ claims, claim.cycleId = cycleId → claim.recovery = false →
    before.cycleRow cycleId = none

theorem Reschedules.of_advances {after : CycleTables} (h : Advances cycleId tables after) :
    Reschedules cycleId tables after [] where
  advances := h
  fresh _ hmem := by cases hmem

theorem Reschedules.trans {first second third : CycleTables} {claims later : List CycleClaim}
    (h : Reschedules cycleId first second claims)
    (h' : Reschedules cycleId second third later) :
    Reschedules cycleId first third (claims ++ later) where
  advances := h.advances.trans h'.advances
  fresh claim hmem hcycle hrecovery := by
    rcases List.mem_append.mp hmem with hmem | hmem
    · exact h.fresh claim hmem hcycle hrecovery
    · have hnone := h'.fresh claim hmem hcycle hrecovery
      by_contra hsome
      have hsome := h.advances.row (Option.isSome_iff_ne_none.mpr hsome)
      rw [hnone] at hsome
      cases hsome

theorem insertCycle_advances {fields : CycleRowFields} {after : CycleTables} {inserted : Bool}
    (h : tables.insertCycle fields = .ok (after, inserted)) : Advances cycleId tables after := by
  rcases insertCycle_eq_ok h with ⟨-, rfl⟩ | ⟨-, hnone, row, hrow, rfl⟩
  · exact .refl after
  · exact setCycle_new_advances (by rw [hrow]; exact hnone)

theorem recordSkippedRange_advances {agentId : String} {first last now : Instant}
    {after : CycleTables} (h : tables.recordSkippedRange ids agentId first last now = .ok after) :
    Advances cycleId tables after := by
  refine Checks.foldlM_invariant (fun _ state => Advances cycleId tables state) []
    (fun seen state index next _ hinv hstep => ?_) h (.refl tables)
  obtain ⟨⟨inserted, done⟩, hinserted, hstep⟩ := Checks.bind_eq_ok.mp hstep
  cases hstep
  have hdrawn : Advances cycleId state { state with drawn := state.drawn + 1 } := .of_content rfl
  exact hinv.trans (hdrawn.trans (insertCycle_advances hinserted))

theorem skipMissed_advances {agentId : String} {first last now : Instant} {after : CycleTables}
    (h : (if first ≤ last then tables.recordSkippedRange ids agentId first last now
      else .ok tables) = .ok after) : Advances cycleId tables after := by
  split at h
  · exact recordSkippedRange_advances h
  · cases h
    exact .refl tables

theorem claimSchedule_reschedules {terms : LeaseTerms} {now : Instant}
    {state next : CycleTables × List CycleClaim} {schedule : ScheduleRow}
    (h : claimSchedule ids terms now state schedule = .ok next) :
    ∃ claims, next.2 = state.2 ++ claims ∧ Reschedules cycleId state.1 next.1 claims := by
  obtain ⟨tables, held⟩ := state
  unfold claimSchedule at h
  dsimp only at h
  obtain ⟨skipped, hskipped, h⟩ := Checks.bind_eq_ok.mp h
  have hrange : Advances cycleId tables skipped := by
    apply skipMissed_advances
    exact hskipped
  have hadvance (middle : CycleTables) (agentId : String) (nextAt : Instant) :
      Advances cycleId middle (middle.advanceSchedule agentId nextAt) := .of_content rfl
  split at h
  next =>
    obtain ⟨⟨inserted, done⟩, hinserted, h⟩ := Checks.bind_eq_ok.mp h
    have hdrawn : Advances cycleId skipped { skipped with drawn := skipped.drawn + 2 } :=
      .of_content rfl
    have hall (agentId : String) (nextAt : Instant) :=
      (hrange.trans (hdrawn.trans (insertCycle_advances hinserted))).trans
        (hadvance inserted agentId nextAt)
    rcases insertCycle_eq_ok hinserted with ⟨rfl, rfl⟩ | ⟨rfl, hnone, row, hrow, rfl⟩
    · cases h
      exact ⟨[], (List.append_nil _).symm, .of_advances (hall _ _)⟩
    · cases h
      refine ⟨_, rfl, hall _ _, fun claim hmem hcycle _ => ?_⟩
      obtain rfl := List.mem_singleton.mp hmem
      subst hcycle
      by_contra hsome
      have hsome := hrange.row (Option.isSome_iff_ne_none.mpr hsome)
      rw [Option.isSome_iff_ne_none] at hsome
      exact hsome hnone
  next =>
    cases h
    exact ⟨[], (List.append_nil _).symm, .of_advances (hrange.trans (hadvance skipped _ _))⟩

theorem claimDueCycles_reschedules {scheduling : Scheduling} {terms : LeaseTerms} {now : Datetime}
    {after : CycleTables} {claims : List CycleClaim}
    (h : tables.claimDueCycles ids scheduling terms now = .ok (after, claims)) :
    Reschedules cycleId tables after claims := by
  obtain ⟨-, h⟩ := Checks.ite_error_eq_ok.mp h
  obtain ⟨-, h⟩ := Checks.ite_error_eq_ok.mp h
  split at h
  · cases h
    exact .of_advances (.refl tables)
  · refine Checks.foldlM_invariant
      (fun _ state => Reschedules cycleId tables state.1 state.2) []
      (fun seen state item done _ hinv hdone => ?_) h (.of_advances (.refl tables))
    obtain ⟨granted, hclaims, hreschedules⟩ := claimSchedule_reschedules hdone
    rw [hclaims]
    exact hinv.trans hreschedules

/-- A freeze that was running fails. -/
theorem failFreeze_advances (tables : CycleTables) (failed : String) (now : Instant) :
    Advances cycleId tables (tables.failFreeze failed now) := by
  unfold failFreeze
  split
  next freeze hfreeze =>
    obtain ⟨-, hstage⟩ := key_of_stepRow tables hfreeze
    split
    · refine setStep_advances (fun _ => by simp) (fun hharness => ?_) fun hharness => ?_
      all_goals
        dsimp only at hharness
        rw [hstage] at hharness
        cases hharness
    · exact .refl tables
  next => exact .refl tables

/-- A cycle that is recovered has not failed. -/
theorem recoverCycle_reschedules {leaseOwner : String} {leaseDuration : ℤ} {now : Instant}
    {state next : CycleTables × List CycleClaim} {row : AgentCycleRow}
    (hfound : state.1.cycleRow row.id = some row) (hopen : row.status ≠ .failed)
    (h : recoverCycle ids leaseOwner leaseDuration now state row = .ok next) :
    ∃ claims, next.2 = state.2 ++ claims ∧ Reschedules cycleId state.1 next.1 claims := by
  obtain ⟨tables, held⟩ := state
  obtain ⟨updated, hupdated, h⟩ := Checks.bind_eq_ok.mp h
  cases h
  obtain ⟨-, hcycles, -, -⟩ := failFreeze_spec { tables with drawn := tables.drawn + 1 } row.id now
  have hdrawn : Advances cycleId tables { tables with drawn := tables.drawn + 1 } :=
    .of_content rfl
  refine ⟨_, rfl, (hdrawn.trans (failFreeze_advances _ row.id now)).trans
    (updateCycle_advances hupdated ?_ hopen id), fun claim hmem _ hrecovery => ?_⟩
  · rw [cycleRow, hcycles]
    exact hfound
  · obtain rfl := List.mem_singleton.mp hmem
    cases hrecovery

theorem foldlM_recoverCycle_reschedules {leaseOwner : String} {leaseDuration : ℤ} {now : Instant}
    {rows : List AgentCycleRow} {state final : CycleTables × List CycleClaim}
    (unique : (rows.map AgentCycleRow.key).Nodup)
    (hfound : ∀ row ∈ rows, state.1.cycleRow row.id = some row ∧ row.status ≠ .failed)
    (h : rows.foldlM (recoverCycle ids leaseOwner leaseDuration now) state = .ok final) :
    ∃ claims, final.2 = state.2 ++ claims ∧ Reschedules cycleId state.1 final.1 claims := by
  induction rows generalizing state with
  | nil =>
      cases h
      exact ⟨[], (List.append_nil _).symm, .of_advances (.refl _)⟩
  | cons row rows ih =>
      obtain ⟨next, hnext, hrest⟩ := Checks.foldlM_cons_eq_ok.mp h
      obtain ⟨hrow, hopen⟩ := hfound row List.mem_cons_self
      obtain ⟨claims, hclaims, hreschedules⟩ := recoverCycle_reschedules hrow hopen hnext
      obtain ⟨-, hothers⟩ := recoverCycle_schedules hrow hnext
      rw [List.map_cons, List.nodup_cons] at unique
      obtain ⟨later, hlater, hrest⟩ := ih unique.2 (fun other hmem => by
        rw [hothers other.id]
        · exact hfound other (List.mem_cons_of_mem _ hmem)
        · intro hsame
          exact unique.1 (List.mem_map.mpr ⟨other, hmem, hsame⟩)) hrest
      refine ⟨claims ++ later, ?_, hreschedules.trans hrest⟩
      rw [hlater, hclaims, List.append_assoc]

/-- Only cycles that run or have been interrupted are recovered. -/
theorem recoverable_open {scheduling : Scheduling} {now : Instant} {staleAfter : Option ℤ}
    {row : AgentCycleRow} (h : row ∈ tables.recoverableCycles scheduling now staleAfter) :
    tables.cycleRow row.id = some row ∧ row.status ≠ .failed := by
  unfold recoverableCycles at h
  rw [List.mem_insertionSort, List.mem_filter] at h
  obtain ⟨hmem, htest⟩ := h
  simp only [Bool.and_eq_true, Bool.or_eq_true, decide_eq_true_eq] at htest
  refine ⟨(KeyedList.lookup_eq_some_iff tables.cycles_unique).mpr ⟨hmem, rfl⟩, ?_⟩
  rcases htest.1.1.1 with hstatus | hstatus
  · simp [hstatus]
  · simp [hstatus]

theorem recoverExpiredCycles_reschedules {scheduling : Scheduling} {terms : LeaseTerms}
    {staleAfter : Option ℤ} {now : Datetime} {after : CycleTables} {claims : List CycleClaim}
    (h : tables.recoverExpiredCycles ids scheduling terms staleAfter now = .ok (after, claims)) :
    Reschedules cycleId tables after claims := by
  obtain ⟨-, h⟩ := Checks.ite_error_eq_ok.mp h
  split at h
  · cases h
    exact .of_advances (.refl tables)
  · obtain ⟨granted, hgranted, hreschedules⟩ := foldlM_recoverCycle_reschedules
      (recoverableCycles_unique scheduling now.instant staleAfter _)
      (fun row hmem => recoverable_open (List.mem_of_mem_take hmem)) h
    rw [List.nil_append] at hgranted
    cases hgranted
    exact hreschedules

/-- What is not done under a claim of the cycle. -/
theorem transact_reschedules {fromisoformat : String → Option Datetime} {request : CycleCall}
    {after : CycleTables} {claims : List CycleClaim}
    (hother : ∀ claim ∈ request.claim?, claim.cycleId ≠ cycleId)
    (h : tables.transact ids fromisoformat request = .ok (after, claims)) :
    Reschedules cycleId tables after claims := by
  cases transact_spec h with
  | scheduled hrequest _ =>
      cases request with
      | claimDue scheduling terms now => exact claimDueCycles_reschedules h
      | recoverExpired scheduling terms staleAfter now => exact recoverExpiredCycles_reschedules h
      | _ => cases hrequest
  | left _ hsame =>
      rw [hsame]
      exact .of_advances (.refl tables)
  | written claim hrequest _ hwrites _ =>
      exact .of_advances (.of_content (hwrites.others cycleId (hother claim hrequest).symm))

end CycleTables

end VTrade
