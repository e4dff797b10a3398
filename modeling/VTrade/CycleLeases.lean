/-
# Who changes a cycle

Workers claim, recover, renew, begin and complete stages, fail and complete cycles, in any
order and at any times.  A cycle and its checkpoints are fenced by the token of the
generation that claimed or recovered the cycle last: what another generation does to them
comes to nothing.  A checkpoint that is completed stays as it is.
-/

import VTrade.Accounting
import VTrade.Cycles
import VTrade.Lib.Fence
import VTrade.Lib.Runs

namespace VTrade

/-- A transaction that a worker asks the repository for. -/
inductive CycleCall
  | claimDue (scheduling : CycleTables.Scheduling) (terms : CycleTables.LeaseTerms) (now : Datetime)
  | recoverExpired (scheduling : CycleTables.Scheduling) (terms : CycleTables.LeaseTerms)
      (staleAfter : Option ℤ) (now : Datetime)
  | renewLease (claim : CycleClaim) (now : Datetime) (duration : ℤ)
  | beginStage (claim : CycleClaim) (stage : CycleStage) (inputFingerprint : Sha256)
      (now : Datetime)
  | completeStage (claim : CycleClaim) (stage : CycleStage) (inputFingerprint : Sha256)
      (result : StageResult stage) (now : Datetime) (registered : Except Raised Unit)
  | failCycle (claim : CycleClaim) (now : Datetime) (reason : String)
  | completeCycle (claim : CycleClaim) (now : Datetime) (summary : JsonObject)

/-- The claim that a transaction is made under. -/
def CycleCall.claim? : CycleCall → Option CycleClaim
  | .claimDue _ _ _ | .recoverExpired _ _ _ _ => none
  | .renewLease claim _ _ => some claim
  | .beginStage claim _ _ _ => some claim
  | .completeStage claim _ _ _ _ _ => some claim
  | .failCycle claim _ _ => some claim
  | .completeCycle claim _ _ => some claim

/-- The time of a transaction that needs a lease. -/
def CycleCall.lease? : CycleCall → Option Datetime
  | .renewLease _ now _ => some now
  | .beginStage _ _ _ now => some now
  | .completeStage _ _ _ _ now _ => some now
  | .completeCycle _ now _ => some now
  | .claimDue _ _ _ | .recoverExpired _ _ _ _ | .failCycle _ _ _ => none

namespace CycleTables

variable (ids : RandomIds) (fromisoformat : String → Option Datetime)

/-- What a transaction leads to, unless it raises, and the claims that it grants. -/
def transact (tables : CycleTables) :
    CycleCall → Except Raised (CycleTables × List CycleClaim)
  | .claimDue scheduling terms now => tables.claimDueCycles ids scheduling terms now
  | .recoverExpired scheduling terms staleAfter now =>
      tables.recoverExpiredCycles ids scheduling terms staleAfter now
  | .renewLease claim now duration => (tables.renewLease claim now duration).map (·, [])
  | .beginStage claim stage inputFingerprint now =>
      (tables.beginStage claim stage inputFingerprint now).map (·, [])
  | .completeStage claim _ inputFingerprint result now registered =>
      (tables.completeStage fromisoformat claim inputFingerprint result now registered).map (·, [])
  | .failCycle claim now reason => (tables.failCycle claim now reason).map (·, [])
  | .completeCycle claim now summary => (tables.completeCycle claim now summary).map (·, [])

/-- A transaction that raises is rolled back. -/
def call (tables : CycleTables) (request : CycleCall) :
    CycleTables × Except Raised (List CycleClaim) :=
  match tables.transact ids fromisoformat request with
  | .ok (after, claims) => (after, .ok claims)
  | .error error => (tables, .error error)

/-! ## What the holder of a lease writes -/

/-- What a cycle has in the tables: its row and its checkpoints. -/
def content (tables : CycleTables) (cycleId : String) :
    Option AgentCycleRow × (CycleStage → Option StepRow) :=
  (tables.cycleRow cycleId, tables.stepRow cycleId)

/-- The token under which a cycle is held. -/
def holder (tables : CycleTables) (cycleId : String) : Option String :=
  (tables.cycleRow cycleId).bind fun row => row.leaseOwner

/-- Completed checkpoints stay as they are. -/
def KeepsCompleted (before after : CycleTables) : Prop :=
  ∀ cycleId stage row, before.stepRow cycleId stage = some row → row.status = .completed →
    after.stepRow cycleId stage = some row

theorem KeepsCompleted.trans {first second third : CycleTables} (h : first.KeepsCompleted second)
    (h' : second.KeepsCompleted third) : first.KeepsCompleted third :=
  fun cycleId stage row hrow hcompleted =>
    h' cycleId stage row (h cycleId stage row hrow hcompleted) hcompleted

/-- The checkpoint of a stage that is completed. -/
def completedRow (tables : CycleTables) (cycleId : String) (stage : CycleStage) :
    Option StepRow :=
  (tables.stepRow cycleId stage).filter fun row => decide (row.status = .completed)

/-- What was completed of a cycle and its cutoff are the same. -/
structure SameEvidence (cycleId : String) (before after : CycleTables) : Prop where
  completed : after.completedRow cycleId = before.completedRow cycleId
  cutoff : ∀ row, before.cycleRow cycleId = some row →
    ∃ row', after.cycleRow cycleId = some row' ∧ row'.dataCutoff = row.dataCutoff

theorem SameEvidence.refl (cycleId : String) (tables : CycleTables) :
    SameEvidence cycleId tables tables := ⟨rfl, fun row hrow => ⟨row, hrow, rfl⟩⟩

theorem SameEvidence.trans {cycleId : String} {first second third : CycleTables}
    (h : SameEvidence cycleId first second) (h' : SameEvidence cycleId second third) :
    SameEvidence cycleId first third where
  completed := h'.completed.trans h.completed
  cutoff row hrow := by
    obtain ⟨row', hrow', hsame⟩ := h.cutoff row hrow
    obtain ⟨row'', hrow'', hsame'⟩ := h'.cutoff row' hrow'
    exact ⟨row'', hrow'', hsame'.trans hsame⟩

theorem SameEvidence.of_content {cycleId : String} {before after : CycleTables}
    (h : after.content cycleId = before.content cycleId) : SameEvidence cycleId before after where
  completed := by
    funext stage
    have hstep : after.stepRow cycleId = before.stepRow cycleId := congrArg Prod.snd h
    rw [completedRow, completedRow, hstep]
  cutoff row hrow := by
    have hcycle : after.cycleRow cycleId = before.cycleRow cycleId := congrArg Prod.fst h
    exact ⟨row, hcycle.trans hrow, rfl⟩

theorem completedRow_eq_some {tables : CycleTables} {cycleId : String} {stage : CycleStage}
    {row : StepRow} : tables.completedRow cycleId stage = some row ↔
      tables.stepRow cycleId stage = some row ∧ row.status = .completed := by
  rw [completedRow, Option.filter_eq_some_iff, decide_eq_true_iff]

/-- Writing a checkpoint that is not completed, over one that is not. -/
theorem completedRow_setStep_of_ne {tables : CycleTables} {row : StepRow}
    (hrow : row.status ≠ .completed)
    (hopen : ∀ old, tables.stepRow row.agentCycleId row.stage = some old → old.status ≠ .completed)
    (cycleId : String) (stage : CycleStage) :
    (tables.setStep row).completedRow cycleId stage = tables.completedRow cycleId stage := by
  by_cases hkey : (cycleId, stage) = row.key
  · obtain ⟨rfl, rfl⟩ := Prod.mk.inj hkey
    rw [completedRow, stepRow_setStep_self, completedRow, Option.filter_some_neg (by simpa using hrow)]
    symm
    rw [Option.filter_eq_none_iff]
    simpa using hopen
  · rw [completedRow, stepRow_setStep_of_ne tables hkey, completedRow]

theorem KeepsCompleted.of_sameEvidence {before after : CycleTables}
    (h : ∀ cycleId, SameEvidence cycleId before after) : before.KeepsCompleted after := by
  intro cycleId stage row hrow hcompleted
  apply (completedRow_eq_some.mp _).1
  rw [(h cycleId).completed]
  exact completedRow_eq_some.mpr ⟨hrow, hcompleted⟩

/-- The writes of one generation on its cycle. -/
structure WritesUnder (claim : CycleClaim) (before after : CycleTables) : Prop where
  others : ∀ cycleId, cycleId ≠ claim.cycleId → after.content cycleId = before.content cycleId
  kept : before.KeepsCompleted after
  holder : ∀ token ∈ after.holder claim.cycleId, token = claim.leaseOwner
  drawn : after.drawn = before.drawn

variable {tables : CycleTables} {claim : CycleClaim}

theorem WritesUnder.refl (h : tables.holder claim.cycleId = some claim.leaseOwner) :
    WritesUnder claim tables tables where
  others _ _ := rfl
  kept _ _ _ hrow _ := hrow
  holder token htoken := by
    rw [h] at htoken
    exact (Option.some.inj htoken).symm
  drawn := rfl

theorem WritesUnder.trans {first second third : CycleTables} (h : WritesUnder claim first second)
    (h' : WritesUnder claim second third) : WritesUnder claim first third where
  others cycleId hne := (h'.others cycleId hne).trans (h.others cycleId hne)
  kept := h.kept.trans h'.kept
  holder := h'.holder
  drawn := h'.drawn.trans h.drawn

/-- Writing a checkpoint that is not completed. -/
theorem setStep_writesUnder {row : StepRow} (hcycle : row.agentCycleId = claim.cycleId)
    (hholder : tables.holder claim.cycleId = some claim.leaseOwner)
    (hopen : ∀ old, tables.stepRow claim.cycleId row.stage = some old → old.status ≠ .completed) :
    WritesUnder claim tables (tables.setStep row) where
  others cycleId hne := by
    refine Prod.ext rfl (funext fun stage => ?_)
    apply stepRow_setStep_of_ne
    intro hkey
    exact hne ((Prod.mk.inj hkey).1.trans hcycle)
  kept cycleId stage old hold hcompleted := by
    rw [stepRow_setStep_of_ne]
    · exact hold
    · intro hkey
      obtain ⟨rfl, rfl⟩ := Prod.mk.inj hkey
      rw [hcycle] at hold
      exact hopen old hold hcompleted
  holder token htoken := by
    unfold CycleTables.holder at htoken hholder
    rw [cycleRow_setStep, hholder] at htoken
    exact (Option.some.inj htoken).symm
  drawn := rfl

/-- Writing the row of the cycle, which stays with its generation or is given up. -/
theorem updateCycle_writesUnder {fields : CycleRowFields} {after : CycleTables}
    (h : tables.updateCycle fields = .ok after) (hid : fields.id = claim.cycleId)
    (howner : ∀ token ∈ fields.leaseOwner, token = claim.leaseOwner) :
    WritesUnder claim tables after := by
  obtain ⟨row, hrow, h⟩ := Checks.bind_eq_ok.mp h
  cases h
  have hfields := AgentCycleRow.make_eq_ok_iff.mp hrow
  have hid' : row.id = claim.cycleId := by rw [hfields, hid]
  constructor
  case others =>
    intro cycleId hne
    refine Prod.ext ?_ rfl
    apply cycleRow_setCycle_of_ne
    exact fun hsame => hne (hsame.trans hid')
  case kept => exact fun _ _ _ hold _ => hold
  case holder =>
    intro token htoken
    unfold CycleTables.holder at htoken
    rw [← hid', cycleRow_setCycle_self, Option.bind_some, hfields] at htoken
    exact howner token htoken
  case drawn => rfl

theorem awareInstant_eq_ok {now : Datetime} {moment : Instant} (h : awareInstant now = .ok moment) :
    moment = now.instant := by
  unfold awareInstant at h
  split at h
  · exact (Except.ok.inj h).symm
  · cases h

/-- A generation holds a cycle under a lease that has not expired. -/
def Holds (tables : CycleTables) (claim : CycleClaim) (now : Datetime) : Prop :=
  ∃ row, tables.cycleRow claim.cycleId = some row ∧ row.status = .running ∧
    row.leaseOwner = some claim.leaseOwner ∧ ∃ expires ∈ row.leaseExpiresAt, now.instant < expires

theorem assertLease_eq_ok {now : Instant} {row : AgentCycleRow}
    (h : tables.assertLease claim now = .ok row) :
    tables.cycleRow claim.cycleId = some row ∧ row.status = .running ∧
      row.leaseOwner = some claim.leaseOwner ∧ ∃ expires ∈ row.leaseExpiresAt, now < expires := by
  unfold assertLease leasedRow at h
  split at h
  next found hfound =>
    obtain rfl := Except.ok.inj h
    obtain ⟨hrow, htest⟩ := Option.filter_eq_some_iff.mp hfound
    simp only [Bool.and_eq_true, decide_eq_true_eq, Option.any_eq_true] at htest
    exact ⟨hrow, htest.1.1, htest.1.2, htest.2⟩
  next => cases h

theorem holder_of_assertLease {now : Instant} {row : AgentCycleRow}
    (h : tables.assertLease claim now = .ok row) :
    tables.holder claim.cycleId = some claim.leaseOwner := by
  obtain ⟨hrow, -, howner, -⟩ := assertLease_eq_ok h
  rw [holder, hrow, Option.bind_some, howner]

theorem renewLease_spec {now : Datetime} {duration : ℤ} {after : CycleTables}
    (h : tables.renewLease claim now duration = .ok after) :
    tables.Holds claim now ∧ WritesUnder claim tables after := by
  obtain ⟨moment, hmoment, h⟩ := Checks.bind_eq_ok.mp h
  obtain rfl := awareInstant_eq_ok hmoment
  obtain ⟨-, h⟩ := Checks.ite_error_eq_ok.mp h
  obtain ⟨row, hleased, h⟩ := Checks.bind_eq_ok.mp h
  obtain ⟨hrow, hrunning, howner, hexpires⟩ := assertLease_eq_ok hleased
  refine ⟨⟨row, hrow, hrunning, howner, hexpires⟩, updateCycle_writesUnder h ?_ ?_⟩
  · exact id_of_cycleRow tables hrow
  · intro token htoken
    dsimp only at htoken
    rw [howner] at htoken
    exact (Option.some.inj htoken).symm

theorem beginStage_spec {stage : CycleStage} {inputFingerprint : Sha256} {now : Datetime}
    {after : CycleTables} (h : tables.beginStage claim stage inputFingerprint now = .ok after) :
    tables.Holds claim now ∧ WritesUnder claim tables after := by
  obtain ⟨moment, hmoment, h⟩ := Checks.bind_eq_ok.mp h
  obtain rfl := awareInstant_eq_ok hmoment
  obtain ⟨leased, hleased, h⟩ := Checks.bind_eq_ok.mp h
  have hholder := holder_of_assertLease hleased
  refine ⟨⟨leased, assertLease_eq_ok hleased⟩, ?_⟩
  split at h
  next hnone =>
    cases h
    refine setStep_writesUnder rfl hholder fun old hold => ?_
    rw [hnone] at hold
    cases hold
  next row hrow =>
    obtain ⟨-, h⟩ := Checks.ite_error_eq_ok.mp h
    obtain ⟨hcycle, hstage⟩ := key_of_stepRow tables hrow
    split at h
    · cases h
      exact .refl hholder
    next hopen =>
      cases h
      refine setStep_writesUnder hcycle hholder fun old hold => ?_
      dsimp only at hold
      rw [hstage, hrow] at hold
      cases hold
      exact hopen

theorem publishCutoff_writesUnder {row : AgentCycleRow} {cutoff : Instant} {after : CycleTables}
    (h : tables.publishCutoff row cutoff = .ok after) (hid : row.id = claim.cycleId)
    (howner : row.leaseOwner = some claim.leaseOwner) : WritesUnder claim tables after := by
  unfold publishCutoff at h
  split at h
  · refine updateCycle_writesUnder h hid fun token htoken => ?_
    dsimp only at htoken
    rw [howner] at htoken
    exact (Option.some.inj htoken).symm
  · cases h

theorem completeStage_spec {fromisoformat : String → Option Datetime} {stage : CycleStage}
    {inputFingerprint : Sha256} {result : StageResult stage} {now : Datetime}
    {registered : Except Raised Unit} {after : CycleTables}
    (h : tables.completeStage fromisoformat claim inputFingerprint result now registered =
      .ok after) :
    tables.Holds claim now ∧ WritesUnder claim tables after := by
  obtain ⟨moment, hmoment, h⟩ := Checks.bind_eq_ok.mp h
  obtain rfl := awareInstant_eq_ok hmoment
  obtain ⟨leased, hleased, h⟩ := Checks.bind_eq_ok.mp h
  refine ⟨⟨leased, assertLease_eq_ok hleased⟩, ?_⟩
  split at h
  next => cases h
  next row hrow =>
    obtain ⟨hrow, htest⟩ := Option.filter_eq_some_iff.mp hrow
    simp only [Bool.and_eq_true, decide_eq_true_eq] at htest
    obtain ⟨hcycle, hstage⟩ := key_of_stepRow tables hrow
    obtain ⟨_, -, h⟩ := Checks.bind_eq_ok.mp h
    obtain ⟨leased', hleased', h⟩ := Checks.bind_eq_ok.mp h
    obtain ⟨hrow', -, howner', -⟩ := assertLease_eq_ok hleased'
    have hwrites : WritesUnder claim tables (tables.setStep { row with
        status := .completed
        output := some (stageCheckpoint result)
        completedAt := some now.instant
        error := none }) := by
      refine setStep_writesUnder hcycle (holder_of_assertLease hleased) fun old hold => ?_
      dsimp only at hold
      rw [hstage, hrow] at hold
      cases hold
      rw [htest.1]
      simp
    split at h
    · obtain ⟨cutoff, -, h⟩ := Checks.bind_eq_ok.mp h
      exact hwrites.trans (publishCutoff_writesUnder h (id_of_cycleRow _ hrow') howner')
    · cases h
      exact hwrites

theorem completeCycle_spec {now : Datetime} {summary : JsonObject} {after : CycleTables}
    (h : tables.completeCycle claim now summary = .ok after) :
    tables.Holds claim now ∧ WritesUnder claim tables after := by
  obtain ⟨moment, hmoment, h⟩ := Checks.bind_eq_ok.mp h
  obtain rfl := awareInstant_eq_ok hmoment
  obtain ⟨status, -, h⟩ := Checks.bind_eq_ok.mp h
  obtain ⟨row, hleased, h⟩ := Checks.bind_eq_ok.mp h
  have hleased' := assertLease_eq_ok hleased
  refine ⟨⟨row, hleased'⟩, updateCycle_writesUnder h (id_of_cycleRow tables hleased'.1) ?_⟩
  intro token htoken
  cases htoken

/-- The running checkpoints of a cycle fail; the others stay. -/
theorem stepRow_failSteps (tables : CycleTables) (failed reason : String) (now : Instant)
    (cycleId : String) (stage : CycleStage) :
    (tables.failSteps failed reason now).stepRow cycleId stage =
      (tables.stepRow cycleId stage).map fun row =>
        if row.agentCycleId = failed ∧ row.status = .running then
          { row with status := .failed, error := some reason, completedAt := some now }
        else row := by
  unfold stepRow failSteps
  rw [KeyedList.lookup_map]
  congr 1
  unfold KeyedList.lookup
  congr 1
  funext row
  simp only [Function.comp_apply, StepRow.key]
  split <;> rfl

/-- Failing a cycle changes nothing when it is not held. -/
theorem failCycle_spec {now : Datetime} {reason : String} {after : CycleTables}
    (h : tables.failCycle claim now reason = .ok after) :
    after = tables ∨ tables.holder claim.cycleId = some claim.leaseOwner ∧
      WritesUnder claim tables after := by
  obtain ⟨moment, hmoment, h⟩ := Checks.bind_eq_ok.mp h
  obtain rfl := awareInstant_eq_ok hmoment
  split at h
  next =>
    cases h
    exact Or.inl rfl
  next row hrow =>
    obtain ⟨hrow, htest⟩ := Option.filter_eq_some_iff.mp hrow
    simp only [Bool.and_eq_true, decide_eq_true_eq] at htest
    obtain ⟨updated, hupdated, h⟩ := Checks.bind_eq_ok.mp h
    cases h
    have hwrites : WritesUnder claim tables updated :=
      updateCycle_writesUnder hupdated (id_of_cycleRow tables hrow) fun token htoken => by
        cases htoken
    refine Or.inr ⟨by rw [holder, hrow, Option.bind_some, htest.2], hwrites.trans ?_⟩
    constructor
    case others =>
      intro cycleId hne
      refine Prod.ext rfl (funext fun stage => ?_)
      dsimp only [content]
      rw [stepRow_failSteps]
      cases hstep : updated.stepRow cycleId stage with
      | none => rfl
      | some step =>
          rw [Option.map_some, if_neg]
          rw [(key_of_stepRow updated hstep).1]
          exact fun hboth => hne hboth.1
    case kept =>
      intro cycleId stage step hstep hcompleted
      rw [stepRow_failSteps, hstep, Option.map_some, if_neg]
      rw [hcompleted]
      simp
    case holder => exact hwrites.holder
    case drawn => rfl

/-! ## What scheduling writes -/

/-- A cycle that has no row. -/
def Unmade (content : Option AgentCycleRow × (CycleStage → Option StepRow)) : Prop := content.1 = none

/-- A cycle with its holder. -/
def fenced (tables : CycleTables) (cycleId : String) :
    Option String × Option AgentCycleRow × (CycleStage → Option StepRow) :=
  (tables.holder cycleId, tables.content cycleId)

end CycleTables

/-- The tokens that claims grant for a cycle. -/
def grantsOf (cycleId : String) (claims : List CycleClaim) : List (Option String) :=
  claims.map fun claim => if claim.cycleId = cycleId then some claim.leaseOwner else none

/-- The tokens of claims are made of identifiers drawn from one number on up to another, and
no two are alike. -/
structure DrawnTokens (ids : RandomIds) (first last : ℕ) (claims : List CycleClaim) : Prop where
  le : first ≤ last
  drawn : ∀ claim ∈ claims, ∃ n workerOwner, first ≤ n ∧ n < last ∧
    claim.leaseOwner = newLeaseOwner ids n workerOwner
  unique : (claims.map fun claim => claim.leaseOwner).Nodup

theorem DrawnTokens.none {ids : RandomIds} {first last : ℕ} (h : first ≤ last) :
    DrawnTokens ids first last [] := ⟨h, by simp, by simp⟩

theorem DrawnTokens.append {ids : RandomIds} {first middle last : ℕ}
    {claims later : List CycleClaim} (h : DrawnTokens ids first middle claims)
    (h' : DrawnTokens ids middle last later) : DrawnTokens ids first last (claims ++ later) where
  le := h.le.trans h'.le
  drawn claim hmem := by
    rcases List.mem_append.mp hmem with hmem | hmem
    · obtain ⟨n, workerOwner, hle, hlt, howner⟩ := h.drawn claim hmem
      exact ⟨n, workerOwner, hle, hlt.trans_le h'.le, howner⟩
    · obtain ⟨n, workerOwner, hle, hlt, howner⟩ := h'.drawn claim hmem
      exact ⟨n, workerOwner, h.le.trans hle, hlt, howner⟩
  unique := by
    rw [List.map_append]
    refine List.Nodup.append h.unique h'.unique ?_
    intro token hmem hmem'
    obtain ⟨claim, hclaim, rfl⟩ := List.mem_map.mp hmem
    obtain ⟨claim', hclaim', hsame⟩ := List.mem_map.mp hmem'
    obtain ⟨n, _, -, hlt, howner⟩ := h.drawn claim hclaim
    obtain ⟨n', _, hle, -, howner'⟩ := h'.drawn claim' hclaim'
    rw [howner, howner'] at hsame
    have := newLeaseOwner_inj ids hsame
    omega

namespace CycleTables

variable {ids : RandomIds} {tables : CycleTables}

/-- The writes of a scheduling transaction that grants some claims. -/
structure Schedules (ids : RandomIds) (before after : CycleTables) (claims : List CycleClaim) :
    Prop where
  evidence : ∀ cycleId, SameEvidence cycleId before after
  grants : ∀ cycleId, Fence.Granting Unmade (before.fenced cycleId) (after.fenced cycleId)
    (Fence.lastGrant (grantsOf cycleId claims))
  tokens : DrawnTokens ids before.drawn after.drawn claims
  cutoffs : ∀ claim ∈ claims, ∃ row, after.cycleRow claim.cycleId = some row ∧
    row.dataCutoff = claim.dataCutoff

theorem Schedules.refl (tables : CycleTables) : Schedules ids tables tables [] where
  evidence cycleId := .refl cycleId tables
  grants cycleId := .idle (tables.fenced cycleId)
  tokens := .none le_rfl
  cutoffs _ hmem := by cases hmem

theorem Schedules.trans {first second third : CycleTables} {claims later : List CycleClaim}
    (h : Schedules ids first second claims) (h' : Schedules ids second third later) :
    Schedules ids first third (claims ++ later) where
  evidence cycleId := (h.evidence cycleId).trans (h'.evidence cycleId)
  grants cycleId := by
    rw [grantsOf, List.map_append, Fence.lastGrant_append]
    exact (h.grants cycleId).trans (h'.grants cycleId)
  tokens := h.tokens.append h'.tokens
  cutoffs claim hmem := by
    rcases List.mem_append.mp hmem with hmem | hmem
    · obtain ⟨row, hrow, hcutoff⟩ := h.cutoffs claim hmem
      obtain ⟨row', hrow', hsame⟩ := (h'.evidence claim.cycleId).cutoff row hrow
      exact ⟨row', hrow', hsame.trans hcutoff⟩
    · exact h'.cutoffs claim hmem

/-- Nothing of a cycle is written. -/
theorem schedules_of_content {after : CycleTables}
    (hcontent : ∀ cycleId, after.content cycleId = tables.content cycleId)
    (hdrawn : tables.drawn ≤ after.drawn) : Schedules ids tables after [] := by
  have hrow (cycleId : String) : after.cycleRow cycleId = tables.cycleRow cycleId :=
    congrArg Prod.fst (hcontent cycleId)
  constructor
  case evidence => exact fun cycleId => .of_content (hcontent cycleId)
  case grants =>
    intro cycleId
    have hsame : after.fenced cycleId = tables.fenced cycleId := by
      rw [fenced, fenced, holder, holder, hcontent, hrow]
    rw [hsame]
    exact .idle _
  case tokens => exact .none hdrawn
  case cutoffs => exact fun _ hmem => by cases hmem

theorem insertCycle_eq_ok {fields : CycleRowFields} {after : CycleTables} {inserted : Bool}
    (h : tables.insertCycle fields = .ok (after, inserted)) :
    inserted = false ∧ after = tables ∨
      inserted = true ∧ tables.cycleRow fields.id = none ∧
        ∃ row : AgentCycleRow, row.toCycleRowFields = fields ∧ after = tables.setCycle row := by
  unfold insertCycle at h
  split at h
  · cases h
    exact Or.inl ⟨rfl, rfl⟩
  · split at h
    · cases h
    next hnone =>
      obtain ⟨row, hrow, h⟩ := Checks.bind_eq_ok.mp h
      cases h
      exact Or.inr ⟨rfl, by simpa using hnone, row, AgentCycleRow.make_eq_ok_iff.mp hrow, rfl⟩

/-- A row that is made for a cycle has no holder, or the one that is granted it. -/
theorem setCycle_grants {row : AgentCycleRow} {granted : Option String}
    (hunmade : row.leaseOwner = none → tables.cycleRow row.id = none)
    (hgranted : granted = row.leaseOwner) (cycleId : String) :
    Fence.Granting Unmade (tables.fenced cycleId) ((tables.setCycle row).fenced cycleId)
      (if row.id = cycleId then granted else none) := by
  by_cases hcycle : row.id = cycleId
  · subst hcycle
    rw [if_pos rfl, hgranted]
    have hholder : (tables.setCycle row).holder row.id = row.leaseOwner := by
      rw [holder, cycleRow_setCycle_self, Option.bind_some]
    unfold fenced
    rw [hholder]
    cases howner : row.leaseOwner with
    | none =>
        have hnone := hunmade howner
        have hbefore : tables.holder row.id = none := by rw [holder, hnone, Option.bind_none]
        rw [hbefore]
        exact .make _ _ hnone
    | some token => exact .grant _ token _
  · rw [if_neg hcycle]
    have hrow : (tables.setCycle row).cycleRow cycleId = tables.cycleRow cycleId :=
      cycleRow_setCycle_of_ne tables (Ne.symm hcycle)
    have hsame : (tables.setCycle row).fenced cycleId = tables.fenced cycleId := by
      rw [fenced, fenced, holder, holder, content, content, hrow]
      rfl
    rw [hsame]
    exact .idle _

/-- A row that is new leaves what was completed as it is. -/
theorem setCycle_sameEvidence {row : AgentCycleRow} (hunmade : tables.cycleRow row.id = none)
    (cycleId : String) : SameEvidence cycleId tables (tables.setCycle row) where
  completed := rfl
  cutoff old hold := by
    refine ⟨old, ?_, rfl⟩
    rw [cycleRow_setCycle_of_ne]
    · exact hold
    · rintro rfl
      rw [hunmade] at hold
      cases hold

/-- Hours that were missed become cycles that nobody holds. -/
theorem recordSkippedRange_schedules {agentId : String} {first last now : Instant}
    {after : CycleTables} (h : tables.recordSkippedRange ids agentId first last now = .ok after) :
    Schedules ids tables after [] := by
  refine Checks.foldlM_invariant (fun _ state => Schedules ids tables state []) [] ?_ h (.refl tables)
  · intro seen state index next hmem hinv hstep
    obtain ⟨⟨inserted, done⟩, hinserted, hstep⟩ := Checks.bind_eq_ok.mp hstep
    cases hstep
    refine hinv.trans ?_
    have hdrawn : Schedules ids state { state with drawn := state.drawn + 1 } [] :=
      schedules_of_content (fun _ => rfl) (Nat.le_succ _)
    rcases insertCycle_eq_ok hinserted with ⟨-, rfl⟩ | ⟨-, hnone, row, hrow, rfl⟩
    · exact hdrawn
    · refine hdrawn.trans ⟨setCycle_sameEvidence (by rw [hrow]; exact hnone), fun cycleId => ?_,
        .none le_rfl, fun _ hmem => by cases hmem⟩
      have hgrants := @setCycle_grants { state with drawn := state.drawn + 1 } row none
        (fun _ => by rw [hrow]; exact hnone) (by rw [hrow]; rfl) cycleId
      rw [ite_self] at hgrants
      exact hgrants

theorem skipMissed_schedules {agentId : String} {first last now : Instant} {after : CycleTables}
    (h : (if first ≤ last then tables.recordSkippedRange ids agentId first last now
      else .ok tables) = .ok after) : Schedules ids tables after [] := by
  split at h
  · exact recordSkippedRange_schedules h
  · cases h
    exact .refl tables

theorem advanceSchedule_schedules (tables : CycleTables) (agentId : String) (nextAt : Instant) :
    Schedules ids tables (tables.advanceSchedule agentId nextAt) [] :=
  schedules_of_content (fun _ => rfl) le_rfl

/-- A schedule that is due is claimed with a new token. -/
theorem claimSchedule_schedules {terms : LeaseTerms} {now : Instant}
    {state next : CycleTables × List CycleClaim} {schedule : ScheduleRow}
    (h : claimSchedule ids terms now state schedule = .ok next) :
    ∃ claims, next.2 = state.2 ++ claims ∧ Schedules ids state.1 next.1 claims := by
  obtain ⟨tables, held⟩ := state
  unfold claimSchedule at h
  dsimp only at h
  obtain ⟨skipped, hskipped, h⟩ := Checks.bind_eq_ok.mp h
  have hrange : Schedules ids tables skipped [] := by
    apply skipMissed_schedules
    exact hskipped
  split at h
  next =>
    obtain ⟨⟨inserted, done⟩, hinserted, h⟩ := Checks.bind_eq_ok.mp h
    have hdrawn : Schedules ids skipped { skipped with drawn := skipped.drawn + 2 } [] :=
      schedules_of_content (fun _ => rfl) (Nat.le_add_right _ 2)
    rcases insertCycle_eq_ok hinserted with ⟨rfl, rfl⟩ | ⟨rfl, hnone, row, hrow, rfl⟩
    · cases h
      exact ⟨[], (List.append_nil _).symm, hrange.trans (hdrawn.trans
        (advanceSchedule_schedules _ _ _))⟩
    · cases h
      refine ⟨_, rfl, hrange.trans ?_⟩
      constructor
      case evidence =>
        intro cycleId
        have hdrawn : SameEvidence cycleId skipped { skipped with drawn := skipped.drawn + 2 } :=
          .of_content rfl
        have hmade := @setCycle_sameEvidence { skipped with drawn := skipped.drawn + 2 } row
          (by rw [hrow]; exact hnone) cycleId
        exact (hdrawn.trans hmade).trans (.of_content rfl)
      case cutoffs =>
        intro claim hmem
        obtain rfl := List.mem_singleton.mp hmem
        have hid : row.id = ids.hex (skipped.drawn + 1) := by rw [hrow]; rfl
        refine ⟨row, ?_, by rw [hrow]; rfl⟩
        rw [← hid]
        exact cycleRow_setCycle_self _ row
      case grants =>
        intro cycleId
        have hgrants := @setCycle_grants { skipped with drawn := skipped.drawn + 2 } row
          row.leaseOwner (fun _ => by rw [hrow]; exact hnone) rfl cycleId
        rw [hrow] at hgrants
        rw [grantsOf, List.map_singleton, Fence.lastGrant_singleton]
        exact hgrants
      case tokens =>
        refine ⟨Nat.le_add_right _ 2, fun claim hmem => ?_, by simp⟩
        obtain rfl := List.mem_singleton.mp hmem
        exact ⟨skipped.drawn, _, le_rfl, Nat.lt_add_of_pos_right (by decide), rfl⟩
  next =>
    cases h
    exact ⟨[], (List.append_nil _).symm, hrange.trans (advanceSchedule_schedules _ _ _)⟩

/-- A transaction that goes through rows grants the claims of each in turn. -/
theorem foldlM_schedules {α : Type} {items : List α}
    {next : CycleTables × List CycleClaim → α → Except Raised (CycleTables × List CycleClaim)}
    {after : CycleTables} {claims : List CycleClaim}
    (hstep : ∀ state item done, next state item = .ok done →
      ∃ granted, done.2 = state.2 ++ granted ∧ Schedules ids state.1 done.1 granted)
    (h : items.foldlM next (tables, []) = .ok (after, claims)) :
    Schedules ids tables after claims := by
  refine Checks.foldlM_invariant (fun _ state => Schedules ids tables state.1 state.2) []
    (fun seen state item done _ hinv hdone => ?_) h (.refl tables)
  obtain ⟨granted, hclaims, hschedules⟩ := hstep state item done hdone
  rw [hclaims]
  exact hinv.trans hschedules

theorem claimDueCycles_schedules {scheduling : Scheduling} {terms : LeaseTerms} {now : Datetime}
    {after : CycleTables} {claims : List CycleClaim}
    (h : tables.claimDueCycles ids scheduling terms now = .ok (after, claims)) :
    Schedules ids tables after claims := by
  obtain ⟨-, h⟩ := Checks.ite_error_eq_ok.mp h
  obtain ⟨-, h⟩ := Checks.ite_error_eq_ok.mp h
  split at h
  · cases h
    exact .refl tables
  · exact foldlM_schedules (fun _ _ _ => claimSchedule_schedules) h

/-- A freeze that was running fails; other checkpoints stay. -/
theorem failFreeze_spec (tables : CycleTables) (cycleId : String) (now : Instant) :
    (∀ other, (tables.failFreeze cycleId now).completedRow other = tables.completedRow other) ∧
      (tables.failFreeze cycleId now).cycles = tables.cycles ∧
      (tables.failFreeze cycleId now).drawn = tables.drawn ∧
      ∀ other, other ≠ cycleId →
        (tables.failFreeze cycleId now).stepRow other = tables.stepRow other := by
  unfold failFreeze
  split
  next freeze hfreeze =>
    obtain ⟨hcycle, hstage⟩ := key_of_stepRow tables hfreeze
    split
    next hrunning =>
      refine ⟨fun other => funext fun stage => ?_, rfl, rfl, fun other hne => ?_⟩
      · apply completedRow_setStep_of_ne
        · simp
        · intro old hold
          dsimp only at hold
          rw [hcycle, hstage, hfreeze] at hold
          cases hold
          rw [hrunning]
          simp
      · funext stage
        apply stepRow_setStep_of_ne
        intro hkey
        exact hne ((Prod.mk.inj hkey).1.trans hcycle)
    next => exact ⟨fun _ => rfl, rfl, rfl, fun _ _ => rfl⟩
  next => exact ⟨fun _ => rfl, rfl, rfl, fun _ _ => rfl⟩

/-- A cycle is recovered with a new token; other cycles stay as they are. -/
theorem recoverCycle_schedules {leaseOwner : String} {leaseDuration : ℤ} {now : Instant}
    {state next : CycleTables × List CycleClaim} {row : AgentCycleRow}
    (hfound : state.1.cycleRow row.id = some row)
    (h : recoverCycle ids leaseOwner leaseDuration now state row = .ok next) :
    (∃ claims, next.2 = state.2 ++ claims ∧ Schedules ids state.1 next.1 claims) ∧
      ∀ other, other ≠ row.id → next.1.cycleRow other = state.1.cycleRow other := by
  obtain ⟨tables, held⟩ := state
  obtain ⟨updated, hupdated, h⟩ := Checks.bind_eq_ok.mp h
  obtain ⟨written, hwritten, hupdated⟩ := Checks.bind_eq_ok.mp hupdated
  cases hupdated
  cases h
  have hfields := AgentCycleRow.make_eq_ok_iff.mp hwritten
  have hid : written.id = row.id := by rw [hfields]
  obtain ⟨hcompleted, hcycles, hdrawn, hothers⟩ :=
    failFreeze_spec { tables with drawn := tables.drawn + 1 } row.id now
  generalize { tables with drawn := tables.drawn + 1 }.failFreeze row.id now = failed
    at hcompleted hcycles hdrawn hothers ⊢
  have hself : (failed.setCycle written).cycleRow row.id = some written := by
    rw [← hid, cycleRow_setCycle_self]
  have hother (other : String) (hne : other ≠ row.id) :
      (failed.setCycle written).cycleRow other = tables.cycleRow other := by
    rw [cycleRow_setCycle_of_ne _ (by rw [hid]; exact hne), cycleRow, hcycles]
    rfl
  refine ⟨⟨_, rfl, ?_⟩, hother⟩
  constructor
  case evidence =>
    intro cycleId
    refine ⟨hcompleted cycleId, fun old hold => ?_⟩
    by_cases hcycle : cycleId = row.id
    · subst hcycle
      rw [hfound] at hold
      obtain rfl := Option.some.inj hold
      exact ⟨written, hself, by rw [hfields]⟩
    · exact ⟨old, (hother cycleId hcycle).trans hold, rfl⟩
  case grants =>
    intro cycleId
    rw [grantsOf, List.map_singleton, Fence.lastGrant_singleton]
    by_cases hcycle : row.id = cycleId
    · subst hcycle
      have hholder : (failed.setCycle written).holder row.id =
          some (newLeaseOwner ids tables.drawn leaseOwner) := by
        rw [holder, hself, Option.bind_some, hfields]
      rw [if_pos rfl, fenced, fenced, hholder]
      exact .grant _ _ _
    · have hne := Ne.symm hcycle
      have hstep : (failed.setCycle written).stepRow cycleId = tables.stepRow cycleId :=
        hothers cycleId hne
      rw [if_neg hcycle, fenced, fenced, holder, holder, content, content, hother cycleId hne, hstep]
      exact .idle _
  case tokens =>
    have hlast : (failed.setCycle written).drawn = tables.drawn + 1 := hdrawn
    rw [hlast]
    refine ⟨Nat.le_succ _, fun claim hmem => ?_, by simp⟩
    obtain rfl := List.mem_singleton.mp hmem
    exact ⟨tables.drawn, leaseOwner, le_rfl, Nat.lt_succ_self _, rfl⟩
  case cutoffs =>
    intro claim hmem
    obtain rfl := List.mem_singleton.mp hmem
    exact ⟨written, hself, by rw [hfields]⟩

/-- Cycles are recovered one after the other, each as it was found. -/
theorem foldlM_recoverCycle_schedules {leaseOwner : String} {leaseDuration : ℤ} {now : Instant}
    {rows : List AgentCycleRow} {state final : CycleTables × List CycleClaim}
    (unique : (rows.map AgentCycleRow.key).Nodup)
    (hfound : ∀ row ∈ rows, state.1.cycleRow row.id = some row)
    (h : rows.foldlM (recoverCycle ids leaseOwner leaseDuration now) state = .ok final) :
    ∃ claims, final.2 = state.2 ++ claims ∧ Schedules ids state.1 final.1 claims := by
  induction rows generalizing state with
  | nil =>
      cases h
      exact ⟨[], (List.append_nil _).symm, .refl _⟩
  | cons row rows ih =>
      obtain ⟨next, hnext, hrest⟩ := Checks.foldlM_cons_eq_ok.mp h
      obtain ⟨⟨claims, hclaims, hschedules⟩, hothers⟩ :=
        recoverCycle_schedules (hfound row List.mem_cons_self) hnext
      rw [List.map_cons, List.nodup_cons] at unique
      obtain ⟨later, hlater, hrest⟩ := ih unique.2 (fun other hmem => by
        rw [hothers other.id]
        · exact hfound other (List.mem_cons_of_mem _ hmem)
        · intro hsame
          exact unique.1 (List.mem_map.mpr ⟨other, hmem, hsame⟩)) hrest
      refine ⟨claims ++ later, ?_, hschedules.trans hrest⟩
      rw [hlater, hclaims, List.append_assoc]

theorem recoverExpiredCycles_schedules {scheduling : Scheduling} {terms : LeaseTerms}
    {staleAfter : Option ℤ} {now : Datetime} {after : CycleTables} {claims : List CycleClaim}
    (h : tables.recoverExpiredCycles ids scheduling terms staleAfter now = .ok (after, claims)) :
    Schedules ids tables after claims := by
  obtain ⟨-, h⟩ := Checks.ite_error_eq_ok.mp h
  split at h
  · cases h
    exact .refl tables
  · obtain ⟨taken, hperm, hsub⟩ : ((tables.recoverableCycles scheduling now.instant
        staleAfter).take terms.limit.toNat).Subperm tables.cycles :=
      ((List.take_sublist _ _).subperm.trans (List.perm_insertionSort _ _).subperm).trans
        List.filter_sublist.subperm
    have hunique := (hperm.map AgentCycleRow.key).nodup_iff.mp
      ((hsub.map AgentCycleRow.key).nodup tables.cycles_unique)
    obtain ⟨granted, hgranted, hschedules⟩ := foldlM_recoverCycle_schedules hunique
      (by
        intro row hmem
        apply (KeyedList.lookup_eq_some_iff tables.cycles_unique).mpr
        exact ⟨hsub.subset (hperm.mem_iff.mpr hmem), rfl⟩) h
    rw [List.nil_append] at hgranted
    cases hgranted
    exact hschedules

/-- What a transaction does that commits: it schedules, leaves everything as it is, or writes
as the holder of its claim. -/
inductive Transacted (ids : RandomIds) (before after : CycleTables) (request : CycleCall) :
    List CycleClaim → Prop
  | scheduled {claims : List CycleClaim} (hrequest : request.claim? = none)
      (h : Schedules ids before after claims) : Transacted ids before after request claims
  | left (hrequest : request.lease? = none) (hsame : after = before) :
      Transacted ids before after request []
  | written (claim : CycleClaim) (hrequest : request.claim? = some claim)
      (hholder : before.holder claim.cycleId = some claim.leaseOwner)
      (hwrites : WritesUnder claim before after)
      (hlease : ∀ now ∈ request.lease?, before.Holds claim now) :
      Transacted ids before after request []

theorem Holds.holder_eq {claim : CycleClaim} {now : Datetime} (h : tables.Holds claim now) :
    tables.holder claim.cycleId = some claim.leaseOwner := by
  obtain ⟨row, hrow, -, howner, -⟩ := h
  rw [holder, hrow, Option.bind_some, howner]

theorem Transacted.of_leased {after : CycleTables} {request : CycleCall} {claim : CycleClaim}
    {now : Datetime} (h : tables.Holds claim now ∧ WritesUnder claim tables after)
    (hrequest : request.claim? = some claim) (hlease : request.lease? = some now) :
    Transacted ids tables after request [] := by
  refine .written claim hrequest h.1.holder_eq h.2 fun moment hmoment => ?_
  rw [hlease] at hmoment
  obtain rfl := Option.some.inj hmoment
  exact h.1

theorem transact_spec {fromisoformat : String → Option Datetime} {request : CycleCall}
    {after : CycleTables} {claims : List CycleClaim}
    (h : tables.transact ids fromisoformat request = .ok (after, claims)) :
    Transacted ids tables after request claims := by
  cases request with
  | claimDue scheduling terms now => exact .scheduled rfl (claimDueCycles_schedules h)
  | recoverExpired scheduling terms staleAfter now =>
      exact .scheduled rfl (recoverExpiredCycles_schedules h)
  | renewLease claim now duration =>
      obtain ⟨written, hwritten, heq⟩ := Checks.map_eq_ok.mp h
      cases heq
      exact .of_leased (renewLease_spec hwritten) rfl rfl
  | beginStage claim stage inputFingerprint now =>
      obtain ⟨written, hwritten, heq⟩ := Checks.map_eq_ok.mp h
      cases heq
      exact .of_leased (beginStage_spec hwritten) rfl rfl
  | completeStage claim stage inputFingerprint result now registered =>
      obtain ⟨written, hwritten, heq⟩ := Checks.map_eq_ok.mp h
      cases heq
      exact .of_leased (completeStage_spec hwritten) rfl rfl
  | failCycle claim now reason =>
      obtain ⟨written, hwritten, heq⟩ := Checks.map_eq_ok.mp h
      cases heq
      rcases failCycle_spec hwritten with hsame | ⟨hholder, hwrites⟩
      · exact .left rfl hsame
      · exact .written claim rfl hholder hwrites fun _ hnow => by cases hnow
  | completeCycle claim now summary =>
      obtain ⟨written, hwritten, heq⟩ := Checks.map_eq_ok.mp h
      cases heq
      exact .of_leased (completeCycle_spec hwritten) rfl rfl

/-- Writing as the holder is a move of the fence. -/
theorem WritesUnder.move {claim : CycleClaim} {after : CycleTables}
    (h : WritesUnder claim tables after)
    (hholder : tables.holder claim.cycleId = some claim.leaseOwner) (cycleId : String) :
    Fence.Move Unmade (tables.fenced cycleId) (after.fenced cycleId) none := by
  unfold fenced
  by_cases hcycle : cycleId = claim.cycleId
  · subst hcycle
    rw [hholder]
    cases hafter : after.holder claim.cycleId with
    | none => exact .release _ _ _
    | some token =>
        rw [h.holder token hafter]
        exact .write _ _ _
  · have hcontent := h.others cycleId hcycle
    have hsame : after.holder cycleId = tables.holder cycleId :=
      congrArg (fun content => content.1.bind fun row : AgentCycleRow => row.leaseOwner) hcontent
    rw [hcontent, hsame]
    exact .granting (.idle _)

theorem Transacted.move {after : CycleTables} {request : CycleCall} {claims : List CycleClaim}
    (h : Transacted ids tables after request claims) (cycleId : String) :
    Fence.Move Unmade (tables.fenced cycleId) (after.fenced cycleId)
      (Fence.lastGrant (grantsOf cycleId claims)) := by
  cases h with
  | scheduled _ h => exact .granting (h.grants cycleId)
  | left _ hsame =>
      rw [hsame]
      exact .granting (.idle _)
  | written claim _ hholder hwrites _ => exact hwrites.move hholder cycleId

theorem Transacted.kept {after : CycleTables} {request : CycleCall} {claims : List CycleClaim}
    (h : Transacted ids tables after request claims) : tables.KeepsCompleted after := by
  cases h with
  | scheduled _ h => exact .of_sameEvidence h.evidence
  | left _ hsame =>
      rw [hsame]
      exact fun _ _ _ hrow _ => hrow
  | written claim _ _ hwrites _ => exact hwrites.kept

theorem Transacted.tokens {after : CycleTables} {request : CycleCall} {claims : List CycleClaim}
    (h : Transacted ids tables after request claims) :
    DrawnTokens ids tables.drawn after.drawn claims := by
  cases h with
  | scheduled _ h => exact h.tokens
  | left _ hsame =>
      rw [hsame]
      exact .none le_rfl
  | written claim _ _ hwrites _ =>
      rw [hwrites.drawn]
      exact .none le_rfl

/-! ## Runs -/

/-- The claims that a run grants, in their order. -/
def grantedClaims (trace : List (CycleCall × Except Raised (List CycleClaim))) :
    List CycleClaim :=
  trace.flatMap fun answered => answered.2.toOption.getD []

/-- The claim that was granted last for a cycle. -/
def lastClaim (cycleId : String) (claims : List CycleClaim) : Option CycleClaim :=
  (claims.filter fun claim => decide (claim.cycleId = cycleId)).getLast?

theorem lastGrant_grantsOf (cycleId : String) (claims : List CycleClaim) :
    Fence.lastGrant (grantsOf cycleId claims) =
      (lastClaim cycleId claims).map fun claim => claim.leaseOwner := by
  induction claims using List.reverseRecOn with
  | nil => rfl
  | append_singleton claims claim ih =>
      unfold grantsOf lastClaim at *
      rw [List.map_append, List.map_singleton, Fence.lastGrant_concat, List.filter_append, ih]
      by_cases hcycle : claim.cycleId = cycleId
      · simp [hcycle]
      · simp [hcycle]

/-- Before anything is scheduled: there are no cycles. -/
def unscheduled (schedules : ScheduleTable) : CycleTables :=
  ⟨schedules, [], [], 0, List.nodup_nil⟩

/-- Cycles are held under the last claims that were granted, and no two claims have one token. -/
structure HeldByLastClaims (ids : RandomIds) (granted : List CycleClaim) (tables : CycleTables) :
    Prop where
  held : ∀ cycleId,
    Fence.HeldByLast (tables.fenced cycleId) (Fence.lastGrant (grantsOf cycleId granted))
  tokens : DrawnTokens ids 0 tables.drawn granted

theorem HeldByLastClaims.transact {granted claims : List CycleClaim} {after : CycleTables}
    {request : CycleCall} (h : HeldByLastClaims ids granted tables)
    (hdone : Transacted ids tables after request claims) :
    HeldByLastClaims ids (granted ++ claims) after where
  held cycleId := by
    rw [grantsOf, List.map_append, Fence.lastGrant_append]
    exact (h.held cycleId).move (hdone.move cycleId)
  tokens := h.tokens.append hdone.tokens

/-- What a transaction changes after some claims have been granted: a cycle changes when it is
claimed or recovered, or under the claim that was granted for it last, unless the cycle is an
hour that is made only now.  What needs a lease commits under the last claim, while the
lease has not expired.  Completed checkpoints stay. -/
structure Fenced (granted : List CycleClaim) (before : CycleTables) (request : CycleCall)
    (answered : CycleTables × Except Raised (List CycleClaim)) : Prop where
  changes : ∀ cycleId, answered.1.content cycleId ≠ before.content cycleId →
    (request.claim? = none ∧ before.cycleRow cycleId = none) ∨
    (∃ claims, answered.2 = .ok claims ∧ (lastClaim cycleId claims).isSome = true) ∨
    ∃ claim, request.claim? = some claim ∧ claim.cycleId = cycleId ∧
      (lastClaim cycleId granted).map (fun last => last.leaseOwner) = some claim.leaseOwner
  leases : ∀ now ∈ request.lease?, ∀ claims, answered.2 = .ok claims →
    ∃ claim, request.claim? = some claim ∧ before.Holds claim now ∧
      (lastClaim claim.cycleId granted).map (fun last => last.leaseOwner) = some claim.leaseOwner
  kept : before.KeepsCompleted answered.1

theorem HeldByLastClaims.last_of_holder {granted : List CycleClaim} {claim : CycleClaim}
    (h : HeldByLastClaims ids granted tables)
    (hholder : tables.holder claim.cycleId = some claim.leaseOwner) :
    (lastClaim claim.cycleId granted).map (fun last => last.leaseOwner) =
      some claim.leaseOwner := by
  rw [← lastGrant_grantsOf]
  exact h.held claim.cycleId claim.leaseOwner hholder

/-- What commits while cycles are held under the last claims is fenced. -/
theorem HeldByLastClaims.fenced {granted claims : List CycleClaim} {after : CycleTables}
    {request : CycleCall} (h : HeldByLastClaims ids granted tables)
    (hdone : Transacted ids tables after request claims) :
    Fenced granted tables request (after, .ok claims) where
  changes cycleId hchanged := by
    cases hdone with
    | scheduled hrequest hschedules =>
        rcases (hschedules.grants cycleId).fresh_or_granted hchanged with hunmade | hgranted
        · exact Or.inl ⟨hrequest, hunmade⟩
        · rw [lastGrant_grantsOf, Option.isSome_map] at hgranted
          exact Or.inr (Or.inl ⟨claims, rfl, hgranted⟩)
    | left _ hsame =>
        rw [hsame] at hchanged
        exact absurd rfl hchanged
    | written claim hrequest hholder hwrites _ =>
        have hcycle : claim.cycleId = cycleId := by
          by_contra hne
          exact hchanged (hwrites.others cycleId (Ne.symm hne))
        subst hcycle
        exact Or.inr (Or.inr ⟨claim, hrequest, rfl, h.last_of_holder hholder⟩)
  leases now hnow done hanswer := by
    cases hdone with
    | scheduled hrequest _ =>
        cases request <;> cases hrequest <;> cases hnow
    | left hrequest _ =>
        rw [hrequest] at hnow
        cases hnow
    | written claim hrequest hholder _ hlease =>
        exact ⟨claim, hrequest, hlease now hnow, h.last_of_holder hholder⟩
  kept := hdone.kept

theorem call_ok {fromisoformat : String → Option Datetime} {request : CycleCall}
    {after : CycleTables} {claims : List CycleClaim}
    (h : tables.transact ids fromisoformat request = .ok (after, claims)) :
    tables.call ids fromisoformat request = (after, .ok claims) := by
  rw [call, h]

theorem call_error {fromisoformat : String → Option Datetime} {request : CycleCall}
    {error : Raised} (h : tables.transact ids fromisoformat request = .error error) :
    tables.call ids fromisoformat request = (tables, .error error) := by
  rw [call, h]

theorem heldByLastClaims_run (ids : RandomIds) (fromisoformat : String → Option Datetime)
    (schedules : ScheduleTable) (calls : List CycleCall) :
    HeldByLastClaims ids
      (grantedClaims (Runs.trace (call ids fromisoformat) (unscheduled schedules) calls))
      (Runs.final (call ids fromisoformat) (unscheduled schedules) calls) := by
  refine Runs.final_invariant (call ids fromisoformat)
    (fun trace tables => HeldByLastClaims ids (grantedClaims trace) tables) ?_ ?_ calls
  · constructor
    case held =>
      intro cycleId token hheld
      cases hheld
    case tokens => exact .none le_rfl
  · intro seen tables request h
    unfold grantedClaims at h ⊢
    rw [List.flatMap_append, List.flatMap_singleton]
    cases hdone : tables.transact ids fromisoformat request with
    | ok done =>
        rw [call_ok hdone]
        exact h.transact (transact_spec hdone)
    | error error =>
        rw [call_error hdone]
        change HeldByLastClaims ids (_ ++ []) tables
        rw [List.append_nil]
        exact h

/-- Only the generation that claimed or recovered a cycle last changes it or one of its
checkpoints, whatever the workers do and in whatever order; it begins and completes stages,
renews its lease and completes the cycle only while its lease has not expired; and no
completed checkpoint is written again.  Generations are told apart by their tokens. -/
theorem cycles_fenced (ids : RandomIds) (fromisoformat : String → Option Datetime)
    (schedules : ScheduleTable) (calls : List CycleCall) (request : CycleCall) :
    ((grantedClaims (Runs.trace (call ids fromisoformat) (unscheduled schedules) calls)).map
      fun claim => claim.leaseOwner).Nodup ∧
    Fenced (grantedClaims (Runs.trace (call ids fromisoformat) (unscheduled schedules) calls))
      (Runs.final (call ids fromisoformat) (unscheduled schedules) calls) request
      (call ids fromisoformat (Runs.final (call ids fromisoformat) (unscheduled schedules) calls)
        request) := by
  have h := heldByLastClaims_run ids fromisoformat schedules calls
  refine ⟨h.tokens.unique, ?_⟩
  generalize Runs.final (call ids fromisoformat) (unscheduled schedules) calls = tables at h ⊢
  cases hdone : tables.transact ids fromisoformat request with
  | ok done =>
      rw [call_ok hdone]
      exact h.fenced (transact_spec hdone)
  | error error =>
      rw [call_error hdone]
      constructor
      case changes => exact fun _ hchanged => absurd rfl hchanged
      case leases => exact fun _ _ _ hanswer => by cases hanswer
      case kept => exact fun _ _ _ hrow _ => hrow

end CycleTables

namespace Sample

def randomIds : RandomIds where
  hex n := String.ofList (List.replicate n 'a')
  injective m n h := by
    have hlength := congrArg (fun text => text.toList.length) h
    simpa using hlength
  no_colon n h := by
    rw [String.toList_ofList] at h
    exact absurd (List.eq_of_mem_replicate h) (by decide)

/-- An hour after `moment`. -/
def nextHour : Datetime := { moment with
  hour := 1
  time_valid := by decide }

def hourly : ScheduleTable where
  rows := [⟨"agent", moment.instant, true⟩]
  unique := List.nodup_singleton _

def scheduling : CycleTables.Scheduling := ⟨true, ["agent"], []⟩

/-- A lease of a millisecond. -/
def leaseTerms : CycleTables.LeaseTerms := ⟨"worker", 1000, 0, 1⟩

end Sample

end VTrade
