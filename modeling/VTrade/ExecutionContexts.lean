/-
# Recording an execution context

An order that was executed is recorded with the fresh context and the fee policy it
was executed on: the artifacts, the policy unless its market has it already, and the
context that refers to them.  The fills of the order refer to the context and the
policy, and its haircut audit to the book.
-/

import VTrade.Broker
import VTrade.Database

namespace VTrade

/-- What an order is persisted with besides its result. -/
structure OrderEvidence where
  bookSnapshotId : Option String
  executionContext : Option FreshContext
  feePolicy : Option FeePolicyEvidence
  executionContextRefreshedAt : Option Instant

def OrderEvidence.none : OrderEvidence := ⟨.none, .none, .none, .none⟩

namespace EvidenceTables

variable (tables : EvidenceTables)

def artifact (sha256 : Sha256) : Option RawArtifactRow :=
  KeyedList.lookup RawArtifactRow.sha256 sha256 tables.rawArtifacts

/-- `_persist_raw_artifact_cursor`. -/
def persistRawArtifact (artifact : RawArtifact) :
    Except Raised (EvidenceTables × RawArtifactRow) :=
  match artifact.observedAt with
  | none => .error (.databaseError "null value in column observed_at of raw_artifacts")
  | some observedAt => do
      let existing := tables.artifact artifact.sha256
      let row := existing.getD {
        sha256 := artifact.sha256
        byteLength := artifact.byteLength
        uri := artifact.uri
        requestIdentity := artifact.requestIdentity
        observedAt := observedAt }
      Checks.raiseFirst [
        (existing = none ∧ (tables.rawArtifacts.any fun other => other.uri = artifact.uri),
          .databaseError "duplicate key value violates raw_artifacts_uri_key"),
        (row.byteLength ≠ artifact.byteLength ∨ row.uri ≠ artifact.uri ∨
            truthy row.requestIdentity ≠ artifact.requestIdentity,
          .valueError "raw artifact digest was reused with different metadata")]
      .ok ({ tables with
        rawArtifacts := KeyedList.upsert RawArtifactRow.sha256 row tables.rawArtifacts }, row)

/-- The policy of a market that has a fingerprint. -/
def feePolicyId (marketId : MarketKey) (policyFingerprint : Sha256) : Option String :=
  (tables.feePolicies.find? fun row =>
    row.marketId = marketId ∧ row.policyFingerprint = policyFingerprint).map FeePolicyRow.id

def feePolicy (id : String) : Option FeePolicyRow :=
  tables.feePolicies.find? fun row => row.id = id

def executionContext (id : String) : Option ExecutionContextRow :=
  tables.executionContexts.find? fun row => row.id = id

/-- `vtrade_guard_fee_policy_snapshot` on waiver evidence. -/
def waiverMismatch (policy : FeePolicySnapshot) (asOf : Instant) :
    Option WaiverEvidence → Bool
  | none => policy.waiver
  | some evidence =>
      match evidence.expirationTime, evidence.asOf with
      | some expirationTime, some evidenceAsOf =>
          evidence.waived.any (· ≠ policy.waiver) || evidenceAsOf ≠ asOf ||
            decide (asOf < expirationTime) ≠ policy.waiver
      | _, _ => true

/-- `_persist_fee_policy_cursor` for a policy that the market does not have, with
`vtrade_guard_fee_policy_snapshot`. -/
def insertFeePolicy (policy : FeePolicyEvidence) (marketId : MarketKey)
    (artifact : RawArtifactRow) : Except Raised (EvidenceTables × FeePolicyRow) :=
  match policy.cutoff, policy.asOf with
  | some cutoff, some asOf => do
      let row := {
        id := marketId.canonical ++ ":" ++ policy.fingerprint.hex
        marketId := marketId
        policyFingerprint := policy.fingerprint
        cutoff := cutoff : FeePolicyRow }
      Checks.raiseFirst [
        (policy.effectiveFrom = none ∨ policy.sourceObservedAt = none,
          .databaseError "null value in a column of fee_policy_snapshots"),
        (policy.feeType ≠ "quadratic" ∨ policy.participantRole ≠ .taker ∨
            policy.rateOverride = none ∨ policy.scheduleSha256 = none ∨
            policy.eventOverrideFeeType.any (· ≠ "quadratic") ∨
            waiverMismatch policy.toFeePolicySnapshot asOf policy.waiverEvidence,
          .databaseError "fee policy snapshot has invalid exact or temporal evidence"),
        (cutoff < artifact.observedAt,
          .databaseError "fee policy snapshot references evidence newer than its cutoff")]
      if h : row.id ∈ tables.feePolicies.map FeePolicyRow.id then
        .error (.databaseError "duplicate key value violates fee_policy_snapshots_pkey")
      else
        .ok ({ tables with
          feePolicies := tables.feePolicies ++ [row]
          feePolicies_unique := by
            rw [List.map_append, List.map_singleton, ← List.concat_eq_append]
            exact tables.feePolicies_unique.concat h }, row)
  | _, _ => .error (.databaseError "null value in a column of fee_policy_snapshots")

/-- The roles that evidence of a fee policy may have. -/
def evidenceRoles : List String :=
  ["official_schedule", "series_metadata", "series_fee_change", "event_fee_change",
    "market_waiver"]

/-- Link a piece of evidence to a policy, with `vtrade_guard_fee_policy_artifact`: what
is not among the artifacts is not linked. -/
def checkEvidenceReference (policy : FeePolicyRow) (reference : List (String × String)) :
    Except Raised Unit :=
  match reference.lookup "role", reference.lookup "sha256" with
  | some role, some sha256 =>
      match tables.rawArtifacts.find? fun row => row.sha256.hex = sha256 with
      | none => .ok ()
      | some artifact =>
          Checks.raiseFirst [
            (policy.cutoff < artifact.observedAt,
              .databaseError "fee policy evidence artifact is newer than its snapshot cutoff"),
            (role ∉ evidenceRoles,
              .databaseError "fee_policy_snapshot_artifacts_evidence_role_check")]
  | _, _ => .error (.valueError "fee policy evidence reference is malformed")

/-- The policy that a context is recorded with: the market's own row, or a new one
with its evidence. -/
def persistContextPolicy (policy : FeePolicyEvidence) (marketId : MarketKey)
    (marketAudit : RawArtifact) : Except Raised (EvidenceTables × String) :=
  match tables.feePolicyId marketId policy.fingerprint with
  | some id => .ok (tables, id)
  | none => do
      let (primary, artifact) ← tables.persistRawArtifact (policy.rawArtifact.getD marketAudit)
      let sourced ← policy.sourceArtifacts.foldlM (fun tables source =>
        (persistRawArtifact tables source).map Prod.fst) primary
      let (inserted, row) ← sourced.insertFeePolicy policy marketId artifact
      policy.evidenceReferences.forM (inserted.checkEvidenceReference row)
      .ok (inserted, row.id)

/-- The policy of a context, when it is recorded with one. -/
def persistOptionalPolicy (marketId : MarketKey) (marketAudit : RawArtifact) :
    Option FeePolicyEvidence → Except Raised (EvidenceTables × Option String)
  | none => .ok (tables, none)
  | some policy =>
      (tables.persistContextPolicy policy marketId marketAudit).map fun (tables, id) =>
        (tables, some id)

/-- Insert a context with the snapshots of its market and its book, unless its
identifier has them. -/
def insertExecutionContext (row : ExecutionContextRow) : Except Raised EvidenceTables := do
  Checks.raiseFirst [
    (row.feePolicySnapshotId.any fun id =>
        (tables.feePolicy id).all fun policy =>
          policy.marketId ≠ row.marketId ∨ row.executionCutoff < policy.cutoff,
      .databaseError "execution context fee policy does not match its order-time context")]
  match tables.executionContext row.id with
  | some existing => do
      Checks.raiseFirst [
        (existing.marketId ≠ row.marketId ∨ existing.executionCutoff ≠ row.executionCutoff,
          .databaseError "execution market snapshot does not match its execution context"),
        (existing.marketSnapshotId ≠ row.marketSnapshotId ∨
            existing.bookSnapshotId ≠ row.bookSnapshotId,
          .databaseError "duplicate key value violates a snapshot of an execution context")]
      .ok tables
  | none => do
      Checks.raiseFirst [
        (tables.executionContexts.any fun other => other.operationId = row.operationId,
          .databaseError "duplicate key value violates execution_contexts_operation_id_key")]
      .ok { tables with executionContexts := tables.executionContexts ++ [row] }

/-- `_persist_execution_context_cursor`: the tables with the context of an order, and the
snapshot of its book. -/
def persistExecutionContext (result : OrderResultFields) (evidence : OrderEvidence)
    (agentId operationId : String) : Except Raised (EvidenceTables × Option String) :=
  match evidence.executionContext with
  | none => .ok (tables, none)
  | some context =>
      match result.executionContextId with
      | none => .error
          (.valueError "fresh execution context id is required for context persistence")
      | some executionContextId => do
          let executionCutoff := result.updatedAt
          let refreshedAt := evidence.executionContextRefreshedAt.getD executionCutoff
          let frozenCutoff := result.request.frozenCutoff.getD result.submittedAt
          Checks.raiseFirst [
            (¬ isUuid executionContextId,
              .valueError "fresh execution context id must be a UUID"),
            (context.market.key ≠ result.request.marketRef,
              .valueError "fresh execution market identity differs from the operation"),
            (refreshedAt < frozenCutoff ∨ executionCutoff < refreshedAt,
              .valueError "fresh execution context timestamps are not ordered"),
            (executionCutoff < context.marketObservedAt,
              .valueError "fresh execution market is newer than its execution cutoff"),
            (context.marketSourceUpdatedAt.any (executionCutoff < ·),
              .valueError "fresh execution market update is newer than its execution cutoff"),
            (context.marketSourceUpdatedAt.any (context.marketObservedAt < ·),
              .valueError "fresh execution market update postdates its observation"),
            (executionCutoff < context.orderBook.observedAt,
              .valueError "fresh execution book is newer than its execution cutoff"),
            (executionCutoff < context.orderBook.cutoff,
              .valueError "fresh execution book cutoff is newer than its execution cutoff"),
            (context.orderBook.cutoff < frozenCutoff,
              .valueError "fresh execution book predates the frozen decision cutoff"),
            (context.bookSourceTimestamp.any (context.orderBook.observedAt < ·),
              .valueError "fresh execution book timestamp postdates its observation")]
          let (audited, _) ← tables.persistRawArtifact context.marketAudit
          let (captured, bookArtifact) ← audited.persistRawArtifact context.bookArtifact
          let (authorized, feePolicyId) ← captured.persistOptionalPolicy
            result.request.marketRef context.marketAudit evidence.feePolicy
          let row := {
            id := executionContextId
            operationId := operationId
            agentId := agentId
            marketId := result.request.marketRef
            frozenCutoff := frozenCutoff
            refreshedAt := refreshedAt
            executionCutoff := executionCutoff
            feePolicySnapshotId := feePolicyId
            marketSnapshotId := executionContextId ++ ":" ++ context.market.snapshotId
            bookSnapshotId := executionContextId ++ ":" ++ context.orderBook.snapshotId :
            ExecutionContextRow }
          let inserted ← authorized.insertExecutionContext row
          Checks.raiseFirst [(executionCutoff < bookArtifact.observedAt,
            .databaseError "order book snapshot references evidence newer than its cutoff")]
          .ok (inserted, some row.bookSnapshotId)

/-! ## What is recorded -/

theorem persistRawArtifact_frame {tables written : EvidenceTables} {artifact : RawArtifact}
    {row : RawArtifactRow} (h : tables.persistRawArtifact artifact = .ok (written, row)) :
    written.feePolicies = tables.feePolicies ∧
      written.executionContexts = tables.executionContexts ∧
      written.haircutAudits = tables.haircutAudits := by
  unfold persistRawArtifact at h
  split at h
  · cases h
  · obtain ⟨-, -, h⟩ := Checks.bind_eq_ok.mp h
    cases h
    exact ⟨rfl, rfl, rfl⟩

/-- A market's policy is found by its identifier too. -/
theorem exists_feePolicy {tables : EvidenceTables} {marketId : MarketKey}
    {policyFingerprint : Sha256} {id : String}
    (h : tables.feePolicyId marketId policyFingerprint = some id) :
    ∃ row, tables.feePolicy id = some row ∧ row.marketId = marketId := by
  obtain ⟨row, hrow, rfl⟩ := Option.map_eq_some_iff.mp h
  have hfound := List.find?_some hrow
  obtain ⟨hmarket, -⟩ := of_decide_eq_true hfound
  refine ⟨row, ?_, hmarket⟩
  exact (KeyedList.lookup_eq_some_iff tables.feePolicies_unique).mpr
    ⟨List.mem_of_find?_eq_some hrow, rfl⟩

/-- A policy that is inserted is the one of its market and fingerprint. -/
theorem insertFeePolicy_spec {tables written : EvidenceTables} {policy : FeePolicyEvidence}
    {marketId : MarketKey} {artifact : RawArtifactRow} {row : FeePolicyRow}
    (hnew : tables.feePolicyId marketId policy.fingerprint = none)
    (h : tables.insertFeePolicy policy marketId artifact = .ok (written, row)) :
    written.feePolicyId marketId policy.fingerprint = some row.id ∧
      written.executionContexts = tables.executionContexts ∧
      written.haircutAudits = tables.haircutAudits := by
  unfold insertFeePolicy at h
  split at h
  · obtain ⟨-, -, h⟩ := Checks.bind_eq_ok.mp h
    split at h
    · cases h
    · cases h
      refine ⟨?_, rfl, rfl⟩
      have hnone := Option.map_eq_none_iff.mp hnew
      unfold feePolicyId
      rw [List.find?_append, hnone]
      simp
  · cases h

/-- A context is recorded with the policy of its market. -/
theorem persistContextPolicy_spec {tables written : EvidenceTables} {policy : FeePolicyEvidence}
    {marketId : MarketKey} {marketAudit : RawArtifact} {id : String}
    (h : tables.persistContextPolicy policy marketId marketAudit = .ok (written, id)) :
    written.feePolicyId marketId policy.fingerprint = some id ∧
      written.executionContexts = tables.executionContexts ∧
      written.haircutAudits = tables.haircutAudits := by
  unfold persistContextPolicy at h
  split at h
  next id' hid =>
    cases h
    exact ⟨hid, rfl, rfl⟩
  next hnew =>
    obtain ⟨⟨primary, artifact⟩, hprimary, h⟩ := Checks.bind_eq_ok.mp h
    obtain ⟨sourced, hsourced, h⟩ := Checks.bind_eq_ok.mp h
    obtain ⟨⟨inserted, row⟩, hinserted, h⟩ := Checks.bind_eq_ok.mp h
    obtain ⟨-, -, h⟩ := Checks.bind_eq_ok.mp h
    cases h
    obtain ⟨hpolicies, hcontexts, haudits⟩ := persistRawArtifact_frame hprimary
    obtain ⟨hpolicies', hcontexts', haudits'⟩ : sourced.feePolicies = primary.feePolicies ∧
        sourced.executionContexts = primary.executionContexts ∧
        sourced.haircutAudits = primary.haircutAudits := by
      refine Checks.foldlM_invariant (fun _ (tables : EvidenceTables) =>
          tables.feePolicies = primary.feePolicies ∧
            tables.executionContexts = primary.executionContexts ∧
            tables.haircutAudits = primary.haircutAudits) []
        (fun _ state source next _ hstate hstep => ?_) hsourced ⟨rfl, rfl, rfl⟩
      obtain ⟨⟨written, _⟩, hwritten, rfl⟩ := Checks.map_eq_ok.mp hstep
      obtain ⟨h1, h2, h3⟩ := persistRawArtifact_frame hwritten
      exact ⟨h1.trans hstate.1, h2.trans hstate.2.1, h3.trans hstate.2.2⟩
    have hnew' : sourced.feePolicyId marketId policy.fingerprint = none := by
      unfold feePolicyId at hnew ⊢
      rw [hpolicies', hpolicies]
      exact hnew
    obtain ⟨hid, hcontexts'', haudits''⟩ := insertFeePolicy_spec hnew' hinserted
    exact ⟨hid, hcontexts''.trans (hcontexts'.trans hcontexts),
      haudits''.trans (haudits'.trans haudits)⟩

/-- A context whose identifier is new is found under it. -/
theorem insertExecutionContext_spec {tables written : EvidenceTables} {row : ExecutionContextRow}
    (hnew : tables.executionContext row.id = none)
    (h : tables.insertExecutionContext row = .ok written) :
    written.executionContext row.id = some row ∧ written.feePolicies = tables.feePolicies ∧
      written.haircutAudits = tables.haircutAudits := by
  obtain ⟨-, -, h⟩ := Checks.bind_eq_ok.mp h
  rw [hnew] at h
  obtain ⟨-, -, h⟩ := Checks.bind_eq_ok.mp h
  cases h
  refine ⟨?_, rfl, rfl⟩
  rw [executionContext] at hnew
  simp [executionContext, List.find?_append, hnew]

/-- An order that is recorded with a context and a policy has both in the tables, and
the context refers to the policy. -/
structure RecordedWith (tables : EvidenceTables) (marketId : MarketKey)
    (executionContextId : String) (policyFingerprint : Sha256) (policyId : String) : Prop where
  uuid : isUuid executionContextId = true
  policy : tables.feePolicyId marketId policyFingerprint = some policyId
  context : ∃ row, tables.executionContext executionContextId = some row ∧
    row.feePolicySnapshotId = some policyId

theorem persistExecutionContext_recordedWith {tables written : EvidenceTables}
    {result : OrderResultFields} {evidence : OrderEvidence} {agentId operationId : String}
    {snapshotId executionContextId : String} {policy : FeePolicyEvidence}
    (h : tables.persistExecutionContext result evidence agentId operationId =
      .ok (written, some snapshotId))
    (hcontextId : result.executionContextId = some executionContextId)
    (hpolicy : evidence.feePolicy = some policy)
    (hnew : tables.executionContext executionContextId = none) :
    ∃ policyId, written.RecordedWith result.request.marketRef executionContextId
      policy.fingerprint policyId := by
  unfold persistExecutionContext at h
  split at h
  · cases h
  · rw [hcontextId] at h
    obtain ⟨_, hchecks, h⟩ := Checks.bind_eq_ok.mp h
    obtain ⟨⟨audited, _⟩, haudited, h⟩ := Checks.bind_eq_ok.mp h
    obtain ⟨⟨captured, bookArtifact⟩, hcaptured, h⟩ := Checks.bind_eq_ok.mp h
    obtain ⟨⟨authorized, feePolicyId⟩, hauthorized, h⟩ := Checks.bind_eq_ok.mp h
    obtain ⟨inserted, hinserted, h⟩ := Checks.bind_eq_ok.mp h
    obtain ⟨-, -, h⟩ := Checks.bind_eq_ok.mp h
    cases h
    rw [hpolicy] at hauthorized
    obtain ⟨⟨_, policyId⟩, hwritten, heq⟩ := Checks.map_eq_ok.mp hauthorized
    cases heq
    obtain ⟨hid, hcontexts, -⟩ := persistContextPolicy_spec hwritten
    have hnone : authorized.executionContext executionContextId = none := by
      unfold executionContext at hnew ⊢
      rw [hcontexts, (persistRawArtifact_frame hcaptured).2.1,
        (persistRawArtifact_frame haudited).2.1]
      exact hnew
    obtain ⟨hfound, hpolicies, -⟩ := insertExecutionContext_spec hnone hinserted
    have huuid := (Checks.raiseFirst_cons_eq_ok.mp hchecks).1
    refine ⟨policyId, by simpa using huuid, ?_, _, hfound, rfl⟩
    unfold EvidenceTables.feePolicyId at hid ⊢
    rw [hpolicies]
    exact hid

end EvidenceTables

end VTrade
