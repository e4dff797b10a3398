/-
# Registering the artifacts of venue responses

The body of every response is put into a store by the digest of its content, and what it was
read for goes with it.  A market freeze and an order at its time register what they have read.
A registered artifact is never changed, and the artifact of another request for the same body is
refused.
-/

import VTrade.Accounting
import VTrade.ExecutionContexts
import VTrade.Lib.Runs

namespace VTrade

deriving instance DecidableEq for RawArtifact

/-- A store that keeps contents by their digest. -/
structure ArtifactStore where
  sha256 : List UInt8 → Sha256
  /-- What the locations of the store start with. -/
  root : String

/-- A response of the venue, as the adapter archives it. -/
structure VenueResponse where
  /-- The method, the path and the query of the request. -/
  requestIdentity : String
  content : List UInt8
  observedAt : Instant
  requestIdentity_ne_empty : requestIdentity ≠ ""

namespace ArtifactStore

variable (store : ArtifactStore)

/-- Where `put` keeps the content of a digest. -/
def location (sha256 : Sha256) : String :=
  store.root ++ String.ofList (sha256.hex.toList.take 2) ++ "/" ++ sha256.hex ++ ".json.gz"

theorem location_ne_empty (sha256 : Sha256) : store.location sha256 ≠ "" := by
  intro h
  have hlength := congrArg (fun text => text.toList.length) h
  simp [location] at hlength

/-- Contents of different digests are kept at different locations. -/
theorem location_injective {first second : Sha256}
    (h : store.location first = store.location second) : first = second := by
  have hlist := congrArg String.toList h
  simp only [location, String.toList_append, List.append_assoc, String.toList_ofList] at hlist
  have hrest := (List.append_inj hlist rfl).2
  have htake : (first.hex.toList.take 2).length = (second.hex.toList.take 2).length := by
    rw [List.length_take, List.length_take, first.length_eq, second.length_eq]
  have hslash := (List.append_inj hrest htake).2
  have hhex := (List.append_inj (List.append_cancel_left hslash)
    (first.length_eq.trans second.length_eq.symm)).1
  cases first
  cases second
  simpa using String.ext hhex

/-- The artifact of a response: where its content was put, and what it was read for. -/
def archive (response : VenueResponse) : RawArtifact where
  sha256 := store.sha256 response.content
  byteLength := response.content.length
  uri := store.location (store.sha256 response.content)
  requestIdentity := some response.requestIdentity
  observedAt := some response.observedAt
  byteLength_nonneg := Int.natCast_nonneg _
  uri_ne_empty := store.location_ne_empty _

end ArtifactStore

/-! ## The artifacts of a freeze -/

/-- The artifacts with the first of each digest (`setdefault`). -/
def collectArtifacts (values : List RawArtifact) : List RawArtifact :=
  KeyedList.firsts RawArtifact.sha256 values

namespace EvidenceTables

/-- A row as it is inserted. -/
def rawArtifactRow (artifact : RawArtifact) (observedAt : Instant) : RawArtifactRow where
  sha256 := artifact.sha256
  byteLength := artifact.byteLength
  uri := artifact.uri
  requestIdentity := artifact.requestIdentity
  observedAt := observedAt

/-- `_persist_raw_artifact_cursor` of the runtime, which looks before it inserts. -/
def registerFrozenArtifact (tables : EvidenceTables) (artifact : RawArtifact) :
    Except Raised EvidenceTables :=
  match tables.artifact artifact.sha256 with
  | some row =>
      if row.byteLength ≠ artifact.byteLength ∨ row.uri ≠ artifact.uri ∨
          truthy row.requestIdentity ≠ artifact.requestIdentity then
        .error (.runtimeError "raw artifact digest was reused with different metadata")
      else .ok tables
  | none =>
      match artifact.observedAt with
      | none => .error (.databaseError "null value in column observed_at of raw_artifacts")
      | some observedAt =>
          if tables.rawArtifacts.any fun other => other.uri = artifact.uri then
            .error (.databaseError "duplicate key value violates raw_artifacts_uri_key")
          else .ok { tables with
            rawArtifacts := tables.rawArtifacts ++ [rawArtifactRow artifact observedAt] }

/-- The artifacts of one call, which has to describe each digest once. -/
def uniqueArtifacts (artifacts : List RawArtifact) : Except Raised (List RawArtifact) :=
  artifacts.foldlM (fun unique artifact =>
    match KeyedList.lookup RawArtifact.sha256 artifact.sha256 unique with
    | some previous =>
        if previous ≠ artifact then
          .error (.runtimeError "raw artifact digest was reused with different metadata")
        else .ok unique
    | none => .ok (unique ++ [artifact])) []

/-- `persist_raw_artifacts`, under a lease that is held. -/
def persistRawArtifacts (tables : EvidenceTables) (artifacts : List RawArtifact) :
    Except Raised EvidenceTables := do
  let unique ← uniqueArtifacts artifacts
  if unique.any fun artifact => artifact.observedAt.isNone then
    .error (.valueError "raw artifact observed_at is required for persistence")
  else unique.foldlM registerFrozenArtifact tables

/-- `_persist_raw_artifact_cursor` of the repository, without the identifier. -/
def registerOrderArtifact (tables : EvidenceTables) (artifact : RawArtifact) :
    Except Raised EvidenceTables :=
  (tables.persistRawArtifact artifact).map Prod.fst

/-- The artifacts of an order, one after the other. -/
def persistOrderArtifacts (tables : EvidenceTables) (artifacts : List RawArtifact) :
    Except Raised EvidenceTables :=
  artifacts.foldlM registerOrderArtifact tables

end EvidenceTables

/-- What an order registers: what its context was read from and, unless its market has the fee
policy already, what the policy rests on. -/
def FreshContext.artifacts (context : FreshContext) (policy : Option FeePolicyEvidence)
    (known : Bool) : List RawArtifact :=
  [context.marketAudit, context.bookArtifact] ++
    match policy with
    | none => []
    | some policy =>
        if known then [] else policy.rawArtifact.getD context.marketAudit :: policy.sourceArtifacts

/-! ## Runs of registrations -/

/-- One registration: what a freeze has read, or what an order registers. -/
inductive Registration
  | freeze (responses : List VenueResponse)
  | refresh (responses : List VenueResponse)

/-- One registration, in a transaction of its own. -/
def Registration.perform (store : ArtifactStore) (tables : EvidenceTables) :
    Registration → Except Raised EvidenceTables
  | .freeze responses => tables.persistRawArtifacts (collectArtifacts (responses.map store.archive))
  | .refresh responses => tables.persistOrderArtifacts (responses.map store.archive)

/-- A registration that raises is rolled back. -/
def Registration.step (store : ArtifactStore) (tables : EvidenceTables)
    (registration : Registration) : EvidenceTables × Except Raised Unit :=
  match registration.perform store tables with
  | .ok written => (written, .ok ())
  | .error raised => (tables, .error raised)

/-! ## The artifacts of an order -/

namespace EvidenceTables

theorem insertFeePolicy_rawArtifacts {tables written : EvidenceTables}
    {policy : FeePolicyEvidence} {marketId : MarketKey} {artifact : RawArtifactRow}
    {row : FeePolicyRow} (h : tables.insertFeePolicy policy marketId artifact = .ok (written, row)) :
    written.rawArtifacts = tables.rawArtifacts := by
  unfold insertFeePolicy at h
  split at h
  · obtain ⟨-, -, h⟩ := Checks.bind_eq_ok.mp h
    split at h
    · cases h
    · cases h
      rfl
  · cases h

theorem insertExecutionContext_rawArtifacts {tables written : EvidenceTables}
    {row : ExecutionContextRow} (h : tables.insertExecutionContext row = .ok written) :
    written.rawArtifacts = tables.rawArtifacts := by
  unfold insertExecutionContext at h
  obtain ⟨-, -, h⟩ := Checks.bind_eq_ok.mp h
  split at h
  · obtain ⟨-, -, h⟩ := Checks.bind_eq_ok.mp h
    cases h
    rfl
  · obtain ⟨-, -, h⟩ := Checks.bind_eq_ok.mp h
    cases h
    rfl

theorem registerOrderArtifact_of_persist {tables written : EvidenceTables}
    {artifact : RawArtifact} {row : RawArtifactRow}
    (h : tables.persistRawArtifact artifact = .ok (written, row)) :
    tables.registerOrderArtifact artifact = .ok written := by
  unfold registerOrderArtifact
  rw [h]
  rfl

/-- The policy of an order registers its artifacts, unless its market has it. -/
theorem persistOptionalPolicy_registers {tables written : EvidenceTables} {marketId : MarketKey}
    {context : FreshContext} {policy : Option FeePolicyEvidence} {id : Option String}
    (h : tables.persistOptionalPolicy marketId context.marketAudit policy = .ok (written, id)) :
    ∃ known registered, tables.persistOrderArtifacts
        ((context.artifacts policy known).drop 2) = .ok registered ∧
      written.rawArtifacts = registered.rawArtifacts := by
  cases policy with
  | none =>
      cases h
      exact ⟨true, tables, rfl, rfl⟩
  | some policy =>
      obtain ⟨⟨made, policyId⟩, hmade, heq⟩ := Checks.map_eq_ok.mp h
      cases heq
      unfold persistContextPolicy at hmade
      split at hmade
      · cases hmade
        exact ⟨true, tables, rfl, rfl⟩
      · obtain ⟨⟨primary, artifact⟩, hprimary, hmade⟩ := Checks.bind_eq_ok.mp hmade
        obtain ⟨sourced, hsourced, hmade⟩ := Checks.bind_eq_ok.mp hmade
        obtain ⟨⟨inserted, row⟩, hinserted, hmade⟩ := Checks.bind_eq_ok.mp hmade
        obtain ⟨-, -, hmade⟩ := Checks.bind_eq_ok.mp hmade
        cases hmade
        refine ⟨false, sourced, ?_, insertFeePolicy_rawArtifacts hinserted⟩
        exact Checks.foldlM_cons_eq_ok.mpr
          ⟨primary, registerOrderArtifact_of_persist hprimary, hsourced⟩

/-- Recording the context of an order registers the artifacts of the order, and no others. -/
theorem persistExecutionContext_registers {tables written : EvidenceTables}
    {result : OrderResultFields} {evidence : OrderEvidence} {agentId operationId : String}
    {snapshotId : Option String} {context : FreshContext}
    (hcontext : evidence.executionContext = some context)
    (h : tables.persistExecutionContext result evidence agentId operationId =
      .ok (written, snapshotId)) :
    ∃ known registered, tables.persistOrderArtifacts
        (context.artifacts evidence.feePolicy known) = .ok registered ∧
      written.rawArtifacts = registered.rawArtifacts := by
  unfold persistExecutionContext at h
  rw [hcontext] at h
  dsimp only at h
  split at h
  · cases h
  · obtain ⟨-, -, h⟩ := Checks.bind_eq_ok.mp h
    obtain ⟨⟨audited, _⟩, haudited, h⟩ := Checks.bind_eq_ok.mp h
    obtain ⟨⟨captured, bookArtifact⟩, hcaptured, h⟩ := Checks.bind_eq_ok.mp h
    obtain ⟨⟨authorized, feePolicyId⟩, hauthorized, h⟩ := Checks.bind_eq_ok.mp h
    obtain ⟨inserted, hinserted, h⟩ := Checks.bind_eq_ok.mp h
    obtain ⟨-, -, h⟩ := Checks.bind_eq_ok.mp h
    cases h
    obtain ⟨known, registered, hregistered, hrows⟩ := persistOptionalPolicy_registers hauthorized
    refine ⟨known, registered, ?_, (insertExecutionContext_rawArtifacts hinserted).trans hrows⟩
    exact Checks.foldlM_cons_eq_ok.mpr ⟨audited, registerOrderArtifact_of_persist haudited,
      Checks.foldlM_cons_eq_ok.mpr ⟨captured, registerOrderArtifact_of_persist hcaptured,
        hregistered⟩⟩

end EvidenceTables

/-! ## What is registered -/

section registration

variable (store : ArtifactStore)

/-- The digest a response is kept by. -/
def VenueResponse.digest (response : VenueResponse) : Sha256 := store.sha256 response.content

/-- What a registration puts before the table: a freeze only the first response of each body. -/
def Registration.offered : Registration → List VenueResponse
  | .freeze responses => KeyedList.firsts (VenueResponse.digest store) responses
  | .refresh responses => responses

/-- The row that a response is registered as. -/
def ArtifactStore.row (response : VenueResponse) : RawArtifactRow where
  sha256 := response.digest store
  byteLength := response.content.length
  uri := store.location (response.digest store)
  requestIdentity := some response.requestIdentity
  observedAt := response.observedAt

/-- Two responses may have one artifact. -/
def VenueResponse.Agrees (first second : VenueResponse) : Prop :=
  first.requestIdentity = second.requestIdentity ∧
    first.content.length = second.content.length

/-- Responses with one digest are responses to one request. -/
def OneRequestPerBody (responses : List VenueResponse) : Prop :=
  ∀ first ∈ responses, ∀ second ∈ responses,
    first.digest store = second.digest store → first.Agrees second

/-- The table has the first response of each digest, and the responses agree. -/
structure RegisteredFrom (seen : List VenueResponse) (tables : EvidenceTables) : Prop where
  rows : tables.rawArtifacts = (KeyedList.firsts (VenueResponse.digest store) seen).map store.row
  agrees : OneRequestPerBody store seen

variable {store} {seen : List VenueResponse} {tables : EvidenceTables}

theorem VenueResponse.Agrees.symm {first second : VenueResponse} (h : first.Agrees second) :
    second.Agrees first :=
  ⟨h.1.symm, h.2.symm⟩

theorem VenueResponse.Agrees.trans {first second third : VenueResponse}
    (h : first.Agrees second) (h' : second.Agrees third) : first.Agrees third :=
  ⟨h.1.trans h'.1, h.2.trans h'.2⟩

theorem OneRequestPerBody.of_append {first second : List VenueResponse}
    (h : OneRequestPerBody store (first ++ second)) : OneRequestPerBody store first :=
  fun one hone other hother =>
    h one (List.mem_append_left _ hone) other (List.mem_append_left _ hother)

/-- The artifact of a digest is the one of the first response with it. -/
theorem RegisteredFrom.artifact (h : RegisteredFrom store seen tables) (sha256 : Sha256) :
    tables.artifact sha256 =
      (KeyedList.lookup (VenueResponse.digest store) sha256 seen).map store.row := by
  unfold EvidenceTables.artifact
  rw [h.rows, KeyedList.lookup_map]
  exact congrArg _ (KeyedList.lookup_firsts sha256 seen)

/-- A response whose digest is new is at a new location. -/
theorem RegisteredFrom.location_unused (h : RegisteredFrom store seen tables)
    {response : VenueResponse}
    (hnew : KeyedList.lookup (VenueResponse.digest store) (response.digest store) seen = none) :
    (tables.rawArtifacts.any fun other =>
      other.uri = (store.archive response).uri) = false := by
  rw [List.any_eq_false]
  intro other hother
  rw [h.rows] at hother
  obtain ⟨earlier, hearlier, hrow⟩ := List.mem_map.mp hother
  rw [← KeyedList.lookup_firsts, KeyedList.lookup_eq_none_iff] at hnew
  intro huri
  rw [← hrow] at huri
  exact hnew earlier hearlier (store.location_injective (of_decide_eq_true huri))

/-- A response with a new digest makes a row. -/
theorem RegisteredFrom.concat_new (h : RegisteredFrom store seen tables)
    {response : VenueResponse}
    (hnew : KeyedList.lookup (VenueResponse.digest store) (response.digest store) seen = none)
    {written : EvidenceTables}
    (hwritten : written.rawArtifacts = tables.rawArtifacts ++ [store.row response]) :
    RegisteredFrom store (seen ++ [response]) written := by
  have hnone : ∀ earlier ∈ seen, earlier.digest store ≠ response.digest store :=
    KeyedList.lookup_eq_none_iff.mp hnew
  refine ⟨?_, ?_⟩
  · rw [hwritten, h.rows, KeyedList.firsts_concat, KeyedList.lookup_firsts, hnew]
    simp
  · intro first hfirst second hsecond hdigest
    rw [List.mem_append, List.mem_singleton] at hfirst hsecond
    rcases hfirst with hfirst | rfl
    · rcases hsecond with hsecond | rfl
      · exact h.agrees first hfirst second hsecond hdigest
      · exact absurd hdigest (hnone first hfirst)
    · rcases hsecond with hsecond | rfl
      · exact absurd hdigest.symm (hnone second hsecond)
      · exact ⟨rfl, rfl⟩

/-- A response with a known digest makes no row. -/
theorem RegisteredFrom.concat_known (h : RegisteredFrom store seen tables)
    {response earlier : VenueResponse}
    (hknown : KeyedList.lookup (VenueResponse.digest store) (response.digest store) seen =
      some earlier) (hagrees : earlier.Agrees response) :
    RegisteredFrom store (seen ++ [response]) tables := by
  have hmem := KeyedList.mem_of_lookup_eq_some hknown
  have hkey := KeyedList.key_of_lookup_eq_some hknown
  refine ⟨?_, ?_⟩
  · rw [h.rows, KeyedList.firsts_concat, KeyedList.lookup_firsts, hknown]
    simp
  · have hsame : ∀ other ∈ seen, other.digest store = response.digest store →
        other.Agrees response :=
      fun other hother hdigest =>
        (h.agrees other hother earlier hmem (hdigest.trans hkey.symm)).trans hagrees
    intro first hfirst second hsecond hdigest
    rw [List.mem_append, List.mem_singleton] at hfirst hsecond
    rcases hfirst with hfirst | rfl
    · rcases hsecond with hsecond | rfl
      · exact h.agrees first hfirst second hsecond hdigest
      · exact hsame first hfirst hdigest
    · rcases hsecond with hsecond | rfl
      · exact (hsame second hsecond hdigest.symm).symm
      · exact ⟨rfl, rfl⟩

/-- Whether a registered row describes a response. -/
theorem row_mismatch_iff {earlier response : VenueResponse}
    (hdigest : earlier.digest store = response.digest store) :
    ((store.row earlier).byteLength ≠ (store.archive response).byteLength ∨
      (store.row earlier).uri ≠ (store.archive response).uri ∨
      truthy (store.row earlier).requestIdentity ≠ (store.archive response).requestIdentity) ↔
      ¬ earlier.Agrees response := by
  have huri : (store.row earlier).uri = (store.archive response).uri :=
    congrArg store.location hdigest
  have hidentity : truthy (store.row earlier).requestIdentity = some earlier.requestIdentity := by
    simp [truthy, ArtifactStore.row, earlier.requestIdentity_ne_empty]
  rw [hidentity]
  simp only [huri, ne_eq, not_true_eq_false, false_or]
  unfold VenueResponse.Agrees
  simp only [ArtifactStore.row, ArtifactStore.archive, Nat.cast_inj, Option.some.injEq]
  tauto

/-- What a function that registers one artifact does: it takes the artifact, with a row for it
if there was none, or it raises because the artifact of the digest is another's. -/
def Registers (register : EvidenceTables → RawArtifact → Except Raised EvidenceTables) : Prop :=
  ∀ (store : ArtifactStore) (seen : List VenueResponse) (tables : EvidenceTables)
    (response : VenueResponse), RegisteredFrom store seen tables →
    match KeyedList.lookup (VenueResponse.digest store) (response.digest store) seen with
    | none => ∃ written, register tables (store.archive response) = .ok written ∧
        written.rawArtifacts = tables.rawArtifacts ++ [store.row response]
    | some earlier =>
        (earlier.Agrees response → ∃ written,
          register tables (store.archive response) = .ok written ∧
          written.rawArtifacts = tables.rawArtifacts) ∧
        (¬ earlier.Agrees response →
          ∃ raised, register tables (store.archive response) = .error raised)

theorem registers_frozen : Registers EvidenceTables.registerFrozenArtifact := by
  intro store seen tables response h
  have hartifact : tables.artifact (store.archive response).sha256 = _ :=
    h.artifact (response.digest store)
  unfold EvidenceTables.registerFrozenArtifact
  cases hfound : KeyedList.lookup (VenueResponse.digest store) (response.digest store) seen with
  | none =>
      rw [hfound, Option.map_none] at hartifact
      have hunused := h.location_unused hfound
      refine ⟨{ tables with rawArtifacts := tables.rawArtifacts ++ [store.row response] }, ?_, rfl⟩
      have hobserved : (store.archive response).observedAt = some response.observedAt := rfl
      simp only [hartifact, hobserved, hunused, Bool.false_eq_true, if_false]
      rfl
  | some earlier =>
      rw [hfound, Option.map_some] at hartifact
      have hmismatch := row_mismatch_iff (KeyedList.key_of_lookup_eq_some hfound)
      simp only [hartifact]
      constructor
      · intro hagrees
        rw [if_neg (fun h => hmismatch.mp h hagrees)]
        exact ⟨tables, rfl, rfl⟩
      · intro hdisagrees
        rw [if_pos (hmismatch.mpr hdisagrees)]
        exact ⟨_, rfl⟩

theorem registers_order : Registers EvidenceTables.registerOrderArtifact := by
  intro store seen tables response h
  have hartifact : tables.artifact (store.archive response).sha256 = _ :=
    h.artifact (response.digest store)
  have hobserved : (store.archive response).observedAt = some response.observedAt := rfl
  unfold EvidenceTables.registerOrderArtifact EvidenceTables.persistRawArtifact
  cases hfound : KeyedList.lookup (VenueResponse.digest store) (response.digest store) seen with
  | none =>
      rw [hfound, Option.map_none] at hartifact
      have hunused := h.location_unused hfound
      have hidentity : truthy (store.archive response).requestIdentity =
          (store.archive response).requestIdentity := by
        simp [truthy, ArtifactStore.archive, response.requestIdentity_ne_empty]
      have hlast : KeyedList.upsert RawArtifactRow.sha256 (store.row response)
          tables.rawArtifacts = tables.rawArtifacts ++ [store.row response] :=
        KeyedList.upsert_eq_append (KeyedList.lookup_eq_none_iff.mp hartifact)
      refine ⟨{ tables with rawArtifacts := _ }, ?_, hlast⟩
      simp only [hobserved, hartifact, hunused, hidentity, Option.getD_none, Checks.raiseFirst]
      simp
      rfl
  | some earlier =>
      rw [hfound, Option.map_some] at hartifact
      have hkey := KeyedList.key_of_lookup_eq_some hfound
      have hmismatch := row_mismatch_iff hkey
      simp only [hobserved, hartifact, Option.getD_some]
      constructor
      · intro hagrees
        have hsame : KeyedList.upsert RawArtifactRow.sha256 (store.row earlier)
            tables.rawArtifacts = tables.rawArtifacts := by
          apply KeyedList.upsert_eq_self
          rw [← hartifact]
          exact congrArg tables.artifact hkey
        refine ⟨{ tables with rawArtifacts := _ }, ?_, hsame⟩
        rw [decide_eq_false (fun h => hmismatch.mp h hagrees)]
        simp [Checks.raiseFirst]
        rfl
      · intro hdisagrees
        rw [decide_eq_true (hmismatch.mpr hdisagrees)]
        simp [Checks.raiseFirst]
        exact ⟨_, rfl⟩

/-- Registering responses one after the other. -/
theorem registers_all {register : EvidenceTables → RawArtifact → Except Raised EvidenceTables}
    (hregister : Registers register) (responses : List VenueResponse)
    (h : RegisteredFrom store seen tables) :
    (∀ written, (responses.map store.archive).foldlM register tables = .ok written →
      RegisteredFrom store (seen ++ responses) written) ∧
    (OneRequestPerBody store (seen ++ responses) →
      ∃ written, (responses.map store.archive).foldlM register tables = .ok written) := by
  induction responses generalizing seen tables with
  | nil =>
      rw [List.append_nil]
      refine ⟨?_, fun _ => ⟨tables, rfl⟩⟩
      intro written hwritten
      cases hwritten
      exact h
  | cons response rest ih =>
      have hone := hregister store seen tables response h
      rw [List.append_cons]
      -- Whatever the first response does, the rest go on from the table that has it.
      have hnext : ∀ {written}, register tables (store.archive response) = .ok written →
          RegisteredFrom store (seen ++ [response]) written := by
        intro written hwritten
        cases hfound : KeyedList.lookup (VenueResponse.digest store) (response.digest store) seen with
        | none =>
            rw [hfound] at hone
            obtain ⟨made, hmade, hrows⟩ := hone
            rw [hwritten] at hmade
            cases hmade
            exact h.concat_new hfound hrows
        | some earlier =>
            rw [hfound] at hone
            by_cases hagrees : earlier.Agrees response
            · obtain ⟨made, hmade, hrows⟩ := hone.1 hagrees
              rw [hwritten] at hmade
              cases hmade
              have hknown := h.concat_known hfound hagrees
              exact ⟨hrows.trans hknown.rows, hknown.agrees⟩
            · obtain ⟨raised, hraised⟩ := hone.2 hagrees
              rw [hwritten] at hraised
              cases hraised
      constructor
      · intro written hwritten
        obtain ⟨middle, hmiddle, hrest⟩ := Checks.foldlM_cons_eq_ok.mp hwritten
        exact (ih (hnext hmiddle)).1 written hrest
      · intro hagrees
        have hmiddle : ∃ middle, register tables (store.archive response) = .ok middle := by
          cases hfound : KeyedList.lookup (VenueResponse.digest store) (response.digest store)
              seen with
          | none =>
              rw [hfound] at hone
              obtain ⟨made, hmade, -⟩ := hone
              exact ⟨made, hmade⟩
          | some earlier =>
              rw [hfound] at hone
              have hbefore := hagrees.of_append
              have hsame := hbefore earlier
                (List.mem_append_left _ (KeyedList.mem_of_lookup_eq_some hfound)) response
                (List.mem_append_right _ List.mem_cons_self)
                (KeyedList.key_of_lookup_eq_some hfound)
              obtain ⟨made, hmade, -⟩ := hone.1 hsame
              exact ⟨made, hmade⟩
        obtain ⟨middle, hmiddle⟩ := hmiddle
        obtain ⟨written, hwritten⟩ := (ih (hnext hmiddle)).2 hagrees
        exact ⟨written, Checks.foldlM_cons_eq_ok.mpr ⟨middle, hmiddle, hwritten⟩⟩

/-- Artifacts of different digests are all kept. -/
theorem uniqueArtifacts_of_nodup {artifacts : List RawArtifact}
    (h : (artifacts.map RawArtifact.sha256).Nodup) :
    EvidenceTables.uniqueArtifacts artifacts = .ok artifacts := by
  induction artifacts using List.reverseRecOn with
  | nil => rfl
  | append_singleton artifacts artifact ih =>
      rw [List.map_append, List.map_singleton, List.nodup_append] at h
      have hnew : KeyedList.lookup RawArtifact.sha256 artifact.sha256 artifacts = none := by
        rw [KeyedList.lookup_eq_none_iff]
        intro other hother
        exact h.2.2 other.sha256 (List.mem_map_of_mem hother) artifact.sha256
          (List.mem_singleton_self _)
      unfold EvidenceTables.uniqueArtifacts at ih ⊢
      refine Checks.foldlM_append_eq_ok.mpr ⟨artifacts, ih h.1, ?_⟩
      refine Checks.foldlM_cons_eq_ok.mpr ⟨artifacts ++ [artifact], ?_, rfl⟩
      rw [hnew]

/-- A freeze registers the first response of each body. -/
theorem perform_freeze (responses : List VenueResponse) :
    Registration.perform store tables (.freeze responses) =
      (((Registration.freeze responses).offered store).map store.archive).foldlM
        EvidenceTables.registerFrozenArtifact tables := by
  have hcollect : collectArtifacts (responses.map store.archive) =
      ((Registration.freeze responses).offered store).map store.archive :=
    KeyedList.firsts_map store.archive responses
  have hunique : EvidenceTables.uniqueArtifacts (collectArtifacts (responses.map store.archive)) =
      .ok (collectArtifacts (responses.map store.archive)) :=
    uniqueArtifacts_of_nodup (KeyedList.nodup_firsts _)
  unfold Registration.perform EvidenceTables.persistRawArtifacts
  dsimp only
  rw [hunique, hcollect]
  have hobserved : ((((Registration.freeze responses).offered store).map store.archive).any
      fun artifact => artifact.observedAt.isNone) = false := by
    rw [List.any_eq_false]
    intro artifact hartifact
    obtain ⟨response, -, heq⟩ := List.mem_map.mp hartifact
    rw [← heq]
    exact Bool.false_ne_true
  change (if _ then _ else _) = _
  rw [if_neg (ne_true_of_eq_false hobserved)]

/-- One registration succeeds if its responses agree with all that are registered. -/
theorem perform_spec (registration : Registration) (h : RegisteredFrom store seen tables) :
    (∀ written, registration.perform store tables = .ok written →
      RegisteredFrom store (seen ++ registration.offered store) written) ∧
    (OneRequestPerBody store (seen ++ registration.offered store) →
      ∃ written, registration.perform store tables = .ok written) := by
  cases registration with
  | freeze responses =>
      rw [perform_freeze]
      exact registers_all registers_frozen _ h
  | refresh responses => exact registers_all registers_order responses h

/-- All registrations of a run succeed exactly when the responses agree that they offer. -/
theorem trace_ok_iff (registrations : List Registration) (h : RegisteredFrom store seen tables) :
    (∀ entry ∈ Runs.trace (Registration.step store) tables registrations, entry.2 = .ok ()) ↔
      OneRequestPerBody store (seen ++ registrations.flatMap (Registration.offered store)) := by
  induction registrations generalizing seen tables with
  | nil =>
      rw [List.flatMap_nil, List.append_nil]
      exact ⟨fun _ => h.agrees, fun _ _ hentry => absurd hentry List.not_mem_nil⟩
  | cons registration rest ih =>
      rw [List.flatMap_cons, ← List.append_assoc, Runs.trace, List.forall_mem_cons]
      obtain ⟨hkeeps, hsucceeds⟩ := perform_spec registration h
      unfold Registration.step
      constructor
      · rintro ⟨hfirst, hrest⟩
        cases hperform : registration.perform store tables with
        | error raised =>
            rw [hperform] at hfirst
            cases hfirst
        | ok written =>
            rw [hperform] at hrest
            exact (ih (hkeeps written hperform)).mp hrest
      · intro hagrees
        obtain ⟨written, hperform⟩ := hsucceeds hagrees.of_append
        rw [hperform]
        exact ⟨rfl, (ih (hkeeps written hperform)).mpr hagrees⟩

end registration

/-- From an empty table, every freeze and every order of a run registers its artifacts exactly
when no two of the responses that they offer have one body and different requests. -/
theorem Registration.run_succeeds_iff (store : ArtifactStore) (start : EvidenceTables)
    (hstart : start.rawArtifacts = []) (registrations : List Registration) :
    (∀ entry ∈ Runs.trace (Registration.step store) start registrations, entry.2 = .ok ()) ↔
      OneRequestPerBody store (registrations.flatMap (Registration.offered store)) := by
  have hempty : RegisteredFrom store [] start :=
    ⟨hstart, fun _ hfirst => absurd hfirst List.not_mem_nil⟩
  exact trace_ok_iff registrations hempty

namespace Sample

/-- The body `{"series_fee_change_arr":[]}`. -/
def noFeeChanges : List UInt8 :=
  [123, 34, 115, 101, 114, 105, 101, 115, 95, 102, 101, 101, 95, 99, 104, 97, 110, 103, 101, 95,
    97, 114, 114, 34, 58, 91, 93, 125]

def noFeeChangesDigest : Sha256 :=
  ⟨"6780c8eb7edbb5e1ca3b15166f17cef054befacb2cc8f4bc479c54074a9a2c18", by decide, by decide⟩

def artifactStore : ArtifactStore where
  sha256 content := if content = noFeeChanges then noFeeChangesDigest else digest
  root := "supabase://artifacts/"

def rainFeeChanges : VenueResponse where
  requestIdentity :=
    "GET /trade-api/v2/series/fee_changes?series_ticker=KXRAIN&show_historical=true"
  content := noFeeChanges
  observedAt := moment.instant
  requestIdentity_ne_empty := by decide

def snowFeeChanges : VenueResponse where
  requestIdentity :=
    "GET /trade-api/v2/series/fee_changes?series_ticker=KXSNOW&show_historical=true"
  content := noFeeChanges
  observedAt := moment.instant + 3600000000
  requestIdentity_ne_empty := by decide

def noArtifacts : EvidenceTables := ⟨[], [], [], [], List.nodup_nil⟩

/-- A freeze that finds no fee changes, and an order that finds none for the same series. -/
theorem rainFeeChanges_succeed :
    (∀ entry ∈ Runs.trace (Registration.step artifactStore) noArtifacts
        [.freeze [rainFeeChanges, snowFeeChanges], .refresh [rainFeeChanges]],
      entry.2 = .ok ()) ↔
    OneRequestPerBody artifactStore ([.freeze [rainFeeChanges, snowFeeChanges],
      .refresh [rainFeeChanges]].flatMap (Registration.offered artifactStore)) :=
  Registration.run_succeeds_iff artifactStore noArtifacts rfl _

/-- A freeze that finds no fee changes of one series, and then one, or an order, that finds none
of another series: the first is registered, and the others raise. -/
theorem snowFeeChanges_raise :
    (Runs.trace (Registration.step artifactStore) noArtifacts
      [.freeze [rainFeeChanges], .freeze [snowFeeChanges], .refresh [snowFeeChanges]]).map
        Prod.snd =
      [.ok (), .error (.runtimeError "raw artifact digest was reused with different metadata"),
        .error (.valueError "raw artifact digest was reused with different metadata")] := by
  decide +kernel

end Sample

end VTrade
