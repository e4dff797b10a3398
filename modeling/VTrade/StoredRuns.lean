/-
# Storing what a run has recorded

A run is recorded under the ids that the model chooses, and both writers store it under them
again.  They store it exactly when these ids tell its records apart.
-/

import VTrade.HarnessReturns

namespace VTrade

namespace HarnessTables

/-! ## The records of a run -/

section

variable {tables recorded : HarnessTables}

theorem insertToolRecord_eq_ok {row : HarnessToolRow}
    (h : tables.insertToolRecord row = .ok recorded) :
    recorded.toolRecords = tables.toolRecords ++ [row] ∧ recorded.inventory = tables.inventory := by
  unfold insertToolRecord at h
  split at h
  · cases h
  · split at h
    · cases h
    · cases h
      exact ⟨rfl, rfl⟩

theorem foldlM_insertToolRecord {rows : List HarnessToolRow}
    (h : rows.foldlM insertToolRecord tables = .ok recorded) :
    recorded.toolRecords = tables.toolRecords ++ rows ∧ recorded.inventory = tables.inventory := by
  induction rows generalizing tables with
  | nil =>
      rw [Checks.foldlM_nil_eq_ok] at h
      subst h
      exact ⟨(List.append_nil _).symm, rfl⟩
  | cons row rest ih =>
      obtain ⟨next, hnext, hrest⟩ := Checks.foldlM_cons_eq_ok.mp h
      obtain ⟨hrows, hinventory⟩ := insertToolRecord_eq_ok hnext
      obtain ⟨hrows', hinventory'⟩ := ih hrest
      rw [hrows', hrows, hinventory', hinventory, List.append_assoc]
      exact ⟨rfl, rfl⟩

/-- Rows of new keys are all inserted. -/
theorem foldlM_insertToolRecord_ok {rows : List HarnessToolRow} (tables : HarnessTables)
    (hplace : ((tables.toolRecords ++ rows).map HarnessToolRow.place).Nodup)
    (hkey : ((tables.toolRecords ++ rows).map HarnessToolRow.providerKey).Nodup) :
    ∃ recorded, rows.foldlM insertToolRecord tables = .ok recorded := by
  induction rows generalizing tables with
  | nil => exact ⟨tables, rfl⟩
  | cons row rest ih =>
      have hnew {κ : Type} {key : HarnessToolRow → κ}
          (hunique : ((tables.toolRecords ++ row :: rest).map key).Nodup) :
          ¬ ∃ other ∈ tables.toolRecords, key other = key row := by
        rintro ⟨other, hother, hsame⟩
        rw [List.map_append] at hunique
        exact (List.nodup_append.mp hunique).2.2 (key other) (List.mem_map_of_mem hother) (key row)
          List.mem_cons_self hsame
      have hnext : ∃ next, tables.insertToolRecord row = .ok next := by
        unfold insertToolRecord
        rw [dif_neg (hnew hplace), dif_neg (hnew hkey)]
        exact ⟨_, rfl⟩
      obtain ⟨next, hnext⟩ := hnext
      have hrows := (insertToolRecord_eq_ok hnext).1
      obtain ⟨recorded, hrecorded⟩ := ih next
        (by rw [hrows, List.append_assoc]; exact hplace)
        (by rw [hrows, List.append_assoc]; exact hkey)
      exact ⟨recorded, Checks.foldlM_cons_eq_ok.mpr ⟨next, hnext, hrecorded⟩⟩

theorem toolRows_keys (agentCycleId : String) (retainUntil : Instant)
    (records : List ToolCallRecord) :
    ((toolRows agentCycleId retainUntil records).map HarnessToolRow.place).Nodup ∧
      (((toolRows agentCycleId retainUntil records).map HarnessToolRow.providerKey).Nodup ↔
        (records.map ToolCallRecord.id).Nodup) := by
  constructor
  · have hplaces : (toolRows agentCycleId retainUntil records).map HarnessToolRow.place =
        (List.range' 0 records.length).map fun index => (agentCycleId, index) := by
      rw [toolRows, List.map_map, ← List.zipIdx_map_snd, List.map_map]
      rfl
    have hindexes : (List.range' 0 records.length).Nodup := List.nodup_range'
    rw [hplaces]
    exact hindexes.map fun first second hsame => congrArg Prod.snd hsame
  · have hkeys : (toolRows agentCycleId retainUntil records).map HarnessToolRow.providerKey =
        (records.map ToolCallRecord.id).map fun id => (agentCycleId, id) := by
      calc (toolRows agentCycleId retainUntil records).map HarnessToolRow.providerKey
          = (records.zipIdx.map Prod.fst).map fun record => (agentCycleId, record.id) := by
            rw [toolRows, List.map_map, List.map_map]
            rfl
        _ = (records.map ToolCallRecord.id).map fun id => (agentCycleId, id) := by
            rw [List.zipIdx_map_fst, List.map_map]
            rfl
    rw [hkeys]
    exact List.nodup_map_iff fun first second hsame => congrArg Prod.snd hsame

/-- Nothing of the run of a cycle is stored. -/
structure Unstored (tables : HarnessTables) (agentCycleId : String) : Prop where
  run : tables.run? agentCycleId = none
  toolRecords : ∀ row ∈ tables.toolRecords, row.agentCycleId ≠ agentCycleId

theorem foldlM_persistArtifact_ok {completedAt retainUntil : Instant}
    (hretain : sixMonthRetainUntil completedAt = .ok retainUntil)
    {artifacts : List ArtifactRegistration}
    (hartifacts : ∀ artifact ∈ artifacts, artifact.retainUntil = retainUntil)
    (inventory : ArtifactInventory) :
    ∃ registered, artifacts.foldlM (ArtifactInventory.persistArtifact completedAt) inventory =
      .ok registered := by
  induction artifacts generalizing inventory with
  | nil => exact ⟨inventory, rfl⟩
  | cons artifact rest ih =>
      obtain ⟨hfirst, hrest⟩ := List.forall_mem_cons.mp hartifacts
      have hdate : ArtifactInventory.persistedRetainUntil completedAt artifact =
          .ok artifact.retainUntil := by
        unfold ArtifactInventory.persistedRetainUntil
        refine Checks.bind_eq_ok.mpr ⟨retainUntil, hretain, ?_⟩
        rw [if_neg (by rw [hfirst]; exact lt_irrefl _)]
      obtain ⟨registered, hregistered⟩ := ih hrest
        (inventory.upsert true artifact artifact.retainUntil completedAt)
      refine ⟨registered, Checks.foldlM_cons_eq_ok.mpr ⟨_, ?_, hregistered⟩⟩
      rw [ArtifactInventory.persistArtifact, hdate]
      rfl

/-- The run of a cycle that has none is stored exactly when no two of its records have the same
id. -/
theorem persistRun_ok_iff {agentCycleId transcriptUri : String} {transcriptSha256 : Sha256}
    {completedAt retainUntil : Instant} {artifacts : List ArtifactRegistration}
    (result : HarnessResult) (hretain : sixMonthRetainUntil completedAt = .ok retainUntil)
    (hlater : completedAt < retainUntil)
    (hartifacts : ∀ artifact ∈ artifacts, artifact.retainUntil = retainUntil)
    (hunstored : Unstored tables agentCycleId) :
    (∃ stored, tables.persistRun agentCycleId result transcriptUri transcriptSha256 completedAt
      retainUntil artifacts = .ok stored) ↔ (result.toolCalls.map ToolCallRecord.id).Nodup := by
  obtain ⟨hplaces, hkeys⟩ := toolRows_keys agentCycleId retainUntil result.toolCalls
  unfold persistRun
  rw [if_neg (not_le.mpr hlater), hunstored.run]
  dsimp only
  constructor
  · rintro ⟨stored, h⟩
    obtain ⟨recorded, hrecorded, -⟩ := Checks.bind_eq_ok.mp h
    have hunique := recorded.providerKey_unique
    rw [(foldlM_insertToolRecord hrecorded).1, List.map_append] at hunique
    exact hkeys.mp (List.nodup_append.mp hunique).2.1
  · intro hids
    have hfresh {κ : Type} {key : HarnessToolRow → String × κ}
        (hcycle : ∀ row, (key row).1 = row.agentCycleId)
        (hold : (tables.toolRecords.map key).Nodup)
        (hnew : ((toolRows agentCycleId retainUntil result.toolCalls).map key).Nodup) :
        ((tables.toolRecords ++ toolRows agentCycleId retainUntil result.toolCalls).map
          key).Nodup := by
      rw [List.map_append]
      refine List.nodup_append.mpr ⟨hold, hnew, ?_⟩
      intro first hfirst second hsecond hsame
      obtain ⟨row, hrow, rfl⟩ := List.mem_map.mp hfirst
      obtain ⟨other, hother, rfl⟩ := List.mem_map.mp hsecond
      obtain ⟨call, -, rfl⟩ := List.mem_map.mp hother
      apply hunstored.toolRecords row hrow
      rw [← hcycle row, hsame, hcycle]
      rfl
    obtain ⟨recorded, hrecorded⟩ := foldlM_insertToolRecord_ok
      (tables.insertRun (runRow agentCycleId result transcriptUri transcriptSha256 completedAt
        retainUntil))
      (hfresh (fun _ => rfl) tables.place_unique hplaces)
      (hfresh (fun _ => rfl) tables.providerKey_unique (hkeys.mpr hids))
    obtain ⟨registered, hregistered⟩ := foldlM_persistArtifact_ok hretain hartifacts
      recorded.inventory
    have hstored : ∃ stored, recorded.insertUsage agentCycleId result.telemetry completedAt
        retainUntil artifacts = .ok stored := by
      rw [insertUsage, hregistered]
      exact ⟨_, rfl⟩
    obtain ⟨stored, hstored⟩ := hstored
    exact ⟨stored, Checks.bind_eq_ok.mpr ⟨recorded, hrecorded, hstored⟩⟩

end

end HarnessTables

namespace AuditPorts

variable (audit : AuditPorts)

/-! ## When a run is stored -/

/-- The records that the audit finds for the calls of a message. -/
def foundRecords (result : HarnessResult) (message : JsonObject) : List ToolCallRecord :=
  (auditedCalls message).filterMap (audit.recordOf result.toolCalls)

/-- The ids of a result tell its records apart for both writers: no two records have the same id,
the calls of no message are found the same record, and no more research calls are found records
than have succeeded. -/
structure Storable (result : HarnessResult) : Prop where
  records : (result.toolCalls.map ToolCallRecord.id).Nodup
  calls : ∀ message ∈ result.messages, isAssistant message = true →
    ((audit.foundRecords result message).map ToolCallRecord.id).Nodup
  research : ((result.messages.filter isAssistant).flatMap (audit.foundRecords result)).countP
    ToolCallRecord.isResearch ≤ result.toolCalls.countP ToolCallRecord.isResearch

section

variable {audit} {result : HarnessResult} {cycleId : String}

theorem map_record_placed (records : List ToolCallRecord) (turn : ModelTurnId)
    (calls : List Json) :
    (audit.placed records turn calls).map Placement.record =
      calls.filterMap (audit.recordOf records) := by
  have hcalls : calls.zipIdx.filterMap (fun call => audit.recordOf records call.1) =
      calls.filterMap (audit.recordOf records) := by
    conv_rhs => rw [← List.zipIdx_map_fst 0 calls]
    rw [List.filterMap_map]
    rfl
  rw [placed, List.map_filterMap, ← hcalls]
  congr
  funext call
  cases audit.recordOf records call.1 <;> rfl

/-- The records that are placed are those that are found. -/
theorem map_record_placements (index : ℕ) (messages : List JsonObject) :
    (audit.placements result.toolCalls cycleId index messages).map Placement.record =
      (messages.filter isAssistant).flatMap (audit.foundRecords result) := by
  induction messages generalizing index with
  | nil => rfl
  | cons message rest ih =>
      rw [placements]
      split
      next hassistant =>
        rw [List.map_append, map_record_placed, ih, List.filter_cons_of_pos hassistant,
          List.flatMap_cons]
        rfl
      next hassistant => rw [ih, List.filter_cons_of_neg hassistant]

theorem nodup_providerKey_placements (index : ℕ) (messages : List JsonObject) :
    ((audit.placements result.toolCalls cycleId index messages).map
        Placement.providerKey).Nodup ↔
      ∀ message ∈ messages, isAssistant message = true →
        ((audit.foundRecords result message).map ToolCallRecord.id).Nodup := by
  induction messages generalizing index with
  | nil => simp [placements]
  | cons message rest ih =>
      rw [placements, List.forall_mem_cons]
      split
      next hassistant =>
        have hkeys : (audit.placed result.toolCalls ⟨cycleId, index⟩ (auditedCalls message)).map
            Placement.providerKey = ((audit.foundRecords result message).map
              ToolCallRecord.id).map fun id => (⟨cycleId, index⟩, id) := by
          rw [foundRecords, ← map_record_placed result.toolCalls ⟨cycleId, index⟩, List.map_map,
            List.map_map]
          apply List.map_congr_left
          intro placement hplacement
          exact Prod.ext (mem_placed hplacement).2 rfl
        have hfirst : ((audit.placed result.toolCalls ⟨cycleId, index⟩ (auditedCalls message)).map
            Placement.providerKey).Nodup ↔
              ((audit.foundRecords result message).map ToolCallRecord.id).Nodup := by
          rw [hkeys]
          exact List.nodup_map_iff fun first second hsame => congrArg Prod.snd hsame
        rw [List.map_append, ← ih (index + 1), ← hfirst]
        constructor
        · intro h
          obtain ⟨hplaced, hrest, -⟩ := List.nodup_append.mp h
          exact ⟨fun _ => hplaced, hrest⟩
        · rintro ⟨hplaced, hrest⟩
          refine List.nodup_append.mpr ⟨hplaced hassistant, hrest, ?_⟩
          intro first hfirst second hsecond hsame
          obtain ⟨placement, hplacement, rfl⟩ := List.mem_map.mp hfirst
          obtain ⟨other, hother, rfl⟩ := List.mem_map.mp hsecond
          have hturn : placement.id.turn = other.id.turn := congrArg Prod.fst hsame
          have hindex := (mem_placements hother).2.2
          rw [← hturn, (mem_placed hplacement).2] at hindex
          exact absurd hindex (Nat.not_succ_le_self index)
      next hassistant =>
        rw [ih index]
        exact ⟨fun h => ⟨fun hother => absurd hother hassistant, h⟩, And.right⟩

end

end AuditPorts

namespace BoundedToolHarness

section

variable {harness : BoundedToolHarness} {production : ProductionPorts} {audit : AuditPorts}
  {initialMessages : List JsonObject} {modelConfig : JsonObject} {final : HarnessState}
  {turns : List HarnessTurn} {status : String}

/-- The records of a run and the telemetry of its web searches, by its turns. -/
theorem run_result (h : harness.run production.toHarnessPorts initialMessages modelConfig =
      (final, turns, .ok status)) :
    (final.result status).toolCalls =
        (turns.flatMap HarnessTurn.outcomes).map CallOutcome.record ∧
      AuditPorts.searchTelemetry (final.result status) =
        (turns.flatMap HarnessTurn.outcomes).flatMap CallOutcome.telemetry ∧
      ∀ outcome ∈ turns.flatMap HarnessTurn.outcomes, Furnished outcome := by
  have hreturned := run_returned h
  refine ⟨?_, ?_, hreturned.recorded.furnished⟩
  · have hrecords : (final.result status).toolCalls =
        turns.flatMap fun turn => turn.outcomes.map CallOutcome.record :=
      hreturned.records
    rw [hrecords, List.map_flatMap]
  · have htelemetry : (final.result status).telemetry = turns.flatMap fun turn =>
        turn.telemetry :: turn.outcomes.flatMap CallOutcome.telemetry :=
      hreturned.telemetry
    rw [AuditPorts.searchTelemetry, htelemetry]
    exact hreturned.recorded.search

/-- The outputs of the research calls of a run are results. -/
theorem run_formed (h : harness.run production.toHarnessPorts initialMessages modelConfig =
      (final, turns, .ok status)) :
    ∀ record ∈ (final.result status).toolCalls, record.isResearch = true →
      WellFormedResearch record.output := by
  obtain ⟨hrecords, -, hfurnished⟩ := run_result h
  intro record hrecord hresearch
  rw [hrecords] at hrecord
  obtain ⟨outcome, houtcome, rfl⟩ := List.mem_map.mp hrecord
  have hfound := hfurnished outcome houtcome
  rw [Furnished, if_pos hresearch] at hfound
  exact hfound.2

/-- The run of a cycle is stored by both writers exactly when its ids tell its records apart. -/
theorem run_stored_iff (harness : BoundedToolHarness) (production : ProductionPorts)
    (initialMessages : List JsonObject) (modelConfig : JsonObject) (final : HarnessState)
    (turns : List HarnessTurn) (status : String)
    (hrun : harness.run production.toHarnessPorts initialMessages modelConfig =
      (final, turns, .ok status))
    (audit : AuditPorts) (claim : CycleClaim) (cutoff : Instant)
    (hcutoff : claim.dataCutoff = some cutoff) (completedAt retainUntil : Instant)
    (hretain : sixMonthRetainUntil completedAt = .ok retainUntil)
    (hlater : completedAt < retainUntil) (transcriptUri : String) (transcriptSha256 : Sha256)
    (artifacts : List ArtifactRegistration)
    (hartifacts : ∀ artifact ∈ artifacts, artifact.retainUntil = retainUntil)
    (runs : HarnessTables) (hunstored : HarnessTables.Unstored runs claim.cycleId)
    (tables : AuditTables) (hunaudited : AuditPorts.Unaudited tables claim.cycleId) :
    ((∃ stored, runs.persistRun claim.cycleId (final.result status) transcriptUri transcriptSha256
        completedAt retainUntil artifacts = .ok stored) ∧
      ∃ audited, audit.persistDetailedAudit claim retainUntil completedAt tables
        (final.result status) = .ok audited) ↔
    audit.Storable (final.result status) := by
  obtain ⟨hrecords, hsearch, hfurnished⟩ := run_result hrun
  have hcount : (AuditPorts.searchTelemetry (final.result status)).length =
      (final.result status).toolCalls.countP ToolCallRecord.isResearch := by
    rw [hsearch, hrecords, length_furnished hfurnished, List.countP_map]
    rfl
  have hplaced : (audit.placements (final.result status).toolCalls claim.cycleId 0
      (final.result status).messages).countP Placement.isResearch =
        (((final.result status).messages.filter isAssistant).flatMap
          (audit.foundRecords (final.result status))).countP ToolCallRecord.isResearch := by
    rw [← AuditPorts.map_record_placements 0, List.countP_map]
    rfl
  rw [HarnessTables.persistRun_ok_iff (final.result status) hretain hlater hartifacts hunstored,
    AuditPorts.persistDetailedAudit_ok_iff audit retainUntil completedAt hcutoff hunaudited
      (run_formed hrun),
    AuditPorts.nodup_providerKey_placements, hplaced, hcount]
  exact ⟨fun ⟨hids, hcalls, hresearch⟩ => ⟨hids, hcalls, hresearch⟩,
    fun h => ⟨h.records, h.calls, h.research⟩⟩

end

end BoundedToolHarness

namespace Sample

/-- A tool that reads the balance. -/
def getBalance : ToolSpec where
  name := "get_balance"
  schema := []
  category := "account"
  inputError _ := none
  outputError _ := none

def harnessLimits : HarnessLimits where
  maximumModelTurns := 4
  maximumTotalToolCalls := 100
  maximumWebSearches := 50
  maximumWallClockSeconds := 600
  maximumContextTokens := 100
  maximumAssembledInputTokens := 90
  maximumModelOutputTokens := 10
  maximumToolCallArgumentsTokens := 10
  maximumDefaultToolResultTokens := 10
  maximumGetPortfolioResultTokens := 10
  positive := by decide
  wallClock_pos := by decide
  observed_traces := by decide
  context := by decide
  portfolio := by decide

def balanceHarness : BoundedToolHarness where
  tools := [getBalance]
  limits := harnessLimits
  names_unique := by decide

/-- A message with one call of the tool, under an id. -/
def balanceCall (id : String) : JsonObject :=
  [("role", .text "assistant"), ("tool_calls", .array [.object [("id", .text id),
    ("function", .object [("name", .text "get_balance"), ("arguments", .text "{}")])]])]

def finalMessage : JsonObject := [("role", .text "assistant"), ("content", .text "done")]

def modelTelemetry : ProviderTelemetry := ⟨"openrouter", "model", 10, 1, "s3://response", digest.hex⟩

/-- Identifiers that are not empty. -/
def callIds : RandomIds where
  hex n := String.ofList (List.replicate (n + 1) '-')
  injective first second h := by
    have hlength := congrArg (fun text => text.toList.length) h
    simpa using hlength
  no_colon n h := by
    rw [String.toList_ofList] at h
    exact absurd (List.eq_of_mem_replicate h) (by decide)

/-- A model that calls the tool under some ids, one a turn, and stops. -/
def balanceModel (ids : List String) : ProductionPorts where
  complete number _ := .ok ⟨[("choices", .array [.object [("message",
    .object ((ids[number]?).elim finalMessage balanceCall))]])], modelTelemetry⟩
  handle _ name _ :=
    if name ∈ exaResearchToolNames then .failed ⟨"ToolContextUnavailable", "no research"⟩
    else .returned (.object [("balance_micros", .int 1)]) []
  monotonic _ := 0
  ids := callIds
  tokenCounter _ := 1
  printedTokens _ := 1
  dumps _ := "{}"
  loads _ := .ok (.object [])
  model_telemetry number messages response h := by
    cases h
    rfl
  research number name arguments output telemetry hname h := by
    rw [if_pos hname] at h
    cases h
  silent number name arguments output telemetry hname h := by
    rw [if_neg hname] at h
    cases h
    rfl
  failed_class number name arguments error h := by
    split at h
    · cases h
      decide
    · cases h

def auditPorts : AuditPorts where
  str _ := "None"
  sha256 _ := digest
  researchTimestamp _ := none

/-- A run of the model, with what it ends with. -/
def balanceRun (ids : List String) :
    HarnessState × List BoundedToolHarness.HarnessTurn × Except HarnessFailure String :=
  balanceHarness.run (balanceModel ids).toHarnessPorts
    [[("role", .text "system")], [("role", .text "user")]] [("maximum_output_tokens", .int 10)]

theorem no_rows_known : ∀ row ∈ ([] : List ArtifactInventoryRow),
    row.id = .uuid5 row.uri ∨ ∃ n < 0, row.id = .uuid4 n := nofun

theorem no_places : (([] : List HarnessToolRow).map HarnessToolRow.place).Nodup :=
  List.nodup_nil

theorem no_providerKeys : (([] : List HarnessToolRow).map HarnessToolRow.providerKey).Nodup :=
  List.nodup_nil

def noRuns : HarnessTables :=
  ⟨[], [], [], ⟨[], 0, List.nodup_nil, List.nodup_nil, no_rows_known⟩, no_places, no_providerKeys⟩

def noAudits : AuditTables := ⟨[], [], [], [], by decide, by decide⟩

/-- The claim of a cycle whose data is final. -/
def finalClaim : CycleClaim where
  cycleId := "cycle"
  agentId := "agent"
  scheduledAt := moment.instant
  dataCutoff := some moment.instant
  leaseOwner := "worker:0"
  leaseExpiresAt := moment.instant + 1000
  recovery := false
  attempt := 1
  cutoff_ge := by simp

/-- Half a year after the start of 2026. -/
def halfYearLater : Instant := moment.instant + 181 * 86400000000

/-- The model uses an id again in its second turn: the run is not stored. -/
theorem repeatedId_unstored :
    (balanceRun ["a", "a"]).2.2 = .ok "stop" ∧
      ¬ ∃ stored, noRuns.persistRun "cycle" ((balanceRun ["a", "a"]).1.result "stop") "s3://run"
        digest moment.instant halfYearLater [] = .ok stored := by
  refine ⟨by decide +kernel, ?_⟩
  have hraised : noRuns.persistRun "cycle" ((balanceRun ["a", "a"]).1.result "stop") "s3://run"
      digest moment.instant halfYearLater [] = .error
        (.uniqueViolation "harness_tool_records_harness_run_id_provider_call_id_key") :=
    Checks.eq_error_of_raises (by decide +kernel)
  rw [hraised]
  exact nofun

/-- A run whose ids differ is stored by both writers. -/
theorem distinctIds_stored :
    (∃ stored, noRuns.persistRun "cycle" ((balanceRun ["a", "b"]).1.result "stop") "s3://run"
        digest moment.instant halfYearLater [] = .ok stored) ∧
      ∃ audited, auditPorts.persistDetailedAudit finalClaim halfYearLater moment.instant noAudits
        ((balanceRun ["a", "b"]).1.result "stop") = .ok audited := by
  have hrun : balanceRun ["a", "b"] =
      ((balanceRun ["a", "b"]).1, (balanceRun ["a", "b"]).2.1, .ok "stop") :=
    Prod.ext rfl (Prod.ext rfl (by decide +kernel))
  exact (BoundedToolHarness.run_stored_iff balanceHarness (balanceModel ["a", "b"]) _ _ _ _ "stop"
    hrun auditPorts finalClaim moment.instant rfl moment.instant halfYearLater (by decide +kernel)
    (by decide +kernel) "s3://run" digest [] (by simp) noRuns ⟨by decide +kernel, nofun⟩ noAudits
    ⟨nofun, nofun⟩).mpr ⟨by decide +kernel, by decide +kernel, by decide +kernel⟩

end Sample

end VTrade
