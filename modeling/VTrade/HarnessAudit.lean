/-
# Storing the run of a harness

A run that returns is stored twice: its records, one row for each, and then the detailed audit,
which goes through the transcript again, looks the record of every call up by the id that the
call carries, and hands the telemetry of the web searches out in their order.  Each of the two is
one transaction.
-/

import VTrade.ArtifactRetention
import VTrade.HarnessRuns

namespace VTrade

/-- What storing a run raises. -/
inductive AuditFailure
  | uniqueViolation (constraint : String)
  | valueError (message : String)
  | retention (failure : RetentionFailure)
  /-- `ProductionCompositionUnavailable`. -/
  | unavailable (message : String)
  deriving DecidableEq

structure HarnessResult where
  messages : List JsonObject
  toolCalls : List ToolCallRecord
  telemetry : List ProviderTelemetry
  terminationStatus : String
  totalCompletionTokens : ℤ

/-- The result of a run that ends in a state. -/
def HarnessState.result (state : HarnessState) (terminationStatus : String) : HarnessResult where
  messages := state.messages
  toolCalls := state.records
  telemetry := state.telemetry
  terminationStatus := terminationStatus
  totalCompletionTokens := state.completionTokens

/-- Whether a record is one of a web tool that succeeded. -/
def ToolCallRecord.isResearch (record : ToolCallRecord) : Bool :=
  record.name ∈ exaResearchToolNames && record.success

/-! ## The records of a run -/

/-- A row of `harness_runs`, which is named after its cycle. -/
structure HarnessRunRow where
  agentCycleId : String
  terminationStatus : String
  totalModelTurns : ℕ
  totalToolCalls : ℕ
  totalWebSearches : ℕ
  totalCompletionTokens : ℤ
  transcriptUri : String
  transcriptSha256 : Sha256
  retainUntil : Instant
  completedAt : Instant

/-- A row of `harness_tool_records`, which is named after its run and its index. -/
structure HarnessToolRow where
  agentCycleId : String
  callIndex : ℕ
  providerCallId : String
  toolName : String
  category : String
  arguments : Option JsonObject
  output : JsonObject
  success : Bool
  retainUntil : Instant

/-- The key of a tool record. -/
def HarnessToolRow.place (row : HarnessToolRow) : String × ℕ := (row.agentCycleId, row.callIndex)

/-- The id of a tool record, which its run has once. -/
def HarnessToolRow.providerKey (row : HarnessToolRow) : String × String :=
  (row.agentCycleId, row.providerCallId)

structure ProviderUsageRow where
  agentCycleId : String
  telemetry : ProviderTelemetry
  retainUntil : Instant
  createdAt : Instant

structure HarnessTables where
  runs : List HarnessRunRow
  toolRecords : List HarnessToolRow
  usage : List ProviderUsageRow
  inventory : ArtifactInventory
  place_unique : (toolRecords.map HarnessToolRow.place).Nodup
  providerKey_unique : (toolRecords.map HarnessToolRow.providerKey).Nodup

namespace HarnessTables

variable (tables : HarnessTables)

/-- The run of a cycle. -/
def run? (agentCycleId : String) : Option HarnessRunRow :=
  KeyedList.lookup HarnessRunRow.agentCycleId agentCycleId tables.runs

/-- `INSERT INTO harness_tool_records`. -/
def insertToolRecord (row : HarnessToolRow) : Except AuditFailure HarnessTables :=
  if hplace : ∃ other ∈ tables.toolRecords, other.place = row.place then
    .error (.uniqueViolation "harness_tool_records_harness_run_id_call_index_key")
  else if hkey : ∃ other ∈ tables.toolRecords, other.providerKey = row.providerKey then
    .error (.uniqueViolation "harness_tool_records_harness_run_id_provider_call_id_key")
  else
    .ok { tables with
      toolRecords := tables.toolRecords ++ [row]
      place_unique := KeyedList.nodup_concat tables.place_unique
        fun other hother hsame => hplace ⟨other, hother, hsame⟩
      providerKey_unique := KeyedList.nodup_concat tables.providerKey_unique
        fun other hother hsame => hkey ⟨other, hother, hsame⟩ }

/-- The row of a record. -/
def toolRow (agentCycleId : String) (retainUntil : Instant) (record : ToolCallRecord)
    (callIndex : ℕ) : HarnessToolRow where
  agentCycleId := agentCycleId
  callIndex := callIndex
  providerCallId := record.id
  toolName := record.name
  category := record.category
  arguments := record.arguments
  output := record.output
  success := record.success
  retainUntil := retainUntil

/-- The rows of the records of a run. -/
def toolRows (agentCycleId : String) (retainUntil : Instant) (records : List ToolCallRecord) :
    List HarnessToolRow :=
  records.zipIdx.map fun call => toolRow agentCycleId retainUntil call.1 call.2

/-- The row of a run. -/
def runRow (agentCycleId : String) (result : HarnessResult) (transcriptUri : String)
    (transcriptSha256 : Sha256) (completedAt retainUntil : Instant) : HarnessRunRow where
  agentCycleId := agentCycleId
  terminationStatus := result.terminationStatus
  totalModelTurns := result.telemetry.countP fun usage =>
    usage.usageKind ∈ ["model", "model_replay"]
  totalToolCalls := result.toolCalls.length
  totalWebSearches := result.toolCalls.countP fun call => call.name ∈ exaResearchToolNames
  totalCompletionTokens := result.totalCompletionTokens
  transcriptUri := transcriptUri
  transcriptSha256 := transcriptSha256
  retainUntil := retainUntil
  completedAt := completedAt

/-- `INSERT INTO harness_runs`, for a cycle that has none. -/
def insertRun (row : HarnessRunRow) : HarnessTables :=
  { tables with runs := tables.runs ++ [row] }

/-- The usage and the artifacts of a run. -/
def insertUsage (agentCycleId : String) (telemetry : List ProviderTelemetry)
    (completedAt retainUntil : Instant) (artifacts : List ArtifactRegistration) :
    Except AuditFailure HarnessTables :=
  match artifacts.foldlM (ArtifactInventory.persistArtifact completedAt) tables.inventory with
  | .error failure => .error (.retention failure)
  | .ok inventory =>
      .ok { tables with
        usage := tables.usage ++ telemetry.map fun usage =>
          ⟨agentCycleId, usage, retainUntil, completedAt⟩
        inventory := inventory }

/-- `persist_run`. -/
def persistRun (agentCycleId : String) (result : HarnessResult) (transcriptUri : String)
    (transcriptSha256 : Sha256) (completedAt retainUntil : Instant)
    (artifacts : List ArtifactRegistration) : Except AuditFailure HarnessTables :=
  if retainUntil ≤ completedAt then
    .error (.valueError "harness artifacts must be retained beyond completion")
  else
    match tables.run? agentCycleId with
    | some existing =>
        if existing.transcriptSha256 ≠ transcriptSha256 then
          .error (.valueError "harness idempotency key reused with another transcript")
        else .ok tables
    | none => do
        let recorded ← (toolRows agentCycleId retainUntil result.toolCalls).foldlM insertToolRecord
          (tables.insertRun
            (runRow agentCycleId result transcriptUri transcriptSha256 completedAt retainUntil))
        recorded.insertUsage agentCycleId result.telemetry completedAt retainUntil artifacts

end HarnessTables

/-! ## The detailed audit -/

/-- A turn of the model, by which its row is named. -/
structure ModelTurnId where
  cycleId : String
  turnIndex : ℕ
  deriving DecidableEq

/-- A call of a turn, by which its row is named. -/
structure ToolCallId where
  turn : ModelTurnId
  callIndex : ℕ
  deriving DecidableEq

/-- A document, by its location and the digest of its content. -/
structure DocumentId where
  canonicalUrl : String
  contentSha256 : Sha256
  deriving DecidableEq

structure ModelTurnRow where
  id : ModelTurnId
  request : List JsonObject
  response : JsonObject
  terminationStatus : String
  completedAt : Instant
  rawArtifactUri : Option String
  rawSha256 : Option String
  retainUntil : Instant

structure ToolCallRow where
  id : ToolCallId
  providerCallId : String
  category : String
  toolName : String
  arguments : JsonObject
  output : JsonObject
  success : Bool
  validationStatus : String
  error : Option String
  completedAt : Instant
  retainUntil : Instant

/-- The id of a call, which its turn has once. -/
def ToolCallRow.providerKey (row : ToolCallRow) : ModelTurnId × String :=
  (row.id.turn, row.providerCallId)

structure ResearchDocumentRow where
  id : DocumentId
  title : String
  sourcePublishedAt : Option Instant
  fetchedAt : Instant

structure ResearchArtifactRow where
  toolCallId : ToolCallId
  documentId : DocumentId
  provider : String
  query : String
  artifactUri : String
  rawSha256 : String
  sourceCutoff : Instant
  createdAt : Instant

/-- What the row of a research artifact is named after. -/
def ResearchArtifactRow.name (row : ResearchArtifactRow) : ToolCallId × DocumentId :=
  (row.toolCallId, row.documentId)

structure AuditTables where
  modelTurns : List ModelTurnRow
  toolCalls : List ToolCallRow
  documents : List ResearchDocumentRow
  artifacts : List ResearchArtifactRow
  id_unique : (toolCalls.map ToolCallRow.id).Nodup
  providerKey_unique : (toolCalls.map ToolCallRow.providerKey).Nodup

namespace AuditTables

variable (tables : AuditTables)

/-- The row of a call. -/
def toolCall? (id : ToolCallId) : Option ToolCallRow :=
  KeyedList.lookup ToolCallRow.id id tables.toolCalls

/-- The research artifacts of a call. -/
def artifactsOf (id : ToolCallId) : List ResearchArtifactRow :=
  tables.artifacts.filter fun artifact => artifact.toolCallId = id

/-- `INSERT INTO model_turns … ON CONFLICT (agent_cycle_id, turn_index) DO NOTHING`. -/
def insertModelTurn (row : ModelTurnRow) : AuditTables :=
  { tables with modelTurns := KeyedList.insertNew ModelTurnRow.id row tables.modelTurns }

/-- `INSERT INTO tool_calls … ON CONFLICT (model_turn_id, call_index) DO NOTHING`. -/
def insertToolCall (row : ToolCallRow) : Except AuditFailure AuditTables :=
  if hid : ∃ other ∈ tables.toolCalls, other.id = row.id then .ok tables
  else if hkey : ∃ other ∈ tables.toolCalls, other.providerKey = row.providerKey then
    .error (.uniqueViolation "tool_calls_model_turn_id_provider_call_id_key")
  else
    .ok { tables with
      toolCalls := tables.toolCalls ++ [row]
      id_unique := KeyedList.nodup_concat tables.id_unique
        fun other hother hsame => hid ⟨other, hother, hsame⟩
      providerKey_unique := KeyedList.nodup_concat tables.providerKey_unique
        fun other hother hsame => hkey ⟨other, hother, hsame⟩ }

end AuditTables

/-- What the audit takes from the language and its libraries. -/
structure AuditPorts where
  /-- `str` of a value that is no text. -/
  str : Json → String
  /-- The digest of a content in UTF-8. -/
  sha256 : String → Sha256
  /-- `_optional_research_timestamp`. -/
  researchTimestamp : Option Json → Option Instant

namespace AuditPorts

variable (ports : AuditPorts)

/-- `str`. -/
def printed : Json → String
  | .text value => value
  | value => ports.str value

/-- `str(value or "")`. -/
def printedOrEmpty (value : Option Json) : String :=
  match value.filter Json.isTruthy with
  | some value => ports.printed value
  | none => ""

/-- The id that the audit reads in a call. -/
def callId (call : JsonObject) : String := ports.printedOrEmpty (Json.get call "id")

/-- The content of a result. -/
def researchContent (row : JsonObject) : String :=
  match Json.get row "content", Json.get row "full_text", Json.get row "highlights" with
  | some (.text content), _, _ => content
  | _, some (.text text), _ => text
  | _, _, some (.array highlights) => "\n".intercalate (highlights.map ports.printed)
  | _, _, _ => ""

/-- The query that is kept of the arguments of a call. -/
def researchQuery (arguments : JsonObject) : String :=
  match (Json.get arguments "query").filter Json.isTruthy with
  | some query => ports.printed query
  | none => ports.printedOrEmpty (Json.get arguments "highlight_query")

/-- The results in the output of a web tool. -/
def researchResults (output : JsonObject) : Except AuditFailure (List Json) :=
  match Json.get output "results" with
  | some (.array rows) => .ok rows
  | some _ => .error (.unavailable "Exa research result list is malformed")
  | none =>
      if (Json.get output "url").isSome then .ok [.object output]
      else .error (.unavailable "Exa research result is malformed")

/-- The location in a result. -/
def researchUrl (row : JsonObject) : Except AuditFailure String :=
  match Json.get row "url" with
  | some (.text url) =>
      if url = "" then .error (.unavailable "Exa research result URL is missing") else .ok url
  | _ => .error (.unavailable "Exa research result URL is missing")

variable (claim : CycleClaim) (retainUntil completedAt : Instant)

/-- The row of the document of a result. -/
def documentRow (url : String) (row : JsonObject) : ResearchDocumentRow where
  id := ⟨url, ports.sha256 (ports.researchContent row)⟩
  title := ports.printedOrEmpty (Json.get row "title")
  sourcePublishedAt := ports.researchTimestamp (Json.get row "published_at")
  fetchedAt := completedAt

/-- The row of the artifact of a result. -/
def artifactRow (callId : ToolCallId) (record : ToolCallRecord) (telemetry : ProviderTelemetry)
    (cutoff : Instant) (url : String) (row : JsonObject) : ResearchArtifactRow where
  toolCallId := callId
  documentId := ⟨url, ports.sha256 (ports.researchContent row)⟩
  provider := telemetry.provider
  query := ports.researchQuery (record.arguments.getD [])
  artifactUri := telemetry.artifactUri
  rawSha256 := telemetry.rawSha256
  sourceCutoff := cutoff
  createdAt := completedAt

/-- The rows of a result.  The document that the artifact is to refer to is the one of its location
and digest, inserted now or before. -/
def storeResult (callId : ToolCallId) (record : ToolCallRecord) (telemetry : ProviderTelemetry)
    (cutoff : Instant) (url : String) (row : JsonObject) (tables : AuditTables) : AuditTables :=
  { tables with
    documents := KeyedList.insertNew ResearchDocumentRow.id
      (ports.documentRow completedAt url row) tables.documents
    artifacts := KeyedList.insertNew ResearchArtifactRow.name
      (ports.artifactRow completedAt callId record telemetry cutoff url row) tables.artifacts }

/-- One result of `_persist_research`. -/
def persistResult (callId : ToolCallId) (record : ToolCallRecord) (telemetry : ProviderTelemetry)
    (tables : AuditTables) (row : Json) : Except AuditFailure AuditTables :=
  match row with
  | .object row => do
      let url ← researchUrl row
      match claim.dataCutoff with
      | none => .error (.unavailable "cycle cutoff is not finalized")
      | some cutoff =>
          .ok (ports.storeResult completedAt callId record telemetry cutoff url row tables)
  | _ => .error (.unavailable "Exa research result is malformed")

/-- `_persist_research`. -/
def persistResearch (callId : ToolCallId) (record : ToolCallRecord) (telemetry : ProviderTelemetry)
    (tables : AuditTables) : Except AuditFailure AuditTables := do
  let results ← researchResults record.output
  results.foldlM (ports.persistResult claim completedAt callId record telemetry) tables

/-- The row of a call. -/
def toolCallRow (record : ToolCallRecord) (id : ToolCallId) : ToolCallRow where
  id := id
  providerCallId := record.id
  category := record.category
  toolName := record.name
  arguments := record.arguments.getD []
  output := record.output
  success := record.success
  validationStatus := if record.success then "valid" else "rejected"
  error := if record.success then none
    else some (((Json.get record.output "message").map ports.printed).getD "")
  completedAt := completedAt
  retainUntil := retainUntil

/-- The record that the audit finds for a call: the last one of the id that it reads. -/
def recordOf (records : List ToolCallRecord) : Json → Option ToolCallRecord
  | .object call => KeyedList.lookup ToolCallRecord.id (ports.callId call) records.reverse
  | _ => none

/-- The rows of a call for which the audit has found a record; a research call takes the next
telemetry. -/
def placeRecord (state : AuditTables × List ProviderTelemetry) (record : ToolCallRecord)
    (id : ToolCallId) : Except AuditFailure (AuditTables × List ProviderTelemetry) := do
  let tables ← state.1.insertToolCall (ports.toolCallRow retainUntil completedAt record id)
  if record.isResearch then
    match state.2 with
    | [] => .error (.unavailable "successful Exa research call lacks provider telemetry")
    | telemetry :: rest =>
        (ports.persistResearch claim completedAt id record telemetry tables).map (·, rest)
  else .ok (tables, state.2)

/-- One call of a message. -/
def auditCall (records : List ToolCallRecord) (turn : ModelTurnId)
    (state : AuditTables × List ProviderTelemetry) (call : Json × ℕ) :
    Except AuditFailure (AuditTables × List ProviderTelemetry) :=
  match ports.recordOf records call.1 with
  | none => .ok state
  | some record => ports.placeRecord claim retainUntil completedAt state record ⟨turn, call.2⟩

end AuditPorts

/-- Whether a message is one of the model. -/
def isAssistant (message : JsonObject) : Bool :=
  (Json.get message "role").any (Json.isText "assistant")

/-- The values in a message that the audit goes through. -/
def auditedCalls (message : JsonObject) : List Json :=
  match Json.get message "tool_calls" with
  | some (.array values) => values
  | _ => []

structure AuditState where
  tables : AuditTables
  /-- The telemetry of web searches that is left. -/
  search : List ProviderTelemetry
  /-- The messages before. -/
  earlier : List JsonObject
  turn : ℕ

namespace AuditPorts

variable (ports : AuditPorts) (claim : CycleClaim) (retainUntil completedAt : Instant)

/-- The row of a turn. -/
def modelTurnRow (result : HarnessResult) (state : AuditState) (message : JsonObject) :
    ModelTurnRow :=
  let telemetry := (result.telemetry.filter fun usage => usage.usageKind = "model")[state.turn]?
  { id := ⟨claim.cycleId, state.turn⟩
    request := state.earlier
    response := message
    terminationStatus :=
      if (Json.get message "tool_calls").any Json.isTruthy then "tool_calls" else "stop"
    completedAt := completedAt
    rawArtifactUri := telemetry.map ProviderTelemetry.artifactUri
    rawSha256 := telemetry.map ProviderTelemetry.rawSha256
    retainUntil := retainUntil }

/-- One message of the transcript. -/
def auditMessage (result : HarnessResult) (state : AuditState) (message : JsonObject) :
    Except AuditFailure AuditState :=
  if isAssistant message then do
    let begun := state.tables.insertModelTurn
      (modelTurnRow claim retainUntil completedAt result state message)
    let (tables, search) ← (auditedCalls message).zipIdx.foldlM
      (ports.auditCall claim retainUntil completedAt result.toolCalls ⟨claim.cycleId, state.turn⟩)
      (begun, state.search)
    .ok ⟨tables, search, state.earlier ++ [message], state.turn + 1⟩
  else .ok { state with earlier := state.earlier ++ [message] }

/-- `_persist_detailed_audit`. -/
def persistDetailedAudit (tables : AuditTables) (result : HarnessResult) :
    Except AuditFailure AuditTables :=
  let search := result.telemetry.filter fun usage => usage.usageKind = "web_search"
  (result.messages.foldlM (ports.auditMessage claim retainUntil completedAt result)
    ⟨tables, search, [], 0⟩).map AuditState.tables

end AuditPorts

end VTrade
