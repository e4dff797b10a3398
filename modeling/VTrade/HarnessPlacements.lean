/-
# Where the audit puts the records of a run

The audit goes through the messages of the model and places the record that it finds for a call in
the row of its turn and its index.  What it stores is fixed by the list of these placements, and
it stores all of them exactly when no turn has two with the same id and there is telemetry for
every research call among them.
-/

import VTrade.HarnessAudit
import Mathlib.Data.List.Nodup

namespace VTrade

/-- An output of a web tool: results, each with a location. -/
def WellFormedResearch (output : JsonObject) : Prop :=
  ∃ rows : List JsonObject, AuditPorts.researchResults output = .ok (rows.map .object) ∧
    ∀ row ∈ rows, ∃ url, AuditPorts.researchUrl row = .ok url

/-- A record with the row that it is placed in. -/
structure Placement where
  record : ToolCallRecord
  id : ToolCallId

/-- The id of the record of a placement, which its turn has once. -/
def Placement.providerKey (placement : Placement) : ModelTurnId × String :=
  (placement.id.turn, placement.record.id)

/-- Whether a placement is one of a research call. -/
def Placement.isResearch (placement : Placement) : Bool := placement.record.isResearch

namespace AuditPorts

variable (ports : AuditPorts) (claim : CycleClaim) (retainUntil completedAt : Instant)

/-- The placements of the calls of a turn. -/
def placed (records : List ToolCallRecord) (turn : ModelTurnId) (calls : List Json) :
    List Placement :=
  calls.zipIdx.filterMap fun call =>
    (ports.recordOf records call.1).map (⟨·, ⟨turn, call.2⟩⟩)

/-- The placements of a transcript whose next turn has a number. -/
def placements (records : List ToolCallRecord) (cycleId : String) : ℕ → List JsonObject →
    List Placement
  | _, [] => []
  | turn, message :: rest =>
      if isAssistant message then
        ports.placed records ⟨cycleId, turn⟩ (auditedCalls message) ++
          placements records cycleId (turn + 1) rest
      else placements records cycleId turn rest

/-- The artifact of a result with a location. -/
def artifactRow? (cutoff : Instant) (placement : Placement) (telemetry : ProviderTelemetry)
    (row : JsonObject) : Option ResearchArtifactRow :=
  (researchUrl row).toOption.map fun url =>
    ports.artifactRow completedAt placement.id placement.record telemetry cutoff url row

/-- The artifacts of a research call. -/
def artifactRows (cutoff : Instant) (placement : Placement) (telemetry : ProviderTelemetry) :
    List ResearchArtifactRow :=
  KeyedList.firsts ResearchArtifactRow.name
    ((((researchResults placement.record.output).toOption.getD []).filterMap objectOf).filterMap
      (ports.artifactRow? completedAt cutoff placement telemetry))

/-- The artifacts of some placements, the telemetry handed out in its order. -/
def artifactsFrom (cutoff : Instant) : List Placement → List ProviderTelemetry →
    List ResearchArtifactRow
  | [], _ => []
  | placement :: rest, search =>
      if placement.isResearch then
        match search with
        | [] => []
        | telemetry :: later =>
            ports.artifactRows completedAt cutoff placement telemetry ++
              artifactsFrom cutoff rest later
      else artifactsFrom cutoff rest search

/-- The row of a placement. -/
def placementRow (placement : Placement) : ToolCallRow :=
  ports.toolCallRow retainUntil completedAt placement.record placement.id

/-- What placing some records leaves. -/
structure Placed (cutoff : Instant) (placements : List Placement)
    (before after : AuditTables × List ProviderTelemetry) : Prop where
  toolCalls : after.1.toolCalls =
    before.1.toolCalls ++ placements.map (ports.placementRow retainUntil completedAt)
  artifacts : after.1.artifacts =
    before.1.artifacts ++ ports.artifactsFrom completedAt cutoff placements before.2
  search : after.2 = before.2.drop (placements.countP Placement.isResearch)
  enough : placements.countP Placement.isResearch ≤ before.2.length

/-- Records that can be placed as far as their rows go: these are new, and each another one. -/
structure Placeable (placements : List Placement) (tables : AuditTables) : Prop where
  ids : (tables.toolCalls.map ToolCallRow.id ++ placements.map Placement.id).Nodup
  artifacts : ∀ artifact ∈ tables.artifacts, ∀ placement ∈ placements,
    artifact.toolCallId ≠ placement.id
  formed : ∀ placement ∈ placements, placement.isResearch = true →
    WellFormedResearch placement.record.output

section Step

variable {ports claim retainUntil completedAt} {cutoff : Instant} {placement : Placement}
  {rest : List Placement} {tables : AuditTables} {telemetry : ProviderTelemetry}
  {before after final : AuditTables × List ProviderTelemetry}

@[simp]
theorem artifactsFrom_nil (search : List ProviderTelemetry) :
    ports.artifactsFrom completedAt cutoff [] search = [] := rfl

theorem artifactsFrom_cons_research (hresearch : placement.isResearch = true)
    (search : List ProviderTelemetry) :
    ports.artifactsFrom completedAt cutoff (placement :: rest) (telemetry :: search) =
      ports.artifactRows completedAt cutoff placement telemetry ++
        ports.artifactsFrom completedAt cutoff rest search := by
  simp only [artifactsFrom, hresearch, if_true]

theorem artifactsFrom_cons_other (hresearch : placement.isResearch = false)
    (search : List ProviderTelemetry) :
    ports.artifactsFrom completedAt cutoff (placement :: rest) search =
      ports.artifactsFrom completedAt cutoff rest search := by
  simp only [artifactsFrom, hresearch, Bool.false_eq_true, if_false]

/-- The results of a web tool are all stored. -/
theorem foldlM_persistResult (hcutoff : claim.dataCutoff = some cutoff) (rows : List JsonObject)
    (hrows : ∀ row ∈ rows, ∃ url, researchUrl row = .ok url) (tables : AuditTables) :
    ∃ after, (rows.map Json.object).foldlM
        (ports.persistResult claim completedAt placement.id placement.record telemetry) tables =
          .ok after ∧
      after.toolCalls = tables.toolCalls ∧
      after.artifacts = (rows.filterMap
        (ports.artifactRow? completedAt cutoff placement telemetry)).foldl
          (fun kept row => KeyedList.insertNew ResearchArtifactRow.name row kept)
          tables.artifacts := by
  induction rows generalizing tables with
  | nil => exact ⟨tables, rfl, rfl, rfl⟩
  | cons row rows ih =>
      obtain ⟨⟨url, hurl⟩, hrest⟩ := List.forall_mem_cons.mp hrows
      have hstep : ports.persistResult claim completedAt placement.id placement.record telemetry
          tables (.object row) = .ok (ports.storeResult completedAt placement.id placement.record
            telemetry cutoff url row tables) := by
        simp only [persistResult, hurl, hcutoff]
        rfl
      have hrow : ports.artifactRow? completedAt cutoff placement telemetry row =
          some (ports.artifactRow completedAt placement.id placement.record telemetry cutoff url
            row) := by
        rw [artifactRow?, hurl]
        rfl
      obtain ⟨after, hafter, hcalls, hartifacts⟩ := ih hrest (ports.storeResult completedAt
        placement.id placement.record telemetry cutoff url row tables)
      refine ⟨after, ?_, hcalls, ?_⟩
      · rw [List.map_cons]
        exact Checks.foldlM_cons_eq_ok.mpr ⟨_, hstep, hafter⟩
      · rw [hartifacts, List.filterMap_cons_some hrow]
        rfl

/-- The output of a research call is stored as its artifacts. -/
theorem persistResearch_ok (ports : AuditPorts) (completedAt : Instant)
    (telemetry : ProviderTelemetry) (hcutoff : claim.dataCutoff = some cutoff)
    (hformed : WellFormedResearch placement.record.output)
    (hnew : ∀ artifact ∈ tables.artifacts, artifact.toolCallId ≠ placement.id) :
    ∃ after, ports.persistResearch claim completedAt placement.id placement.record telemetry
        tables = .ok after ∧
      after.toolCalls = tables.toolCalls ∧
      after.artifacts =
        tables.artifacts ++ ports.artifactRows completedAt cutoff placement telemetry := by
  obtain ⟨rows, hresults, hrows⟩ := hformed
  obtain ⟨after, hafter, hcalls, hartifacts⟩ := foldlM_persistResult
    hcutoff rows hrows tables
  have hobjects : (rows.map Json.object).filterMap objectOf = rows := by
    rw [List.filterMap_map]
    exact List.filterMap_some
  refine ⟨after, ?_, hcalls, ?_⟩
  · rw [persistResearch, hresults]
    exact hafter
  · rw [hartifacts, artifactRows, hresults]
    change _ = tables.artifacts ++ KeyedList.firsts ResearchArtifactRow.name
      (((rows.map Json.object).filterMap objectOf).filterMap _)
    rw [hobjects]
    apply KeyedList.foldl_insertNew
    intro old hold row hrow hsame
    obtain ⟨source, -, hsource⟩ := List.mem_filterMap.mp hrow
    obtain ⟨url, -, rfl⟩ := Option.map_eq_some_iff.mp hsource
    exact hnew old hold (congrArg Prod.fst hsame)

/-! ## One placement -/

/-- A row of a new turn and index is appended when its id is new to the turn. -/
theorem insertToolCall_ok {row : ToolCallRow} (hid : ∀ other ∈ tables.toolCalls, other.id ≠ row.id)
    (hkey : ∀ other ∈ tables.toolCalls, other.providerKey ≠ row.providerKey) :
    ∃ after, tables.insertToolCall row = .ok after := by
  unfold AuditTables.insertToolCall
  rw [dif_neg (by simpa using hid), dif_neg (by simpa using hkey)]
  exact ⟨_, rfl⟩

theorem insertToolCall_eq_ok {row : ToolCallRow} {after : AuditTables}
    (hid : ∀ other ∈ tables.toolCalls, other.id ≠ row.id)
    (h : tables.insertToolCall row = .ok after) :
    after.toolCalls = tables.toolCalls ++ [row] ∧ after.artifacts = tables.artifacts := by
  unfold AuditTables.insertToolCall at h
  rw [dif_neg (by simpa using hid)] at h
  split at h
  · cases h
  · cases h
    exact ⟨rfl, rfl⟩

theorem Placeable.head (h : Placeable (placement :: rest) tables) :
    (∀ row ∈ tables.toolCalls, row.id ≠ placement.id) ∧
      ∀ artifact ∈ tables.artifacts, artifact.toolCallId ≠ placement.id := by
  constructor
  · intro row hrow hsame
    exact (List.nodup_append.mp h.ids).2.2 row.id (List.mem_map_of_mem hrow) placement.id
      List.mem_cons_self hsame
  · intro artifact hartifact
    exact h.artifacts artifact hartifact placement List.mem_cons_self

theorem Placeable.head_formed (h : Placeable (placement :: rest) tables)
    (hresearch : placement.isResearch = true) : WellFormedResearch placement.record.output :=
  h.formed placement List.mem_cons_self hresearch

/-- A record that is placed is stored in its row, with the next telemetry if it is research. -/
theorem placeRecord_placed (hcutoff : claim.dataCutoff = some cutoff)
    (hplaceable : Placeable (placement :: rest) before.1)
    (h : ports.placeRecord claim retainUntil completedAt before placement.record placement.id =
      .ok after) :
    Placed ports retainUntil completedAt cutoff [placement] before after := by
  obtain ⟨hid, hartifacts⟩ := hplaceable.head
  unfold placeRecord at h
  obtain ⟨tables, hinsert, h⟩ := Checks.bind_eq_ok.mp h
  obtain ⟨hcalls, hkept⟩ := insertToolCall_eq_ok hid hinsert
  cases hresearch : placement.isResearch with
  | false =>
      rw [if_neg (by simpa [Placement.isResearch] using hresearch)] at h
      cases h
      constructor
      · exact hcalls
      · rw [artifactsFrom_cons_other hresearch, artifactsFrom_nil, List.append_nil]
        exact hkept
      · simp [hresearch]
      · simp [hresearch]
  | true =>
      rw [if_pos (by simpa [Placement.isResearch] using hresearch)] at h
      obtain ⟨earlier, search⟩ := before
      cases search with
      | nil => cases h
      | cons telemetry later =>
          dsimp only at h
          obtain ⟨stored, hstored, hcalls', hartifacts'⟩ := persistResearch_ok ports completedAt
            telemetry hcutoff (hplaceable.head_formed hresearch) (by rw [hkept]; exact hartifacts)
          rw [hstored] at h
          cases h
          constructor
          · rw [hcalls', hcalls]
            rfl
          · rw [hartifacts', hkept, artifactsFrom_cons_research hresearch, artifactsFrom_nil,
              List.append_nil]
          · simp [hresearch]
          · simp [hresearch]

/-- A record is placed when its id is new to the turn, if there is telemetry for it. -/
theorem placeRecord_ok (ports : AuditPorts) (retainUntil completedAt : Instant)
    (hcutoff : claim.dataCutoff = some cutoff)
    (hplaceable : Placeable (placement :: rest) before.1)
    (hkey : ∀ row ∈ before.1.toolCalls, row.providerKey ≠ placement.providerKey)
    (hsearch : placement.isResearch = true → before.2 ≠ []) :
    ∃ after, ports.placeRecord claim retainUntil completedAt before placement.record placement.id =
      .ok after := by
  obtain ⟨hid, hartifacts⟩ := hplaceable.head
  have hrow : ∀ other ∈ before.1.toolCalls,
      other.id ≠ (ports.toolCallRow retainUntil completedAt placement.record placement.id).id := hid
  obtain ⟨tables, hinsert⟩ := insertToolCall_ok hrow hkey
  obtain ⟨-, hkept⟩ := insertToolCall_eq_ok hrow hinsert
  unfold placeRecord
  rw [hinsert]
  change ∃ after, (if placement.isResearch = true then _ else _) = _
  cases hresearch : placement.isResearch with
  | false => exact ⟨_, if_neg Bool.false_ne_true⟩
  | true =>
      rw [if_pos rfl]
      obtain ⟨telemetry, later, hbefore⟩ := List.exists_cons_of_ne_nil (hsearch hresearch)
      rw [hbefore]
      obtain ⟨stored, hstored, -, -⟩ := persistResearch_ok ports completedAt telemetry hcutoff
        (hplaceable.head_formed hresearch) (by rw [hkept]; exact hartifacts)
      exact ⟨(stored, later), by dsimp only; rw [hstored]; rfl⟩

/-! ## A list of placements -/

theorem mem_artifactRows {artifact : ResearchArtifactRow}
    (h : artifact ∈ ports.artifactRows completedAt cutoff placement telemetry) :
    artifact.toolCallId = placement.id := by
  obtain ⟨row, -, hrow⟩ := List.mem_filterMap.mp (KeyedList.mem_of_mem_firsts h)
  obtain ⟨url, -, rfl⟩ := Option.map_eq_some_iff.mp hrow
  rfl

/-- The artifacts of placements are those of their calls. -/
theorem mem_artifactsFrom {artifact : ResearchArtifactRow} {placements : List Placement}
    {search : List ProviderTelemetry}
    (h : artifact ∈ ports.artifactsFrom completedAt cutoff placements search) :
    ∃ placement ∈ placements, artifact.toolCallId = placement.id := by
  induction placements generalizing search with
  | nil => cases h
  | cons placement rest ih =>
      have hlater {search : List ProviderTelemetry}
          (h : artifact ∈ ports.artifactsFrom completedAt cutoff rest search) :
          ∃ other ∈ placement :: rest, artifact.toolCallId = other.id := by
        obtain ⟨other, hother, hid⟩ := ih h
        exact ⟨other, List.mem_cons_of_mem _ hother, hid⟩
      cases hresearch : placement.isResearch with
      | false =>
          rw [artifactsFrom_cons_other hresearch] at h
          exact hlater h
      | true =>
          cases search with
          | nil => simp [artifactsFrom, hresearch] at h
          | cons telemetry later =>
              rw [artifactsFrom_cons_research hresearch] at h
              rcases List.mem_append.mp h with h | h
              · exact ⟨placement, List.mem_cons_self, mem_artifactRows h⟩
              · exact hlater h

theorem artifactsFrom_append (first second : List Placement) {search : List ProviderTelemetry}
    (henough : first.countP Placement.isResearch ≤ search.length) :
    ports.artifactsFrom completedAt cutoff (first ++ second) search =
      ports.artifactsFrom completedAt cutoff first search ++
        ports.artifactsFrom completedAt cutoff second
          (search.drop (first.countP Placement.isResearch)) := by
  induction first generalizing search with
  | nil => rfl
  | cons placement first ih =>
      rw [List.cons_append]
      cases hresearch : placement.isResearch with
      | false =>
          rw [List.countP_cons_of_neg (by simp [hresearch])] at henough ⊢
          rw [artifactsFrom_cons_other hresearch, artifactsFrom_cons_other hresearch, ih henough]
      | true =>
          rw [List.countP_cons_of_pos hresearch] at henough ⊢
          cases search with
          | nil => simp at henough
          | cons telemetry later =>
              rw [artifactsFrom_cons_research hresearch, artifactsFrom_cons_research hresearch,
                ih (by simpa using henough), List.append_assoc, List.drop_succ_cons]

theorem Placed.append {first second : List Placement}
    (hfirst : Placed ports retainUntil completedAt cutoff first before after)
    (hsecond : Placed ports retainUntil completedAt cutoff second after final) :
    Placed ports retainUntil completedAt cutoff (first ++ second) before final := by
  have henough := hsecond.enough
  rw [hfirst.search, List.length_drop] at henough
  constructor
  · rw [hsecond.toolCalls, hfirst.toolCalls, List.map_append, List.append_assoc]
  · rw [hsecond.artifacts, hfirst.artifacts, hfirst.search, artifactsFrom_append _ _ hfirst.enough,
      List.append_assoc]
  · rw [hsecond.search, hfirst.search, List.drop_drop, List.countP_append]
  · have hbefore := hfirst.enough
    rw [List.countP_append]
    omega

theorem Placeable.first {first second : List Placement}
    (h : Placeable (first ++ second) tables) : Placeable first tables := by
  constructor
  · have hids := h.ids
    rw [List.map_append, ← List.append_assoc] at hids
    exact (List.nodup_append.mp hids).1
  · exact fun artifact hartifact placement hplacement =>
      h.artifacts artifact hartifact placement (List.mem_append_left _ hplacement)
  · exact fun placement hplacement => h.formed placement (List.mem_append_left _ hplacement)

/-- What is left to be placed can be once the first placements are made. -/
theorem Placeable.second {first second : List Placement}
    (h : Placeable (first ++ second) before.1)
    (hplaced : Placed ports retainUntil completedAt cutoff first before after) :
    Placeable second after.1 := by
  constructor
  · have hids := h.ids
    rw [List.map_append, ← List.append_assoc] at hids
    rw [hplaced.toolCalls, List.map_append, List.map_map]
    exact hids
  · intro artifact hartifact other hother
    rw [hplaced.artifacts] at hartifact
    rcases List.mem_append.mp hartifact with hartifact | hartifact
    · exact h.artifacts artifact hartifact other (List.mem_append_right _ hother)
    · obtain ⟨placement, hplacement, hid⟩ := mem_artifactsFrom hartifact
      have hids := (List.nodup_append.mp h.ids).2.1
      rw [List.map_append] at hids
      rw [hid]
      exact (List.nodup_append.mp hids).2.2 placement.id (List.mem_map_of_mem hplacement)
        other.id (List.mem_map_of_mem hother)
  · exact fun other hother => h.formed other (List.mem_append_right _ hother)

/-- The placements of a list, one after the other. -/
theorem foldlM_placed (hcutoff : claim.dataCutoff = some cutoff) {placements : List Placement}
    (hplaceable : Placeable placements before.1)
    (h : placements.foldlM (fun state placement => ports.placeRecord claim retainUntil completedAt
      state placement.record placement.id) before = .ok after) :
    Placed ports retainUntil completedAt cutoff placements before after := by
  induction placements generalizing before with
  | nil =>
      rw [Checks.foldlM_nil_eq_ok] at h
      subst h
      constructor <;> simp
  | cons placement rest ih =>
      obtain ⟨next, hnext, hrest⟩ := Checks.foldlM_cons_eq_ok.mp h
      have hfirst := placeRecord_placed hcutoff hplaceable hnext
      exact hfirst.append (ih (Placeable.second hplaceable hfirst) hrest)

/-- All records of a list are placed when no turn has two of an id, old or new, and there is
telemetry for its research calls. -/
theorem foldlM_place_ok (ports : AuditPorts) (retainUntil completedAt : Instant)
    (hcutoff : claim.dataCutoff = some cutoff) {placements : List Placement}
    (before : AuditTables × List ProviderTelemetry) (hplaceable : Placeable placements before.1)
    (hkeys : (before.1.toolCalls.map ToolCallRow.providerKey ++
      placements.map Placement.providerKey).Nodup)
    (henough : placements.countP Placement.isResearch ≤ before.2.length) :
    ∃ after, placements.foldlM (fun state placement => ports.placeRecord claim retainUntil
      completedAt state placement.record placement.id) before = .ok after := by
  induction placements generalizing before with
  | nil => exact ⟨before, rfl⟩
  | cons placement rest ih =>
      have hkey : ∀ row ∈ before.1.toolCalls, row.providerKey ≠ placement.providerKey :=
        fun row hrow => (List.nodup_append.mp hkeys).2.2 row.providerKey
          (List.mem_map_of_mem hrow) placement.providerKey List.mem_cons_self
      have hsearch : placement.isResearch = true → before.2 ≠ [] := by
        intro hresearch hempty
        rw [List.countP_cons_of_pos hresearch, hempty] at henough
        cases henough
      obtain ⟨next, hnext⟩ := placeRecord_ok ports retainUntil completedAt hcutoff hplaceable hkey
        hsearch
      have hfirst := placeRecord_placed hcutoff hplaceable hnext
      have hrest : (next.1.toolCalls.map ToolCallRow.providerKey ++
          rest.map Placement.providerKey).Nodup := by
        rw [hfirst.toolCalls, List.map_append, List.append_assoc]
        exact hkeys
      have hleft : rest.countP Placement.isResearch ≤ next.2.length := by
        rw [hfirst.search, List.length_drop]
        have hcount : (placement :: rest).countP Placement.isResearch =
            [placement].countP Placement.isResearch + rest.countP Placement.isResearch := by
          rw [← List.countP_append]
          rfl
        omega
      obtain ⟨final, hfinal⟩ := ih next (Placeable.second hplaceable hfirst) hrest hleft
      exact ⟨final, Checks.foldlM_cons_eq_ok.mpr ⟨next, hnext, hfinal⟩⟩

/-! ## The transcript -/

theorem callLoop_eq (records : List ToolCallRecord) (turn : ModelTurnId) (calls : List Json)
    (state : AuditTables × List ProviderTelemetry) :
    calls.zipIdx.foldlM (ports.auditCall claim retainUntil completedAt records turn) state =
      (ports.placed records turn calls).foldlM (fun state placement =>
        ports.placeRecord claim retainUntil completedAt state placement.record placement.id)
        state := by
  rw [placed, List.foldlM_filterMap]
  congr
  funext state call
  unfold auditCall
  cases ports.recordOf records call.1 <;> rfl

theorem Placeable.turn {placements : List Placement} (h : Placeable placements tables)
    (row : ModelTurnRow) : Placeable placements (tables.insertModelTurn row) :=
  ⟨h.ids, h.artifacts, h.formed⟩

theorem Placed.begun {placements : List Placement} {row : ModelTurnRow}
    {search : List ProviderTelemetry}
    (h : Placed ports retainUntil completedAt cutoff placements
      (tables.insertModelTurn row, search) after) :
    Placed ports retainUntil completedAt cutoff placements (tables, search) after :=
  ⟨h.toolCalls, h.artifacts, h.search, h.enough⟩

/-- The messages of a transcript, as the placements they come to. -/
theorem foldlM_auditMessage_placed (hcutoff : claim.dataCutoff = some cutoff)
    {result : HarnessResult} {messages : List JsonObject} (state : AuditState) {last : AuditState}
    (hplaceable : Placeable (ports.placements result.toolCalls claim.cycleId state.turn messages)
      state.tables)
    (h : messages.foldlM (ports.auditMessage claim retainUntil completedAt result) state =
      .ok last) :
    Placed ports retainUntil completedAt cutoff
      (ports.placements result.toolCalls claim.cycleId state.turn messages)
      (state.tables, state.search) (last.tables, last.search) := by
  induction messages generalizing state with
  | nil =>
      rw [Checks.foldlM_nil_eq_ok] at h
      subst h
      constructor <;> simp [placements]
  | cons message rest ih =>
      obtain ⟨next, hnext, hrest⟩ := Checks.foldlM_cons_eq_ok.mp h
      unfold auditMessage at hnext
      rw [placements] at hplaceable ⊢
      split at hnext
      next hassistant =>
        rw [if_pos hassistant] at hplaceable ⊢
        obtain ⟨⟨tables, search⟩, hcalls, hnext⟩ := Checks.bind_eq_ok.mp hnext
        cases hnext
        rw [callLoop_eq] at hcalls
        have hturn := hplaceable.turn
          (modelTurnRow claim retainUntil completedAt result state message)
        have hfirst := foldlM_placed hcutoff (Placeable.first hturn) hcalls
        have hlater := ih ⟨tables, search, state.earlier ++ [message], state.turn + 1⟩
          (hturn.second hfirst) hrest
        exact (hfirst.append hlater).begun
      next hassistant =>
        rw [if_neg hassistant] at hplaceable ⊢
        cases hnext
        exact ih { state with earlier := state.earlier ++ [message] } hplaceable hrest

/-- The audit of a transcript returns when its records can be placed. -/
theorem foldlM_auditMessage_ok (ports : AuditPorts) (retainUntil completedAt : Instant)
    (hcutoff : claim.dataCutoff = some cutoff) {result : HarnessResult}
    {messages : List JsonObject} (state : AuditState)
    (hplaceable : Placeable (ports.placements result.toolCalls claim.cycleId state.turn messages)
      state.tables)
    (hkeys : (state.tables.toolCalls.map ToolCallRow.providerKey ++
      (ports.placements result.toolCalls claim.cycleId state.turn messages).map
        Placement.providerKey).Nodup)
    (henough : (ports.placements result.toolCalls claim.cycleId state.turn messages).countP
      Placement.isResearch ≤ state.search.length) :
    ∃ last, messages.foldlM (ports.auditMessage claim retainUntil completedAt result) state =
      .ok last := by
  induction messages generalizing state with
  | nil => exact ⟨state, rfl⟩
  | cons message rest ih =>
      rw [placements] at hplaceable hkeys henough
      by_cases hassistant : isAssistant message = true
      · rw [if_pos hassistant] at hplaceable hkeys henough
        rw [List.map_append, ← List.append_assoc] at hkeys
        rw [List.countP_append] at henough
        have hturn := hplaceable.turn
          (modelTurnRow claim retainUntil completedAt result state message)
        have hfirst : (ports.placed result.toolCalls ⟨claim.cycleId, state.turn⟩
            (auditedCalls message)).countP Placement.isResearch ≤ state.search.length := by omega
        obtain ⟨⟨tables, search⟩, hcalls⟩ := foldlM_place_ok ports retainUntil completedAt hcutoff
          (state.tables.insertModelTurn
            (modelTurnRow claim retainUntil completedAt result state message), state.search)
          hturn.first (List.nodup_append.mp hkeys).1 hfirst
        have hplaced := foldlM_placed hcutoff hturn.first hcalls
        have hkeys' : (tables.toolCalls.map ToolCallRow.providerKey ++
            (ports.placements result.toolCalls claim.cycleId (state.turn + 1) rest).map
              Placement.providerKey).Nodup := by
          rw [hplaced.toolCalls, List.map_append, List.map_map]
          exact hkeys
        have hsearch : search = state.search.drop ((ports.placed result.toolCalls
          ⟨claim.cycleId, state.turn⟩ (auditedCalls message)).countP Placement.isResearch) :=
            hplaced.search
        have hleft : (ports.placements result.toolCalls claim.cycleId (state.turn + 1) rest).countP
            Placement.isResearch ≤ search.length := by
          rw [hsearch, List.length_drop]
          omega
        obtain ⟨last, hlast⟩ := ih ⟨tables, search, state.earlier ++ [message], state.turn + 1⟩
          (hturn.second hplaced) hkeys' hleft
        refine ⟨last, Checks.foldlM_cons_eq_ok.mpr ⟨_, ?_, hlast⟩⟩
        rw [auditMessage, if_pos hassistant]
        dsimp only
        rw [callLoop_eq]
        exact Checks.bind_eq_ok.mpr ⟨(tables, search), hcalls, rfl⟩
      · rw [if_neg hassistant] at hplaceable hkeys henough
        obtain ⟨last, hlast⟩ := ih { state with earlier := state.earlier ++ [message] } hplaceable
          hkeys henough
        refine ⟨last, Checks.foldlM_cons_eq_ok.mpr ⟨_, ?_, hlast⟩⟩
        exact if_neg hassistant

/-! ## A cycle without an audit -/

/-- Nothing of the audit of a cycle is stored. -/
structure Unaudited (tables : AuditTables) (cycleId : String) : Prop where
  toolCalls : ∀ row ∈ tables.toolCalls, row.id.turn.cycleId ≠ cycleId
  artifacts : ∀ artifact ∈ tables.artifacts, artifact.toolCallId.turn.cycleId ≠ cycleId

theorem mem_placed {records : List ToolCallRecord} {turn : ModelTurnId} {calls : List Json}
    (h : placement ∈ ports.placed records turn calls) :
    placement.record ∈ records ∧ placement.id.turn = turn := by
  obtain ⟨call, -, hcall⟩ := List.mem_filterMap.mp h
  obtain ⟨record, hrecord, rfl⟩ := Option.map_eq_some_iff.mp hcall
  refine ⟨?_, rfl⟩
  unfold recordOf at hrecord
  split at hrecord
  · exact List.mem_reverse.mp (KeyedList.mem_of_lookup_eq_some hrecord)
  · cases hrecord

/-- The placements of a transcript are records of the run, in the turns that follow. -/
theorem mem_placements {records : List ToolCallRecord} {cycleId : String} {turn : ℕ}
    {messages : List JsonObject} (h : placement ∈ ports.placements records cycleId turn messages) :
    placement.record ∈ records ∧ placement.id.turn.cycleId = cycleId ∧
      turn ≤ placement.id.turn.turnIndex := by
  induction messages generalizing turn with
  | nil => cases h
  | cons message rest ih =>
      rw [placements] at h
      split at h
      · rcases List.mem_append.mp h with h | h
        · obtain ⟨hrecord, hturn⟩ := mem_placed h
          exact ⟨hrecord, by rw [hturn], by rw [hturn]⟩
        · obtain ⟨hrecord, hcycle, hturn⟩ := ih h
          exact ⟨hrecord, hcycle, (Nat.le_succ turn).trans hturn⟩
      · exact ih h

theorem nodup_placed (records : List ToolCallRecord) (turn : ModelTurnId) (calls : List Json) :
    ((ports.placed records turn calls).map Placement.id).Nodup := by
  have hids : (calls.zipIdx.map fun call => (⟨turn, call.2⟩ : ToolCallId)).Nodup := by
    rw [show (fun call : Json × ℕ => (⟨turn, call.2⟩ : ToolCallId)) =
      (fun index => ⟨turn, index⟩) ∘ Prod.snd from rfl, ← List.map_map, List.zipIdx_map_snd]
    have hindexes : (List.range' 0 calls.length).Nodup := List.nodup_range'
    exact hindexes.map fun first second hsame => (ToolCallId.mk.inj hsame).2
  refine hids.sublist ?_
  unfold placed
  generalize calls.zipIdx = indexed
  induction indexed with
  | nil => exact List.Sublist.slnil
  | cons call rest ih =>
      rw [List.filterMap_cons]
      cases ports.recordOf records call.1 with
      | none => exact ih.cons _
      | some record => exact ih.cons_cons _

/-- No two placements of a transcript share a row. -/
theorem nodup_placements (records : List ToolCallRecord) (cycleId : String) (turn : ℕ)
    (messages : List JsonObject) :
    ((ports.placements records cycleId turn messages).map Placement.id).Nodup := by
  induction messages generalizing turn with
  | nil => exact List.nodup_nil
  | cons message rest ih =>
      rw [placements]
      split
      · rw [List.map_append]
        refine List.nodup_append.mpr ⟨nodup_placed _ _ _, ih (turn + 1), ?_⟩
        intro first hfirst second hsecond hsame
        obtain ⟨placement, hplacement, rfl⟩ := List.mem_map.mp hfirst
        obtain ⟨other, hother, rfl⟩ := List.mem_map.mp hsecond
        have hturn := (mem_placements hother).2.2
        rw [← hsame, (mem_placed hplacement).2] at hturn
        exact absurd hturn (Nat.not_succ_le_self turn)
      · exact ih turn

theorem placeable_of_unaudited {result : HarnessResult}
    (hunaudited : Unaudited tables claim.cycleId)
    (hformed : ∀ record ∈ result.toolCalls, record.isResearch = true →
      WellFormedResearch record.output) :
    Placeable (ports.placements result.toolCalls claim.cycleId 0 result.messages) tables := by
  constructor
  · refine List.nodup_append.mpr ⟨tables.id_unique, nodup_placements _ _ _ _, ?_⟩
    intro first hfirst second hsecond hsame
    obtain ⟨row, hrow, rfl⟩ := List.mem_map.mp hfirst
    obtain ⟨placement, hplacement, rfl⟩ := List.mem_map.mp hsecond
    apply hunaudited.toolCalls row hrow
    rw [hsame]
    exact (mem_placements hplacement).2.1
  · intro artifact hartifact placement hplacement hsame
    apply hunaudited.artifacts artifact hartifact
    rw [hsame]
    exact (mem_placements hplacement).2.1
  · exact fun placement hplacement => hformed _ (mem_placements hplacement).1

/-- The telemetry that the audit hands out. -/
def searchTelemetry (result : HarnessResult) : List ProviderTelemetry :=
  result.telemetry.filter fun usage => usage.usageKind = "web_search"

/-- What a detailed audit has stored when it returns. -/
theorem persistDetailedAudit_placed (hcutoff : claim.dataCutoff = some cutoff)
    {result : HarnessResult} {audited : AuditTables}
    (hunaudited : Unaudited tables claim.cycleId)
    (hformed : ∀ record ∈ result.toolCalls, record.isResearch = true →
      WellFormedResearch record.output)
    (h : ports.persistDetailedAudit claim retainUntil completedAt tables result = .ok audited) :
    ∃ left, Placed ports retainUntil completedAt cutoff
      (ports.placements result.toolCalls claim.cycleId 0 result.messages)
      (tables, searchTelemetry result) (audited, left) := by
  obtain ⟨last, hlast, rfl⟩ := Checks.map_eq_ok.mp h
  exact ⟨last.search, foldlM_auditMessage_placed hcutoff ⟨tables, searchTelemetry result, [], 0⟩
    (placeable_of_unaudited hunaudited hformed) hlast⟩

/-- A detailed audit returns exactly when it finds no id twice in a turn, and no more research
calls than there is telemetry. -/
theorem persistDetailedAudit_ok_iff (ports : AuditPorts) (retainUntil completedAt : Instant)
    (hcutoff : claim.dataCutoff = some cutoff) {result : HarnessResult} (hunaudited : Unaudited tables claim.cycleId)
    (hformed : ∀ record ∈ result.toolCalls, record.isResearch = true →
      WellFormedResearch record.output) :
    (∃ audited, ports.persistDetailedAudit claim retainUntil completedAt tables result =
      .ok audited) ↔
    ((ports.placements result.toolCalls claim.cycleId 0 result.messages).map
        Placement.providerKey).Nodup ∧
      (ports.placements result.toolCalls claim.cycleId 0 result.messages).countP
        Placement.isResearch ≤ (searchTelemetry result).length := by
  constructor
  · rintro ⟨audited, h⟩
    obtain ⟨left, hplaced⟩ := persistDetailedAudit_placed hcutoff hunaudited hformed h
    have hkeys := audited.providerKey_unique
    rw [hplaced.toolCalls, List.map_append, List.map_map] at hkeys
    exact ⟨(List.nodup_append.mp hkeys).2.1, hplaced.enough⟩
  · rintro ⟨hkeys, henough⟩
    have hall : (tables.toolCalls.map ToolCallRow.providerKey ++
        (ports.placements result.toolCalls claim.cycleId 0 result.messages).map
          Placement.providerKey).Nodup := by
      refine List.nodup_append.mpr ⟨tables.providerKey_unique, hkeys, ?_⟩
      intro first hfirst second hsecond hsame
      obtain ⟨row, hrow, rfl⟩ := List.mem_map.mp hfirst
      obtain ⟨placement, hplacement, rfl⟩ := List.mem_map.mp hsecond
      apply hunaudited.toolCalls row hrow
      have hturn : row.id.turn = placement.id.turn := congrArg Prod.fst hsame
      rw [hturn]
      exact (mem_placements hplacement).2.1
    obtain ⟨last, hlast⟩ := foldlM_auditMessage_ok ports retainUntil completedAt hcutoff
      ⟨tables, searchTelemetry result, [], 0⟩ (placeable_of_unaudited hunaudited hformed) hall
      henough
    exact ⟨last.tables, Checks.map_eq_ok.mpr ⟨last, hlast, rfl⟩⟩

end Step

end AuditPorts

end VTrade
