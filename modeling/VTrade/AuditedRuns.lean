/-
# Auditing what a run has recorded

The detailed audit goes through the transcript of a run again and looks the record of every call
up by the id that the call carries.  It gives every call its own record and its own telemetry
exactly when the messages with calls are of the model, and every call has an id that no other one
has.
-/

import VTrade.StoredRuns

namespace VTrade

namespace BoundedToolHarness

section

variable {harness : BoundedToolHarness} {production : ProductionPorts} {audit : AuditPorts}
  {initialMessages : List JsonObject} {modelConfig : JsonObject} {final : HarnessState}
  {turns : List HarnessTurn} {status : String}

/-! ## When a run is audited as it was -/

/-- The row of every call of a run is its own, and so are its artifacts. -/
structure Audited (audit : AuditPorts) (cycleId : String) (cutoff retainUntil completedAt : Instant)
    (turns : List HarnessTurn) (audited : AuditTables) : Prop where
  rows : ∀ own ∈ runCalls cycleId 0 turns, audited.toolCall? own.id =
    some (audit.toolCallRow retainUntil completedAt own.outcome.record own.id)
  artifacts : ∀ own ∈ runCalls cycleId 0 turns, audited.artifactsOf own.id =
    own.outcome.telemetry.flatMap
      (audit.artifactRows completedAt cutoff ⟨own.outcome.record, own.id⟩)

/-- The messages of a run that the audit can tell apart: those with calls are of the model, and
every call has an id, which no other one has. -/
structure Traceable (turns : List HarnessTurn) : Prop where
  roles : ∀ turn ∈ turns, turn.calls ≠ [] → isAssistant turn.message = true
  named : ∀ call ∈ turns.flatMap HarnessTurn.calls, (providerCallId? call).isSome = true
  distinct : ((turns.flatMap HarnessTurn.calls).filterMap providerCallId?).Nodup

/-- The placement of the record of a call in its own row. -/
def RunCall.placement (own : RunCall) : Placement := ⟨own.outcome.record, own.id⟩

theorem providerCallId?_eq_some {call : JsonObject} {id : String}
    (h : providerCallId? call = some id) : Json.get call "id" = some (.text id) ∧ id ≠ "" := by
  unfold providerCallId? at h
  split at h
  next text htext =>
    split at h
    · cases h
    next hne =>
      cases h
      exact ⟨htext, hne⟩
  · cases h

/-- The audit reads the id of a call that has one. -/
theorem callId_of_named {call : JsonObject} {id : String} (h : providerCallId? call = some id) :
    audit.callId call = id := by
  obtain ⟨hid, hne⟩ := providerCallId?_eq_some h
  unfold AuditPorts.callId AuditPorts.printedOrEmpty
  rw [hid, Option.filter_some, if_pos (by simp [Json.isTruthy, hne])]
  rfl

section Traceable

variable {seen : List String} {drawn : ℕ} {cycleId : String} {index : ℕ}

/-- A call with an id is recorded under it. -/
theorem recorded_id (h : TurnsRecorded harness production.toHarnessPorts seen drawn turns)
    {own : RunCall} (hown : own ∈ runCalls cycleId index turns)
    (hnamed : (providerCallId? own.call).isSome = true) :
    providerCallId? own.call = some own.outcome.record.id := by
  obtain ⟨duplicates, called, before, later, hkind⟩ := h.kind hown
  rcases hkind.identified with ⟨id, hid, hrecord, -⟩ | ⟨hid, -, -⟩
  · rw [hid, hrecord]
  · rw [hid] at hnamed
    cases hnamed

/-- The ids of a run whose calls all have one. -/
theorem map_recorded_id (cycleId : String) (index : ℕ)
    (h : TurnsRecorded harness production.toHarnessPorts seen drawn turns)
    (hnamed : ∀ call ∈ turns.flatMap HarnessTurn.calls, (providerCallId? call).isSome = true) :
    (runCalls cycleId index turns).map (fun own => own.outcome.record.id) =
      (turns.flatMap HarnessTurn.calls).filterMap providerCallId? := by
  rw [← (h.runCalls_map cycleId index).1] at hnamed ⊢
  rw [List.filterMap_map, ← List.filterMap_eq_map]
  apply List.filterMap_congr
  intro own hown
  exact (recorded_id h hown (hnamed _ (List.mem_map_of_mem hown))).symm

/-- The audit finds the record of every call of a traceable run. -/
theorem placementOf_eq_some (h : TurnsRecorded harness production.toHarnessPorts seen drawn turns)
    (htraceable : Traceable turns) {own : RunCall} (hown : own ∈ runCalls cycleId index turns) :
    placementOf audit ((turns.flatMap HarnessTurn.outcomes).map CallOutcome.record) own =
      some own.placement := by
  obtain ⟨hcalls, houtcomes⟩ := h.runCalls_map cycleId index
  have hid : providerCallId? own.call = some own.outcome.record.id := by
    apply recorded_id h hown
    apply htraceable.named
    rw [← hcalls]
    exact List.mem_map_of_mem hown
  have hrecords : (turns.flatMap HarnessTurn.outcomes).map CallOutcome.record =
      (runCalls cycleId index turns).map fun own => own.outcome.record := by
    rw [← houtcomes, List.map_map]
    rfl
  have hunique : ((((turns.flatMap HarnessTurn.outcomes).map CallOutcome.record).reverse).map
      ToolCallRecord.id).Nodup := by
    rw [List.map_reverse, List.nodup_reverse, hrecords, List.map_map]
    have hids := htraceable.distinct
    rw [← map_recorded_id cycleId index h htraceable.named] at hids
    exact hids
  have hfound : audit.recordOf ((turns.flatMap HarnessTurn.outcomes).map CallOutcome.record)
      (.object own.call) = some own.outcome.record := by
    refine (KeyedList.lookup_eq_some_iff hunique).mpr ⟨?_, (callId_of_named hid).symm⟩
    rw [List.mem_reverse, hrecords]
    exact List.mem_map_of_mem hown
  rw [placementOf, hfound]
  rfl

/-- The telemetry of calls, handed out in their order. -/
theorem artifactsFrom_own {completedAt cutoff : Instant} {owns : List RunCall}
    (hfurnished : ∀ own ∈ owns, Furnished own.outcome) :
    audit.artifactsFrom completedAt cutoff (owns.map RunCall.placement)
        (owns.flatMap fun own => own.outcome.telemetry) =
      owns.flatMap fun own =>
        own.outcome.telemetry.flatMap (audit.artifactRows completedAt cutoff own.placement) := by
  induction owns with
  | nil => rfl
  | cons own rest ih =>
      obtain ⟨hfirst, hrest⟩ := List.forall_mem_cons.mp hfurnished
      rw [List.map_cons, List.flatMap_cons, List.flatMap_cons]
      unfold Furnished at hfirst
      split at hfirst
      next hresearch =>
        obtain ⟨⟨usage, husage, -⟩, -⟩ := hfirst
        have hplaced : own.placement.isResearch = true := hresearch
        rw [husage, List.singleton_append, AuditPorts.artifactsFrom_cons_research hplaced,
          ih hrest, List.flatMap_singleton]
      next hresearch =>
        have hplaced : own.placement.isResearch = false := eq_false_of_ne_true hresearch
        rw [hfirst, List.nil_append, AuditPorts.artifactsFrom_cons_other hplaced, ih hrest]
        rfl

/-- The calls of a run place their own records. -/
theorem placements_traceable (h : harness.run production.toHarnessPorts initialMessages
      modelConfig = (final, turns, .ok status))
    (hinitial : ∀ message ∈ initialMessages, isAssistant message = false)
    (htraceable : Traceable turns) :
    audit.placements (final.result status).toolCalls cycleId 0 (final.result status).messages =
      (runCalls cycleId 0 turns).map RunCall.placement := by
  have hreturned := run_returned h
  have hmessages : (final.result status).messages =
      initialMessages ++ turns.flatMap (HarnessTurn.messages production.toHarnessPorts) :=
    hreturned.messages
  rw [(run_result h).1, hmessages, placements_append_of_not hinitial,
    hreturned.recorded.placements audit _ cycleId htraceable.roles]
  calc (runCalls cycleId 0 turns).filterMap (placementOf audit
        ((turns.flatMap HarnessTurn.outcomes).map CallOutcome.record))
      = (runCalls cycleId 0 turns).filterMap fun own => some own.placement :=
        List.filterMap_congr fun own hown =>
          placementOf_eq_some hreturned.recorded htraceable hown
    _ = (runCalls cycleId 0 turns).map RunCall.placement := by
        rw [← List.filterMap_eq_map]
        rfl

/-- A traceable run is audited as it was. -/
theorem audited_of_traceable {claim : CycleClaim} {cutoff retainUntil completedAt : Instant}
    {tables : AuditTables} (h : harness.run production.toHarnessPorts initialMessages
      modelConfig = (final, turns, .ok status))
    (hinitial : ∀ message ∈ initialMessages, isAssistant message = false)
    (hcutoff : claim.dataCutoff = some cutoff)
    (hunaudited : AuditPorts.Unaudited tables claim.cycleId) (htraceable : Traceable turns) :
    ∃ audited, audit.persistDetailedAudit claim retainUntil completedAt tables
        (final.result status) = .ok audited ∧
      Audited audit claim.cycleId cutoff retainUntil completedAt turns audited := by
  have hrecorded := (run_returned h).recorded
  obtain ⟨hrecords, hsearch, hfurnished⟩ := run_result h
  have hplacements : audit.placements (final.result status).toolCalls claim.cycleId 0
      (final.result status).messages = (runCalls claim.cycleId 0 turns).map RunCall.placement :=
    placements_traceable h hinitial htraceable
  have houtcomes := (hrecorded.runCalls_map claim.cycleId 0).2
  have hsearch' : AuditPorts.searchTelemetry (final.result status) =
      (runCalls claim.cycleId 0 turns).flatMap fun own => own.outcome.telemetry := by
    rw [hsearch, ← houtcomes, List.flatMap_map]
  have hown : ∀ own ∈ runCalls claim.cycleId 0 turns, Furnished own.outcome := by
    intro own hown
    apply hfurnished
    rw [← houtcomes]
    exact List.mem_map_of_mem hown
  have hkeys : (((runCalls claim.cycleId 0 turns).map RunCall.placement).map
      Placement.providerKey).Nodup := by
    apply List.Nodup.of_map Prod.snd
    rw [List.map_map, List.map_map]
    have hids := htraceable.distinct
    rw [← map_recorded_id claim.cycleId 0 hrecorded htraceable.named] at hids
    exact hids
  have hcount : ((runCalls claim.cycleId 0 turns).map RunCall.placement).countP
      Placement.isResearch ≤ (AuditPorts.searchTelemetry (final.result status)).length := by
    rw [hsearch, length_furnished hfurnished, ← houtcomes, List.countP_map, List.countP_map]
    exact le_refl _
  obtain ⟨audited, haudited⟩ := (AuditPorts.persistDetailedAudit_ok_iff audit
    retainUntil completedAt hcutoff hunaudited (run_formed h)).mpr (by rw [hplacements]; exact ⟨hkeys, hcount⟩)
  obtain ⟨left, hplaced⟩ := AuditPorts.persistDetailedAudit_placed hcutoff hunaudited
    (run_formed h) haudited
  rw [hplacements] at hplaced
  refine ⟨audited, haudited, ?_, ?_⟩
  · intro own hmem
    refine (KeyedList.lookup_eq_some_iff audited.id_unique).mpr ⟨?_, rfl⟩
    rw [hplaced.toolCalls, List.map_map]
    exact List.mem_append_right _ (List.mem_map_of_mem (f := _ ∘ RunCall.placement) hmem)
  · intro own hmem
    have hold : tables.artifacts.filter (fun artifact => artifact.toolCallId = own.id) = [] := by
      rw [List.filter_eq_nil_iff]
      intro artifact hartifact hsame
      apply hunaudited.artifacts artifact hartifact
      rw [of_decide_eq_true hsame]
      exact (mem_runCalls hmem).1
    have hartifacts := hplaced.artifacts
    dsimp only at hartifacts
    rw [hsearch', artifactsFrom_own hown] at hartifacts
    rw [AuditTables.artifactsOf, hartifacts, List.filter_append, hold, List.nil_append]
    exact KeyedList.filter_flatMap (nodup_runCalls claim.cycleId 0 turns) _ _ (by
      intro other artifact hartifact
      obtain ⟨usage, -, hrows⟩ := List.mem_flatMap.mp hartifact
      exact AuditPorts.mem_artifactRows hrows) hmem

/-! ## What an audit as it was says of the ids -/

/-- How many turns of a run have calls. -/
def callTurns (turns : List HarnessTurn) : ℕ := turns.countP fun turn => turn.calls ≠ []

theorem callTurns_cons (turn : HarnessTurn) (rest : List HarnessTurn) :
    callTurns (turn :: rest) = callTurns rest + if turn.calls ≠ [] then 1 else 0 := by
  simp [callTurns, List.countP_cons]

/-- The audit places no record beyond as many turns as have calls. -/
theorem placements_lt {ports : HarnessPorts} {records : List ToolCallRecord}
    (h : TurnsRecorded harness ports seen drawn turns)
    {placement : Placement} (hplacement : placement ∈ audit.placements records cycleId index
      (turns.flatMap (HarnessTurn.messages ports))) :
    placement.id.turn.turnIndex < index + callTurns turns := by
  induction h generalizing index with
  | nil seen drawn => cases hplacement
  | cons seen drawn after turn rest hanswered hcalls h hlast hrest ih =>
      rw [placements_turn hcalls h.length_eq] at hplacement
      rw [callTurns_cons]
      by_cases hempty : turn.calls = []
      · have hrest : rest = [] := hlast.resolve_right (not_not.mpr hempty)
        rw [hrest, hempty] at hplacement
        split at hplacement <;> cases hplacement
      · rw [if_pos hempty]
        split at hplacement
        · rcases List.mem_append.mp hplacement with hplacement | hplacement
          · obtain ⟨own, hown, hplaced⟩ := List.mem_filterMap.mp hplacement
            obtain ⟨record, -, rfl⟩ := Option.map_eq_some_iff.mp hplaced
            rw [(mem_turnCalls hown).2]
            dsimp only
            omega
          · have hlater := ih hplacement
            omega
        · have hlater := ih hplacement
          omega

/-- The last turn with calls has a row. -/
theorem exists_runCall {ports : HarnessPorts} (h : TurnsRecorded harness ports seen drawn turns)
    (cycleId : String) (index count : ℕ) (hcount : callTurns turns = count + 1) :
    ∃ own ∈ runCalls cycleId index turns, own.id.turn.turnIndex = index + count := by
  induction h generalizing index count with
  | nil seen drawn => cases hcount
  | cons seen drawn after turn rest hanswered hcalls h hlast hrest ih =>
      rw [callTurns_cons] at hcount
      by_cases hempty : turn.calls = []
      · have hrest : rest = [] := hlast.resolve_right (not_not.mpr hempty)
        rw [hrest, if_neg (not_not.mpr hempty)] at hcount
        cases hcount
      · rw [if_pos hempty] at hcount
        cases count with
        | zero =>
            obtain ⟨call, hcall⟩ := List.exists_mem_of_ne_nil _ hempty
            rw [← (turnCalls_map ⟨cycleId, index⟩ h.length_eq).1] at hcall
            obtain ⟨own, hown, -⟩ := List.mem_map.mp hcall
            refine ⟨own, List.mem_append_left _ hown, ?_⟩
            rw [(mem_turnCalls hown).2]
            rfl
        | succ count =>
            obtain ⟨own, hown, hindex⟩ := ih (index + 1) count (by omega)
            exact ⟨own, List.mem_append_right _ hown, by omega⟩

/-- When every call has its row, every message with calls is one of the model. -/
theorem roles_of_placed {ports : HarnessPorts} {records : List ToolCallRecord}
    (h : TurnsRecorded harness ports seen drawn turns) (index : ℕ)
    (hplaced : ∀ own ∈ runCalls cycleId index turns, ∃ placement ∈ audit.placements records cycleId
      index (turns.flatMap (HarnessTurn.messages ports)), placement.id = own.id) :
    ∀ turn ∈ turns, turn.calls ≠ [] → isAssistant turn.message = true := by
  induction h generalizing index with
  | nil seen drawn => simp
  | cons seen drawn after turn rest hanswered hcalls h hlast hrest ih =>
      rw [placements_turn hcalls h.length_eq] at hplaced
      by_cases hassistant : isAssistant turn.message = true
      · rw [if_pos hassistant] at hplaced
        refine List.forall_mem_cons.mpr ⟨fun _ => hassistant, ih (index + 1) ?_⟩
        intro own hown
        obtain ⟨placement, hplacement, hid⟩ := hplaced own (List.mem_append_right _ hown)
        rcases List.mem_append.mp hplacement with hplacement | hplacement
        · obtain ⟨other, hother, hmade⟩ := List.mem_filterMap.mp hplacement
          obtain ⟨record, -, rfl⟩ := Option.map_eq_some_iff.mp hmade
          have hindex := (mem_runCalls hown).2
          rw [← hid, (mem_turnCalls hother).2] at hindex
          exact absurd hindex (Nat.not_succ_le_self index)
        · exact ⟨placement, hplacement, hid⟩
      · rw [if_neg hassistant] at hplaced
        by_cases hempty : turn.calls = []
        · have hrest : rest = [] := hlast.resolve_right (not_not.mpr hempty)
          subst hrest
          exact List.forall_mem_cons.mpr ⟨fun hne => absurd hempty hne, by simp⟩
        · have hall : TurnsRecorded harness ports seen drawn (turn :: rest) :=
            .cons seen drawn after turn rest hanswered hcalls h hlast hrest
          have hcount : callTurns (turn :: rest) = callTurns rest + 1 := by
            rw [callTurns_cons, if_pos hempty]
          obtain ⟨own, hown, hindex⟩ := exists_runCall hall cycleId index _ hcount
          obtain ⟨placement, hplacement, hid⟩ := hplaced own hown
          have hlt := placements_lt hrest hplacement
          rw [hid, hindex] at hlt
          exact absurd hlt (lt_irrefl _)

/-- Whether a record is the one of a duplicate id. -/
def DuplicateRecord (record : ToolCallRecord) : Prop :=
  record.success = false ∧
    record.output = [("error", .text duplicateError.className),
      ("message", .text duplicateError.message)]

theorem duplicateRecord_failedToolCall {call : JsonObject} {id : String} {error : ToolError} :
    DuplicateRecord (harness.failedToolCall call id error) ↔ error = duplicateError := by
  constructor
  · rintro ⟨-, houtput⟩
    obtain ⟨className, message⟩ := error
    simpa [failedToolCall, duplicateError, toolValidationError] using houtput
  · rintro rfl
    exact ⟨rfl, rfl⟩

theorem toolArguments_ne_duplicate {ports : HarnessPorts} {call : JsonObject} {error : ToolError}
    (h : harness.toolArguments ports call = .error error) : error ≠ duplicateError := by
  unfold toolArguments at h
  split at h
  next function hfunction =>
    split at h
    next raw hraw =>
      split at h
      · cases h
        decide
      · split at h
        · cases h
        · cases h
          decide
        · cases h
          simp [duplicateError, toolValidationError]
    · cases h
      decide
  · cases h
    decide

theorem invalidArguments_ne_duplicate (name detail : String) :
    toolValidationError ("invalid arguments for " ++ name ++ ": " ++ detail) ≠ duplicateError := by
  intro h
  have hfirst := congrArg (fun error => error.message.toList.head?) h
  simp [toolValidationError, duplicateError] at hfirst

/-- A call is not refused as a duplicate before its handler is called. -/
theorem prepareCall_ne_duplicate {ports : HarnessPorts} {call : JsonObject} {error : ToolError}
    (h : harness.prepareCall ports call = .error error) : error ≠ duplicateError := by
  unfold prepareCall at h
  split at h
  · cases h
    decide
  · rcases Checks.bind_eq_error.mp h with hname | ⟨name, -, h⟩
    · unfold toolName at hname
      split at hname
      · cases hname
      · cases hname
        decide
    · split at h
      · cases h
        decide
      next tool htool =>
        rcases Checks.bind_eq_error.mp h with harguments | ⟨arguments, -, h⟩
        · exact toolArguments_ne_duplicate harguments
        · split at h
          · cases h
            exact invalidArguments_ne_duplicate _ _
          · cases h

theorem checkOutput_ne_duplicate {tool : ToolSpec} {number : ℕ} {arguments : JsonObject}
    {error : ToolError}
    (h : harness.checkOutput production.toHarnessPorts tool
      (production.handle number tool.name arguments) = .ok (.error error)) :
    error ≠ duplicateError := by
  generalize hhandled : production.handle number tool.name arguments = handled at h
  unfold checkOutput at h
  split at h
  · cases h
    intro hsame
    exact production.failed_class number tool.name arguments error hhandled
      (congrArg ToolError.className hsame)
  · cases h
  next output telemetry =>
    split at h
    · cases h
    · dsimp only at h
      split at h
      · cases h
        decide
      · split at h
        · split at h
          · cases h
            decide
          · cases h
        · split at h
          · cases h
            decide
          · cases h
  · cases h

/-- A call is recorded as a duplicate exactly when its id is one. -/
theorem CallKind.duplicateRecord_iff {duplicates : List String} {before later : ℕ}
    {call : JsonObject} {outcome : CallOutcome} {called : List HandledCall} {id : String}
    (h : CallKind harness production.toHarnessPorts duplicates before call outcome called later)
    (hid : providerCallId? call = some id) :
    DuplicateRecord outcome.record ↔ id ∈ duplicates := by
  cases h with
  | duplicate other hother h =>
      obtain rfl : other = id := Option.some.inj (hother.symm.trans hid)
      exact ⟨fun _ => h, fun _ => duplicateRecord_failedToolCall.mpr rfl⟩
  | unnamed h => rw [h] at hid; cases hid
  | refused other error hother h hprepare =>
      obtain rfl : other = id := Option.some.inj (hother.symm.trans hid)
      exact iff_of_false (fun hrecord => prepareCall_ne_duplicate hprepare
        (duplicateRecord_failedToolCall.mp hrecord)) h
  | failed other tool error number arguments hother h hname hcheck =>
      obtain rfl : other = id := Option.some.inj (hother.symm.trans hid)
      exact iff_of_false (fun hrecord => checkOutput_ne_duplicate hcheck
        (duplicateRecord_failedToolCall.mp hrecord)) h
  | succeeded other tool arguments output telemetry number hother h hname hcheck =>
      obtain rfl : other = id := Option.some.inj (hother.symm.trans hid)
      exact iff_of_false (fun hrecord => nomatch hrecord.1) h

/-- When the calls of a run with the same id are recorded alike, and those of a turn have different
ids, no id is used twice. -/
theorem distinct_of_alike (h : TurnsRecorded harness production.toHarnessPorts seen drawn turns)
    (hnamed : ∀ own ∈ runCalls cycleId index turns,
      providerCallId? own.call = some own.outcome.record.id)
    (hkeys : ((runCalls cycleId index turns).map fun own =>
      (own.id.turn, own.outcome.record.id)).Nodup)
    (halike : ∀ own ∈ runCalls cycleId index turns, ∀ other ∈ runCalls cycleId index turns,
      own.outcome.record.id = other.outcome.record.id →
        (DuplicateRecord own.outcome.record ↔ DuplicateRecord other.outcome.record))
    (hseen : ∀ own ∈ runCalls cycleId index turns, own.outcome.record.id ∈ seen →
      ¬ DuplicateRecord own.outcome.record) :
    ((runCalls cycleId index turns).map fun own => own.outcome.record.id).Nodup ∧
      ∀ own ∈ runCalls cycleId index turns, own.outcome.record.id ∉ seen := by
  induction h generalizing index with
  | nil seen drawn => exact ⟨List.nodup_nil, by simp [runCalls]⟩
  | cons seen drawn after turn rest hanswered hcalls h hlast hrest ih =>
      rw [runCalls] at hnamed hkeys halike hseen ⊢
      generalize hhead : turnCalls ⟨cycleId, index⟩ turn.calls turn.outcomes = head
        at hnamed hkeys halike hseen ⊢
      rw [List.forall_mem_append] at hnamed hseen
      rw [List.map_append, List.nodup_append] at hkeys
      have hcall : head.map RunCall.call = turn.calls := by
        rw [← hhead]
        exact (turnCalls_map _ h.length_eq).1
      have hids : turn.calls.filterMap providerCallId? =
          head.map fun own => own.outcome.record.id := by
        rw [← hcall, List.filterMap_map, ← List.filterMap_eq_map]
        exact List.filterMap_congr hnamed.1
      have hturn : (head.map fun own => own.outcome.record.id).Nodup := by
        apply List.Nodup.of_map fun id => ((⟨cycleId, index⟩ : ModelTurnId), id)
        rw [List.map_map]
        refine (List.map_congr_left fun own hown => ?_) ▸ hkeys.1
        rw [← hhead] at hown
        exact Prod.ext (mem_turnCalls hown).2 rfl
      have hrecord : ∀ own ∈ head,
          DuplicateRecord own.outcome.record ↔
            own.outcome.record.id ∈ duplicateIds seen turn.calls := by
        intro own hown
        have hzip := hown
        rw [← hhead] at hzip
        obtain ⟨called, before, later, hkind⟩ := h.kind _ (mem_turnCalls hzip).1
        exact hkind.duplicateRecord_iff (hnamed.1 own hown)
      have hmem : ∀ own ∈ head, own.outcome.record.id ∈ turn.calls.filterMap providerCallId? := by
        intro own hown
        rw [hids]
        exact List.mem_map_of_mem hown
      have hnew : ∀ own ∈ head, own.outcome.record.id ∉ seen := by
        intro own hown hold
        apply hseen.1 own hown hold
        rw [hrecord own hown]
        exact List.mem_filter.mpr ⟨hmem own hown, decide_eq_true (.inr hold)⟩
      have hfirst : ∀ own ∈ head, ¬ DuplicateRecord own.outcome.record := by
        intro own hown hduplicate
        rw [hrecord own hown] at hduplicate
        rcases of_decide_eq_true (List.mem_filter.mp hduplicate).2 with hcount | hold
        · rw [hids] at hcount
          exact absurd (List.nodup_iff_count_le_one.mp hturn _) (not_le.mpr hcount)
        · exact hnew own hown hold
      obtain ⟨hlater, hafter⟩ := ih hnamed.2 hkeys.2.1
        (fun own hown other hother => halike own (List.mem_append_right _ hown) other
          (List.mem_append_right _ hother)) (by
          intro own hown hold
          rcases List.mem_append.mp hold with hold | hold
          · exact hseen.2 own hown hold
          · rw [hids] at hold
            obtain ⟨earlier, hearlier, hsame⟩ := List.mem_map.mp hold
            rw [← halike earlier (List.mem_append_left _ hearlier) own
              (List.mem_append_right _ hown) hsame]
            exact hfirst earlier hearlier)
      refine ⟨?_, ?_⟩
      · rw [List.map_append]
        refine List.nodup_append.mpr ⟨hturn, hlater, ?_⟩
        intro first hfirst second hsecond hsame
        obtain ⟨own, hown, rfl⟩ := List.mem_map.mp hsecond
        apply hafter own hown
        rw [hids, ← hsame]
        exact List.mem_append_right _ hfirst
      · rw [List.forall_mem_append]
        exact ⟨hnew, fun own hown hold => hafter own hown (List.mem_append_left _ hold)⟩

/-- No identifier is empty, or what a value prints as that is no text. -/
def PrintsNoId (audit : AuditPorts) (ids : RandomIds) : Prop :=
  ∀ n, ids.hex n ≠ "" ∧ ∀ value, audit.str value ≠ ids.hex n

/-- The audit reads no identifier in a call without an id. -/
theorem callId_ne_hex {ids : RandomIds} (hprints : PrintsNoId audit ids) {call : JsonObject}
    (h : providerCallId? call = none) (n : ℕ) : audit.callId call ≠ ids.hex n := by
  unfold providerCallId? at h
  unfold AuditPorts.callId AuditPorts.printedOrEmpty
  cases hid : Json.get call "id" with
  | none => exact (hprints n).1.symm
  | some value =>
      rw [hid] at h
      cases htruthy : value.isTruthy with
      | false =>
          rw [Option.filter_some, if_neg (by simp [htruthy])]
          exact (hprints n).1.symm
      | true =>
          rw [Option.filter_some, if_pos htruthy]
          cases value with
          | text text =>
              have hempty : text = "" := by simpa using h
              simp [Json.isTruthy, hempty] at htruthy
          | null => exact (hprints n).2 _
          | bool value => exact (hprints n).2 _
          | int value => exact (hprints n).2 _
          | float value => exact (hprints n).2 _
          | array values => exact (hprints n).2 _
          | object fields => exact (hprints n).2 _

/-- What the audit finds for a call whose row is its own: a record of the id that it reads, which
the row tells no different from the one of the call. -/
structure FoundAs (audit : AuditPorts) (records : List ToolCallRecord) (own : RunCall)
    (record : ToolCallRecord) : Prop where
  found : audit.recordOf records (.object own.call) = some record
  id : record.id = own.outcome.record.id
  callId : audit.callId own.call = own.outcome.record.id
  duplicate : DuplicateRecord record ↔ DuplicateRecord own.outcome.record

theorem foundAs_of_row {retainUntil completedAt : Instant} {records : List ToolCallRecord}
    {own : RunCall} {record : ToolCallRecord}
    (hfound : audit.recordOf records (.object own.call) = some record)
    (hrow : audit.toolCallRow retainUntil completedAt record own.id =
      audit.toolCallRow retainUntil completedAt own.outcome.record own.id) :
    FoundAs audit records own record := by
  have hid : record.id = own.outcome.record.id := congrArg ToolCallRow.providerCallId hrow
  have hsuccess : record.success = own.outcome.record.success := congrArg ToolCallRow.success hrow
  have houtput : record.output = own.outcome.record.output := congrArg ToolCallRow.output hrow
  refine ⟨hfound, hid, ?_, ?_⟩
  · rw [← hid]
    exact (KeyedList.key_of_lookup_eq_some hfound).symm
  · rw [DuplicateRecord, DuplicateRecord, hsuccess, houtput]

/-- A run is traceable when the audit finds each of its calls as it was recorded. -/
theorem traceable_of_found {records : List ToolCallRecord}
    (h : TurnsRecorded harness production.toHarnessPorts [] 0 turns)
    (hprints : PrintsNoId audit production.ids)
    (hroles : ∀ turn ∈ turns, turn.calls ≠ [] → isAssistant turn.message = true)
    (hfound : ∀ own ∈ runCalls cycleId 0 turns, ∃ record, FoundAs audit records own record)
    (hkeys : ((runCalls cycleId 0 turns).map fun own =>
      (own.id.turn, own.outcome.record.id)).Nodup) :
    Traceable turns := by
  obtain ⟨hcalls, -⟩ := h.runCalls_map cycleId 0
  have hnamed : ∀ own ∈ runCalls cycleId 0 turns, (providerCallId? own.call).isSome = true := by
    intro own hown
    obtain ⟨record, hrecord⟩ := hfound own hown
    obtain ⟨duplicates, called, before, later, hkind⟩ := h.kind hown
    rcases hkind.identified with ⟨id, hid, -, -⟩ | ⟨hid, hdrawn, -⟩
    · rw [hid]
      rfl
    · exact absurd (hrecord.callId.trans hdrawn) (callId_ne_hex hprints hid before)
  have hnamed' : ∀ call ∈ turns.flatMap HarnessTurn.calls,
      (providerCallId? call).isSome = true := by
    rw [← hcalls]
    exact List.forall_mem_map.mpr hnamed
  refine ⟨hroles, hnamed', ?_⟩
  rw [← map_recorded_id cycleId 0 h hnamed']
  refine (distinct_of_alike h (fun own hown => recorded_id h hown (hnamed own hown)) hkeys ?_
    (by simp)).1
  intro own hown other hother hsame
  obtain ⟨record, hrecord⟩ := hfound own hown
  obtain ⟨record', hrecord'⟩ := hfound other hother
  have hread : audit.callId own.call = audit.callId other.call :=
    hrecord.callId.trans (hsame.trans hrecord'.callId.symm)
  have hsame' : record = record' := by
    have hfirst : KeyedList.lookup ToolCallRecord.id (audit.callId own.call) records.reverse =
      some record := hrecord.found
    have hsecond : KeyedList.lookup ToolCallRecord.id (audit.callId other.call) records.reverse =
      some record' := hrecord'.found
    rw [hread, hsecond] at hfirst
    exact (Option.some.inj hfirst).symm
  rw [← hrecord.duplicate, ← hrecord'.duplicate, hsame']

end Traceable

/-- The audit of a run gives every call its own record and its own artifacts exactly when the
messages with calls are of the model and every call has an id that no other one has. -/
theorem run_audited_iff (harness : BoundedToolHarness) (production : ProductionPorts)
    (initialMessages : List JsonObject) (modelConfig : JsonObject) (final : HarnessState)
    (turns : List HarnessTurn) (status : String)
    (hrun : harness.run production.toHarnessPorts initialMessages modelConfig =
      (final, turns, .ok status))
    (hinitial : ∀ message ∈ initialMessages, isAssistant message = false)
    (audit : AuditPorts) (hprints : PrintsNoId audit production.ids) (claim : CycleClaim)
    (cutoff : Instant) (hcutoff : claim.dataCutoff = some cutoff)
    (retainUntil completedAt : Instant) (tables : AuditTables)
    (hunaudited : AuditPorts.Unaudited tables claim.cycleId) :
    (∃ audited, audit.persistDetailedAudit claim retainUntil completedAt tables
        (final.result status) = .ok audited ∧
      Audited audit claim.cycleId cutoff retainUntil completedAt turns audited) ↔
    Traceable turns := by
  refine ⟨?_, audited_of_traceable hrun hinitial hcutoff hunaudited⟩
  rintro ⟨audited, haudited, howned⟩
  have hreturned := run_returned hrun
  have hrecorded := hreturned.recorded
  obtain ⟨left, hplaced⟩ := AuditPorts.persistDetailedAudit_placed hcutoff hunaudited
    (run_formed hrun) haudited
  have hmessages : (final.result status).messages =
      initialMessages ++ turns.flatMap (HarnessTurn.messages production.toHarnessPorts) :=
    hreturned.messages
  rw [hmessages, placements_append_of_not hinitial] at hplaced
  have hrow : ∀ own ∈ runCalls claim.cycleId 0 turns, ∃ placement ∈
      audit.placements (final.result status).toolCalls claim.cycleId 0
        (turns.flatMap (HarnessTurn.messages production.toHarnessPorts)),
      placement.id = own.id ∧ audit.placementRow retainUntil completedAt placement =
        audit.toolCallRow retainUntil completedAt own.outcome.record own.id := by
    intro own hown
    have hmem := KeyedList.mem_of_lookup_eq_some (howned.rows own hown)
    rw [hplaced.toolCalls] at hmem
    rcases List.mem_append.mp hmem with hmem | hmem
    · exact absurd (mem_runCalls hown).1 (hunaudited.toolCalls _ hmem)
    · obtain ⟨placement, hplacement, hsame⟩ := List.mem_map.mp hmem
      exact ⟨placement, hplacement, congrArg ToolCallRow.id hsame, hsame⟩
  have hroles := roles_of_placed hrecorded 0 fun own hown => by
    obtain ⟨placement, hplacement, hid, -⟩ := hrow own hown
    exact ⟨placement, hplacement, hid⟩
  have hplacements := hrecorded.placements audit (final.result status).toolCalls claim.cycleId
    hroles 0
  have hfound : ∀ own ∈ runCalls claim.cycleId 0 turns, ∃ record,
      FoundAs audit (final.result status).toolCalls own record := by
    intro own hown
    obtain ⟨placement, hplacement, hid, hsame⟩ := hrow own hown
    rw [hplacements] at hplacement
    obtain ⟨other, hother, hmade⟩ := List.mem_filterMap.mp hplacement
    obtain ⟨record, hrecord, rfl⟩ := Option.map_eq_some_iff.mp hmade
    obtain rfl : other = own :=
      List.inj_on_of_nodup_map (nodup_runCalls claim.cycleId 0 turns) hother hown hid
    exact ⟨record, foundAs_of_row hrecord hsame⟩
  have hkeys : ((runCalls claim.cycleId 0 turns).map fun own =>
      (own.id.turn, own.outcome.record.id)).Nodup := by
    have hunique := audited.providerKey_unique
    rw [hplaced.toolCalls, hplacements, List.map_append, List.map_map, List.map_filterMap]
      at hunique
    refine (congrArg List.Nodup ?_).mp (List.nodup_append.mp hunique).2.1
    rw [← List.filterMap_eq_map]
    apply List.filterMap_congr
    intro own hown
    obtain ⟨record, hrecord⟩ := hfound own hown
    rw [placementOf, hrecord.found]
    exact congrArg (fun id => some (own.id.turn, id)) hrecord.id
  exact traceable_of_found hrecorded hprints hroles hfound hkeys

end

end BoundedToolHarness

namespace Sample

theorem printsNoId_callIds : BoundedToolHarness.PrintsNoId auditPorts callIds := by
  intro n
  refine ⟨fun h => ?_, fun value h => ?_⟩
  · have hlength := congrArg (fun text => text.toList.length) h
    simp [callIds] at hlength
  · have hfirst := congrArg (fun text => text.toList.head?) h
    simp [callIds, auditPorts, List.replicate_succ] at hfirst

/-- The row of the first call, which succeeded, is that of the one that was refused. -/
theorem repeatedId_replaced :
    (balanceRun ["a", "a"]).2.2 = .ok "stop" ∧
      ¬ ∃ audited, auditPorts.persistDetailedAudit finalClaim halfYearLater moment.instant noAudits
          ((balanceRun ["a", "a"]).1.result "stop") = .ok audited ∧
        BoundedToolHarness.Audited auditPorts "cycle" moment.instant halfYearLater moment.instant
          (balanceRun ["a", "a"]).2.1 audited := by
  refine ⟨by decide +kernel, ?_⟩
  rintro ⟨audited, haudited, howned⟩
  obtain ⟨stored, hstored, hrefused⟩ := Checks.exists_ok_of_any
    (auditPorts.persistDetailedAudit finalClaim halfYearLater moment.instant noAudits
      ((balanceRun ["a", "a"]).1.result "stop"))
    (fun stored => (stored.toolCall? ⟨⟨"cycle", 0⟩, 0⟩).any fun row => !row.success)
    (by decide +kernel)
  obtain rfl : stored = audited := Except.ok.inj (hstored.symm.trans haudited)
  have hsucceeded : ∃ own ∈ BoundedToolHarness.runCalls "cycle" 0 (balanceRun ["a", "a"]).2.1,
      own.id = ⟨⟨"cycle", 0⟩, 0⟩ ∧ own.outcome.record.success = true := by
    decide +kernel
  obtain ⟨own, hown, hid, hsuccess⟩ := hsucceeded
  have hrow := howned.rows own hown
  rw [hid] at hrow
  rw [hrow] at hrefused
  simp [AuditPorts.toolCallRow, hsuccess] at hrefused

/-- A run whose ids differ is audited as it was. -/
theorem distinctIds_audited :
    ∃ audited, auditPorts.persistDetailedAudit finalClaim halfYearLater moment.instant noAudits
        ((balanceRun ["a", "b"]).1.result "stop") = .ok audited ∧
      BoundedToolHarness.Audited auditPorts "cycle" moment.instant halfYearLater moment.instant
        (balanceRun ["a", "b"]).2.1 audited := by
  have hrun : balanceRun ["a", "b"] =
      ((balanceRun ["a", "b"]).1, (balanceRun ["a", "b"]).2.1, .ok "stop") :=
    Prod.ext rfl (Prod.ext rfl (by decide +kernel))
  exact (BoundedToolHarness.run_audited_iff balanceHarness (balanceModel ["a", "b"]) _ _ _ _ "stop"
    hrun (by decide +kernel) auditPorts printsNoId_callIds finalClaim moment.instant rfl
    halfYearLater moment.instant noAudits ⟨nofun, nofun⟩).mpr
      ⟨by decide +kernel, by decide +kernel, by decide +kernel⟩

end Sample

end VTrade
