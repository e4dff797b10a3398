/-
# The calls of a run that returns

A run that returns has recorded all calls of its turns, each as one of the kinds of a call, and
only its last turn may have none.  In production its telemetry of web searches is that of the
research calls that succeeded, in their order.  When every message with calls is one of the model,
the audit places the calls in their own rows.
-/

import VTrade.HarnessPlacements

namespace VTrade

/-- The environment of a run in production.  The gateway and the web tools answer with telemetry
of their kind, a web tool with results, and no handler raises the error of the harness. -/
structure ProductionPorts extends HarnessPorts where
  model_telemetry : ∀ number messages response, complete number messages = .ok response →
    response.telemetry.usageKind = "model"
  research : ∀ number name arguments output telemetry, name ∈ exaResearchToolNames →
    handle number name arguments = .returned output telemetry →
      ∃ usage fields, telemetry = [usage] ∧ usage.usageKind = "web_search" ∧
        output = .object fields ∧ WellFormedResearch fields
  silent : ∀ number name arguments output telemetry, name ∉ exaResearchToolNames →
    handle number name arguments = .returned output telemetry → telemetry = []
  failed_class : ∀ number name arguments error, handle number name arguments = .failed error →
    error.className ≠ "ToolValidationError"

namespace BoundedToolHarness

variable (harness : BoundedToolHarness) (ports : HarnessPorts)

/-! ## The turns of a run that returns -/

/-- The calls of a message, each recorded after the other. -/
inductive CallsRecorded (duplicates : List String) :
    ℕ → List JsonObject → List CallOutcome → ℕ → Prop
  | nil (drawn : ℕ) : CallsRecorded duplicates drawn [] [] drawn
  | cons (call : JsonObject) (rest : List JsonObject) (outcome : CallOutcome)
      (outcomes : List CallOutcome) (called : List HandledCall) (drawn middle after : ℕ)
      (h : CallKind harness ports duplicates drawn call outcome called middle)
      (hrest : CallsRecorded duplicates middle rest outcomes after) :
      CallsRecorded duplicates drawn (call :: rest) (outcome :: outcomes) after

/-- The turns of a run that returns: only the last one may have no calls. -/
inductive TurnsRecorded : List String → ℕ → List HarnessTurn → Prop
  | nil (seen : List String) (drawn : ℕ) : TurnsRecorded seen drawn []
  | cons (seen : List String) (drawn after : ℕ) (turn : HarnessTurn) (rest : List HarnessTurn)
      (hanswered : Answered ports turn.telemetry)
      (hcalls : toolCalls turn.message = .ok turn.calls)
      (h : CallsRecorded harness ports (duplicateIds seen turn.calls) drawn turn.calls
        turn.outcomes after)
      (hlast : rest = [] ∨ turn.calls ≠ [])
      (hrest : TurnsRecorded (seen ++ turn.calls.filterMap providerCallId?) after rest) :
      TurnsRecorded seen drawn (turn :: rest)

/-- What a run that returns adds to a state. -/
structure Returned (before final : HarnessState) (turns : List HarnessTurn) : Prop where
  recorded : TurnsRecorded harness ports before.seenToolCallIds before.drawn turns
  messages : final.messages = before.messages ++ turns.flatMap (HarnessTurn.messages ports)
  records : final.records =
    before.records ++ turns.flatMap fun turn => turn.outcomes.map CallOutcome.record
  telemetry : final.telemetry = before.telemetry ++
    turns.flatMap fun turn => turn.telemetry :: turn.outcomes.flatMap CallOutcome.telemetry

section Returned

variable {harness ports} {duplicates : List String} {calls : List JsonObject}
  {state after final : HarnessState} {outcomes : List CallOutcome} {turns : List HarnessTurn}

/-- The calls of a message that are all recorded. -/
theorem LoopRan.calls_recorded {result : Except HarnessFailure Unit}
    (h : LoopRan harness ports duplicates calls state after outcomes result)
    (hresult : result = .ok ()) :
    CallsRecorded harness ports duplicates state.drawn calls outcomes after.drawn := by
  induction h with
  | done state => exact .nil state.drawn
  | late call rest state failure => cases hresult
  | escaped call rest state id name failure hid h hname => cases hresult
  | recorded call rest state after outcome outcomes called drawn result h hrest ih =>
      exact .cons call rest outcome outcomes called state.drawn drawn after.drawn h (ih hresult)

/-- A turn that is followed by others. -/
theorem Returned.after_turn {message : JsonObject} {telemetry : ProviderTelemetry}
    (hanswered : Answered ports telemetry) (hcalls : toolCalls message = .ok calls)
    (hne : calls ≠ []) {proposed : ℕ}
    (hran : LoopRan harness ports (duplicateIds state.seenToolCallIds calls) calls
      (called state telemetry message proposed) after outcomes (.ok ()))
    (h : Returned harness ports after final turns) :
    Returned harness ports state final (⟨message, telemetry, outcomes⟩ :: turns) := by
  obtain ⟨hmessages, hrecords, htelemetry⟩ := hran.transcript
  have hturn : HarnessTurn.calls ⟨message, telemetry, outcomes⟩ = calls :=
    calls_of_toolCalls hcalls
  have hseen : after.seenToolCallIds =
      state.seenToolCallIds ++ calls.filterMap providerCallId? := by
    have hran' := hran.seen
    rw [List.take_of_length_le (hran.length_outcomes.2 rfl).ge] at hran'
    exact hran'
  constructor
  · refine .cons _ _ after.drawn _ _ hanswered ?_ ?_ ?_ ?_
    · rw [hturn]
      exact hcalls
    · rw [hturn]
      exact hran.calls_recorded rfl
    · rw [hturn]
      exact .inr hne
    · rw [hturn, ← hseen]
      exact h.recorded
  · rw [h.messages, hmessages]
    simp [called, HarnessTurn.messages]
  · rw [h.records, hrecords]
    simp [called, responded]
  · rw [h.telemetry, htelemetry]
    simp [called, responded]

/-- A turn that ends the run with a result. -/
theorem TurnStepped.returned {added : List HarnessTurn} {status : String}
    (h : TurnStepped harness ports state after added (some (.ok status))) :
    Returned harness ports state after added := by
  generalize hended : some (Except.ok status) = ended at h
  cases h with
  | limited status => exact ⟨.nil _ _, by simp, by simp, by simp⟩
  | cut after failure hidle hmessages => cases hended
  | stopped message telemetry status hanswered hcalls =>
      have hturn : HarnessTurn.calls ⟨message, telemetry, []⟩ = [] := calls_of_toolCalls hcalls
      refine ⟨.cons _ _ state.drawn _ _ hanswered (by rw [hturn]; exact hcalls) ?_ (.inl rfl)
        (.nil _ _), ?_, ?_, ?_⟩
      · rw [hturn]
        exact .nil _
      · simp [BoundedToolHarness.called, HarnessTurn.messages]
      · simp [BoundedToolHarness.called, responded]
      · simp [BoundedToolHarness.called, responded]
  | refused message telemetry failure after hidle hmessages => cases hended
  | called message telemetry calls after outcomes ran hanswered hcalls hne htotal hweb hran =>
      cases ran with
      | error failure => cases hended
      | ok _ => cases hended

/-- A turn that the rest of the run follows. -/
theorem TurnStepped.followed {added : List HarnessTurn}
    (h : TurnStepped harness ports state after added none)
    (hrest : Returned harness ports after final turns) :
    Returned harness ports state final (added ++ turns) := by
  generalize hended : none = ended at h
  cases h with
  | limited status => cases hended
  | cut after failure hidle hmessages => cases hended
  | stopped message telemetry status hanswered hcalls => cases hended
  | refused message telemetry failure after hidle hmessages => cases hended
  | called message telemetry calls after outcomes ran hanswered hcalls hne htotal hweb hran =>
      cases ran with
      | error failure => cases hended
      | ok _ => exact hrest.after_turn hanswered hcalls hne hran

/-- What the rest of a run has added when it returns. -/
theorem turns_returned (modelConfig : JsonObject) (left : ℕ) {status : String}
    (h : harness.turns ports modelConfig left state = (final, turns, .ok status)) :
    Returned harness ports state final turns := by
  induction left generalizing state turns with
  | zero => cases h
  | succ left ih =>
      have hstepped := harness.turn_stepped ports modelConfig state
      unfold BoundedToolHarness.turns at h
      generalize harness.turn ports modelConfig state = stepped at hstepped h
      obtain ⟨after, added, ended⟩ := stepped
      cases ended with
      | some result =>
          cases h
          exact hstepped.returned
      | none =>
          dsimp only at h
          generalize hrest : harness.turns ports modelConfig left after = rested at h
          obtain ⟨last, rest, result⟩ := rested
          cases h
          exact hstepped.followed (ih hrest)

theorem run_returned {initialMessages : List JsonObject} {modelConfig : JsonObject}
    {status : String}
    (h : harness.run ports initialMessages modelConfig = (final, turns, .ok status)) :
    Returned harness ports (begin initialMessages) final turns :=
  turns_returned modelConfig harness.limits.maximumModelTurns h

end Returned

/-! ## The calls of a run -/

/-- A call of a run, with what was recorded of it and the row that is its own. -/
structure RunCall where
  call : JsonObject
  outcome : CallOutcome
  id : ToolCallId

/-- The calls of a turn. -/
def turnCalls (turn : ModelTurnId) (calls : List JsonObject) (outcomes : List CallOutcome) :
    List RunCall :=
  (calls.zip outcomes).zipIdx.map fun own => ⟨own.1.1, own.1.2, ⟨turn, own.2⟩⟩

/-- The calls of the turns of a run from a number on. -/
def runCalls (cycleId : String) : ℕ → List HarnessTurn → List RunCall
  | _, [] => []
  | index, turn :: rest =>
      turnCalls ⟨cycleId, index⟩ turn.calls turn.outcomes ++ runCalls cycleId (index + 1) rest

section RunCalls

variable {harness ports} {duplicates seen : List String} {drawn after : ℕ}
  {calls : List JsonObject} {outcomes : List CallOutcome} {turns : List HarnessTurn}

theorem CallsRecorded.length_eq
    (h : CallsRecorded harness ports duplicates drawn calls outcomes after) :
    outcomes.length = calls.length := by
  induction h with
  | nil drawn => rfl
  | cons call rest outcome outcomes called drawn middle after h hrest ih => simp [ih]

/-- How each call of a message is recorded. -/
theorem CallsRecorded.kind
    (h : CallsRecorded harness ports duplicates drawn calls outcomes after) :
    ∀ own ∈ calls.zip outcomes, ∃ called before later,
      CallKind harness ports duplicates before own.1 own.2 called later := by
  induction h with
  | nil drawn => simp
  | cons call rest outcome outcomes called drawn middle after h hrest ih =>
      intro own hown
      rcases List.mem_cons.mp hown with rfl | hown
      · exact ⟨called, drawn, middle, h⟩
      · exact ih own hown

theorem mem_turnCalls {turn : ModelTurnId} {own : RunCall}
    (h : own ∈ turnCalls turn calls outcomes) :
    (own.call, own.outcome) ∈ calls.zip outcomes ∧ own.id.turn = turn := by
  obtain ⟨indexed, hindexed, rfl⟩ := List.mem_map.mp h
  exact ⟨List.fst_mem_of_mem_zipIdx hindexed, rfl⟩

theorem mem_runCalls {cycleId : String} {index : ℕ} {own : RunCall}
    (h : own ∈ runCalls cycleId index turns) :
    own.id.turn.cycleId = cycleId ∧ index ≤ own.id.turn.turnIndex := by
  induction turns generalizing index with
  | nil => cases h
  | cons turn rest ih =>
      rcases List.mem_append.mp h with h | h
      · rw [(mem_turnCalls h).2]
        exact ⟨rfl, le_refl index⟩
      · obtain ⟨hcycle, hindex⟩ := ih h
        exact ⟨hcycle, (Nat.le_succ index).trans hindex⟩

theorem nodup_turnCalls (turn : ModelTurnId) (calls : List JsonObject)
    (outcomes : List CallOutcome) :
    ((turnCalls turn calls outcomes).map RunCall.id).Nodup := by
  have hids : (turnCalls turn calls outcomes).map RunCall.id =
      (List.range' 0 (calls.zip outcomes).length).map fun index => ⟨turn, index⟩ := by
    rw [turnCalls, List.map_map, ← List.zipIdx_map_snd, List.map_map]
    rfl
  have hindexes : (List.range' 0 (calls.zip outcomes).length).Nodup := List.nodup_range'
  rw [hids]
  exact hindexes.map fun first second hsame => (ToolCallId.mk.inj hsame).2

/-- No two calls of a run have the same row. -/
theorem nodup_runCalls (cycleId : String) (index : ℕ) (turns : List HarnessTurn) :
    ((runCalls cycleId index turns).map RunCall.id).Nodup := by
  induction turns generalizing index with
  | nil => exact List.nodup_nil
  | cons turn rest ih =>
      rw [runCalls, List.map_append]
      refine List.nodup_append.mpr ⟨nodup_turnCalls _ _ _, ih (index + 1), ?_⟩
      intro first hfirst second hsecond hsame
      obtain ⟨own, hown, rfl⟩ := List.mem_map.mp hfirst
      obtain ⟨other, hother, rfl⟩ := List.mem_map.mp hsecond
      have hindex := (mem_runCalls hother).2
      rw [← hsame, (mem_turnCalls hown).2] at hindex
      exact absurd hindex (Nat.not_succ_le_self index)

/-- The calls and the outcomes of a run are those of its turns. -/
theorem turnCalls_map (turn : ModelTurnId) (hlength : outcomes.length = calls.length) :
    (turnCalls turn calls outcomes).map RunCall.call = calls ∧
      (turnCalls turn calls outcomes).map RunCall.outcome = outcomes := by
  unfold turnCalls
  rw [List.map_map, List.map_map]
  constructor
  · calc (calls.zip outcomes).zipIdx.map (fun own => own.1.1)
        = ((calls.zip outcomes).zipIdx.map Prod.fst).map Prod.fst := by rw [List.map_map]; rfl
      _ = calls := by rw [List.zipIdx_map_fst, List.map_fst_zip hlength.ge]
  · calc (calls.zip outcomes).zipIdx.map (fun own => own.1.2)
        = ((calls.zip outcomes).zipIdx.map Prod.fst).map Prod.snd := by rw [List.map_map]; rfl
      _ = outcomes := by rw [List.zipIdx_map_fst, List.map_snd_zip hlength.le]

theorem TurnsRecorded.runCalls_map (h : TurnsRecorded harness ports seen drawn turns)
    (cycleId : String) (index : ℕ) :
    (runCalls cycleId index turns).map RunCall.call = turns.flatMap HarnessTurn.calls ∧
      (runCalls cycleId index turns).map RunCall.outcome =
        turns.flatMap HarnessTurn.outcomes := by
  induction h generalizing index with
  | nil seen drawn => exact ⟨rfl, rfl⟩
  | cons seen drawn after turn rest hanswered hcalls h hlast hrest ih =>
      obtain ⟨hcall, houtcome⟩ := turnCalls_map ⟨cycleId, index⟩ h.length_eq
      obtain ⟨hcall', houtcome'⟩ := ih (index + 1)
      rw [runCalls, List.map_append, List.map_append, List.flatMap_cons, List.flatMap_cons, hcall,
        houtcome, hcall', houtcome']
      exact ⟨rfl, rfl⟩

/-- How each call of a run is recorded. -/
theorem TurnsRecorded.kind (h : TurnsRecorded harness ports seen drawn turns) {cycleId : String}
    {index : ℕ} {own : RunCall} (hown : own ∈ runCalls cycleId index turns) :
    ∃ duplicates called before later,
      CallKind harness ports duplicates before own.call own.outcome called later := by
  induction h generalizing index with
  | nil seen drawn => cases hown
  | cons seen drawn after turn rest hanswered hcalls h hlast hrest ih =>
      rcases List.mem_append.mp hown with hown | hown
      · exact ⟨_, h.kind _ (mem_turnCalls hown).1⟩
      · exact ih hown

end RunCalls

/-! ## The telemetry of a run -/

section Telemetry

variable {harness} {production : ProductionPorts} {duplicates seen : List String}
  {drawn after : ℕ} {call : JsonObject} {outcome : CallOutcome} {called : List HandledCall}
  {turns : List HarnessTurn}

theorem checkOutput_returned {ports : HarnessPorts} {tool : ToolSpec} {handled : HandlerOutcome}
    {output : JsonObject} {telemetry : List ProviderTelemetry}
    (h : harness.checkOutput ports tool handled = .ok (.ok (output, telemetry))) :
    handled = .returned (.object output) telemetry := by
  unfold checkOutput at h
  split at h
  · cases h
  · cases h
  next output' telemetry' =>
    split at h
    · cases h
    · dsimp only at h
      split at h
      · cases h
      · by_cases hceiling : ((if tool.name = "get_portfolio" then
            harness.limits.maximumGetPortfolioResultTokens
            else harness.limits.maximumDefaultToolResultTokens : ℕ) : ℤ) <
              ports.printedTokens (.object output')
        · rw [if_pos hceiling] at h
          cases h
        · rw [if_neg hceiling] at h
          cases h
          rfl
  · cases h

/-- A research call that succeeded has its telemetry and its results, and no other call has
telemetry. -/
def Furnished (outcome : CallOutcome) : Prop :=
  if outcome.record.isResearch then
    (∃ usage, outcome.telemetry = [usage] ∧ usage.usageKind = "web_search") ∧
      WellFormedResearch outcome.record.output
  else outcome.telemetry = []

theorem CallKind.furnished
    (h : CallKind harness production.toHarnessPorts duplicates drawn call outcome called after) :
    Furnished outcome := by
  unfold Furnished
  cases h with
  | duplicate id hid h => simp [ToolCallRecord.isResearch, failedToolCall]
  | unnamed h => simp [ToolCallRecord.isResearch, failedToolCall]
  | refused id error hid h hprepare => simp [ToolCallRecord.isResearch, failedToolCall]
  | failed id tool error number arguments hid h hname hcheck =>
      simp [ToolCallRecord.isResearch, failedToolCall]
  | succeeded id tool arguments output telemetry number hid h hname hcheck =>
      have hreturned := checkOutput_returned hcheck
      by_cases hweb : tool.name ∈ exaResearchToolNames
      · obtain ⟨usage, fields, rfl, hkind, houtput, hformed⟩ :=
          production.research number tool.name arguments _ _ hweb hreturned
        cases houtput
        rw [if_pos (by simp [ToolCallRecord.isResearch, hweb])]
        exact ⟨⟨usage, rfl, hkind⟩, hformed⟩
      · rw [if_neg (by simp [ToolCallRecord.isResearch, hweb])]
        exact production.silent number tool.name arguments _ _ hweb hreturned

theorem TurnsRecorded.furnished
    (h : TurnsRecorded harness production.toHarnessPorts seen drawn turns) :
    ∀ outcome ∈ turns.flatMap HarnessTurn.outcomes, Furnished outcome := by
  intro outcome houtcome
  rw [← (h.runCalls_map "" 0).2] at houtcome
  obtain ⟨own, hown, rfl⟩ := List.mem_map.mp houtcome
  obtain ⟨duplicates, called, before, later, hkind⟩ := h.kind hown
  exact hkind.furnished

/-- The telemetry of the web searches is that of the research calls. -/
theorem filter_furnished {outcomes : List CallOutcome} (h : ∀ outcome ∈ outcomes, Furnished outcome) :
    (outcomes.flatMap CallOutcome.telemetry).filter (fun usage => usage.usageKind = "web_search") =
      outcomes.flatMap CallOutcome.telemetry := by
  rw [List.filter_eq_self]
  intro usage husage
  obtain ⟨outcome, houtcome, hmem⟩ := List.mem_flatMap.mp husage
  have hfurnished := h outcome houtcome
  unfold Furnished at hfurnished
  split at hfurnished
  · obtain ⟨⟨only, honly, hkind⟩, -⟩ := hfurnished
    rw [honly, List.mem_singleton] at hmem
    rw [hmem]
    exact decide_eq_true hkind
  · rw [hfurnished] at hmem
    cases hmem

theorem length_furnished {outcomes : List CallOutcome} (h : ∀ outcome ∈ outcomes, Furnished outcome) :
    (outcomes.flatMap CallOutcome.telemetry).length =
      outcomes.countP fun outcome => outcome.record.isResearch := by
  induction outcomes with
  | nil => rfl
  | cons outcome rest ih =>
      obtain ⟨hfirst, hrest⟩ := List.forall_mem_cons.mp h
      rw [List.flatMap_cons, List.length_append, ih hrest, List.countP_cons]
      unfold Furnished at hfirst
      split at hfirst
      next hresearch =>
        obtain ⟨⟨usage, husage, -⟩, -⟩ := hfirst
        rw [husage, if_pos hresearch, List.length_singleton, Nat.add_comm]
      next hresearch => rw [hfirst, if_neg hresearch, List.length_nil, Nat.zero_add, Nat.add_zero]

/-- What the audit hands out of the telemetry of a run. -/
theorem TurnsRecorded.search
    (h : TurnsRecorded harness production.toHarnessPorts seen drawn turns) :
    (turns.flatMap fun turn => turn.telemetry :: turn.outcomes.flatMap CallOutcome.telemetry).filter
        (fun usage => usage.usageKind = "web_search") =
      (turns.flatMap HarnessTurn.outcomes).flatMap CallOutcome.telemetry := by
  have hfurnished := h.furnished
  induction h with
  | nil seen drawn => rfl
  | cons seen drawn after turn rest hanswered hcalls h hlast hrest ih =>
      rw [List.flatMap_cons] at hfurnished
      have hmodel : turn.telemetry.usageKind ≠ "web_search" := by
        obtain ⟨number, messages, response, hresponse, htelemetry⟩ := hanswered
        rw [← htelemetry, production.model_telemetry number messages response hresponse]
        decide
      rw [List.flatMap_cons, List.flatMap_cons, List.flatMap_append, List.filter_append,
        List.filter_cons_of_neg (by simpa using hmodel),
        filter_furnished fun outcome houtcome =>
          hfurnished outcome (List.mem_append_left _ houtcome),
        ih fun outcome houtcome => hfurnished outcome (List.mem_append_right _ houtcome)]

end Telemetry

/-! ## The placements of a run -/

/-- What the audit places for a call of a run. -/
def placementOf (audit : AuditPorts) (records : List ToolCallRecord) (own : RunCall) :
    Option Placement :=
  (audit.recordOf records (.object own.call)).map (⟨·, own.id⟩)

section Placements

variable {harness ports} {audit : AuditPorts} {records : List ToolCallRecord} {cycleId : String}
  {seen : List String} {drawn : ℕ} {calls : List JsonObject} {outcomes : List CallOutcome}
  {turns : List HarnessTurn}

theorem mapM_objectOf_eq_some {values : List Json} (h : values.mapM objectOf = some calls) :
    values = calls.map .object := by
  induction values generalizing calls with
  | nil =>
      rw [List.mapM_nil] at h
      cases h
      rfl
  | cons value rest ih =>
      rw [List.mapM_cons] at h
      obtain ⟨first, hfirst, h⟩ := Option.bind_eq_some_iff.mp h
      obtain ⟨later, hlater, h⟩ := Option.bind_eq_some_iff.mp h
      cases h
      unfold objectOf at hfirst
      split at hfirst
      · cases hfirst
        rw [ih hlater]
        rfl
      · cases hfirst

/-- The audit goes through the calls that the harness has read. -/
theorem auditedCalls_of_toolCalls {message : JsonObject} (h : toolCalls message = .ok calls) :
    auditedCalls message = calls.map .object := by
  unfold toolCalls at h
  unfold auditedCalls
  split at h
  next hnone =>
    cases h
    rw [hnone]
    rfl
  next hnull =>
    cases h
    rw [hnull]
    rfl
  next values harray =>
    rw [harray]
    split at h
    next hobjects =>
      cases h
      exact mapM_objectOf_eq_some hobjects
    · cases h
  · cases h

theorem isAssistant_toolMessage (record : ToolCallRecord) :
    isAssistant (toolMessage ports record) = false := by
  simp [isAssistant, toolMessage, Json.get, Json.isText]

/-- Messages that are not of the model place nothing. -/
theorem placements_append_of_not {messages : List JsonObject}
    (h : ∀ message ∈ messages, isAssistant message = false) (index : ℕ) (rest : List JsonObject) :
    audit.placements records cycleId index (messages ++ rest) =
      audit.placements records cycleId index rest := by
  induction messages with
  | nil => rfl
  | cons message messages ih =>
      obtain ⟨hfirst, hrest⟩ := List.forall_mem_cons.mp h
      rw [List.cons_append, AuditPorts.placements, if_neg (by simp [hfirst]), ih hrest]

theorem placed_turn (turn : ModelTurnId) (hlength : outcomes.length = calls.length) :
    audit.placed records turn (calls.map .object) =
      (turnCalls turn calls outcomes).filterMap (placementOf audit records) := by
  have hcalls : calls.map Json.object =
      (calls.zip outcomes).map fun own => Json.object own.1 := by
    conv_lhs => rw [← List.map_fst_zip hlength.ge]
    rw [List.map_map]
    rfl
  rw [AuditPorts.placed, hcalls, List.zipIdx_map, List.filterMap_map, turnCalls,
    List.filterMap_map]
  rfl

/-- The placements of a turn and of those that follow. -/
theorem placements_turn {turn : HarnessTurn} {rest : List HarnessTurn}
    (hcalls : toolCalls turn.message = .ok turn.calls)
    (hlength : turn.outcomes.length = turn.calls.length) (index : ℕ) :
    audit.placements records cycleId index ((turn :: rest).flatMap (HarnessTurn.messages ports)) =
      if isAssistant turn.message then
        (turnCalls ⟨cycleId, index⟩ turn.calls turn.outcomes).filterMap
            (placementOf audit records) ++
          audit.placements records cycleId (index + 1) (rest.flatMap (HarnessTurn.messages ports))
      else
        audit.placements records cycleId index (rest.flatMap (HarnessTurn.messages ports)) := by
  have htools : ∀ message ∈ turn.outcomes.map (fun outcome => toolMessage ports outcome.record),
      isAssistant message = false := by
    intro message hmessage
    obtain ⟨outcome, -, rfl⟩ := List.mem_map.mp hmessage
    exact isAssistant_toolMessage outcome.record
  rw [List.flatMap_cons, HarnessTurn.messages, List.cons_append, AuditPorts.placements,
    auditedCalls_of_toolCalls hcalls, placed_turn _ hlength, placements_append_of_not htools,
    placements_append_of_not htools]

/-- When every message with calls is one of the model, the audit places the calls of the run in
their own rows. -/
theorem TurnsRecorded.placements (h : TurnsRecorded harness ports seen drawn turns)
    (audit : AuditPorts) (records : List ToolCallRecord) (cycleId : String)
    (hroles : ∀ turn ∈ turns, turn.calls ≠ [] → isAssistant turn.message = true) (index : ℕ) :
    audit.placements records cycleId index (turns.flatMap (HarnessTurn.messages ports)) =
      (runCalls cycleId index turns).filterMap (placementOf audit records) := by
  induction h generalizing index with
  | nil seen drawn => rfl
  | cons seen drawn after turn rest hanswered hcalls h hlast hrest ih =>
      obtain ⟨hfirst, hroles⟩ := List.forall_mem_cons.mp hroles
      rw [placements_turn hcalls h.length_eq, runCalls, List.filterMap_append, ih hroles]
      split
      · rfl
      next hassistant =>
        have hempty : turn.calls = [] := by
          by_contra hne
          exact hassistant (hfirst hne)
        have hrest : rest = [] := hlast.resolve_right (not_not.mpr hempty)
        rw [hrest, hempty]
        rfl

end Placements

end BoundedToolHarness

end VTrade
