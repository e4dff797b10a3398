/-
# What every run of the harness keeps to

Whatever the model and the handlers answer, a run calls no more handlers than its limits let it,
hands no id to a handler twice, and answers every call that it records with one tool message,
before it asks the model again.
-/

import VTrade.Harness
import Mathlib.Data.List.Nodup
import Mathlib.Data.List.Range
import Mathlib.Tactic.Ring

namespace VTrade

/-- Whether a call is a call of a web tool. -/
def isWebCall (call : JsonObject) : Bool :=
  (functionName? call).any (· ∈ exaResearchToolNames)

/-- Whether a handler is one of a web tool. -/
def HandledCall.isWeb (handled : HandledCall) : Bool := handled.name ∈ exaResearchToolNames

namespace BoundedToolHarness

variable (harness : BoundedToolHarness) (ports : HarnessPorts)

/-- The error of a call without an id. -/
def unnamedError : ToolError :=
  toolValidationError "tool call requires a non-empty provider call ID"

/-! ## One call -/

/-- How a call is recorded, with the handlers that are called for it and how many identifiers have
been drawn since. -/
inductive CallKind (duplicates : List String) (drawn : ℕ) (call : JsonObject) :
    CallOutcome → List HandledCall → ℕ → Prop
  | duplicate (id : String) (hid : providerCallId? call = some id) (h : id ∈ duplicates) :
      CallKind duplicates drawn call ⟨harness.failedToolCall call id duplicateError, []⟩ [] drawn
  | unnamed (h : providerCallId? call = none) :
      CallKind duplicates drawn call
        ⟨harness.failedToolCall call (ports.ids.hex drawn) unnamedError, []⟩ [] (drawn + 1)
  | refused (id : String) (error : ToolError) (hid : providerCallId? call = some id)
      (h : id ∉ duplicates) (hprepare : harness.prepareCall ports call = .error error) :
      CallKind duplicates drawn call ⟨harness.failedToolCall call id error, []⟩ [] drawn
  | failed (id : String) (tool : ToolSpec) (error : ToolError) (number : ℕ)
      (arguments : JsonObject) (hid : providerCallId? call = some id) (h : id ∉ duplicates)
      (hname : functionName? call = some tool.name)
      (hcheck : harness.checkOutput ports tool (ports.handle number tool.name arguments) =
        .ok (.error error)) :
      CallKind duplicates drawn call ⟨harness.failedToolCall call id error, []⟩
        [⟨id, tool.name⟩] drawn
  | succeeded (id : String) (tool : ToolSpec) (arguments output : JsonObject)
      (telemetry : List ProviderTelemetry) (number : ℕ)
      (hid : providerCallId? call = some id) (h : id ∉ duplicates)
      (hname : functionName? call = some tool.name)
      (hcheck : harness.checkOutput ports tool (ports.handle number tool.name arguments) =
        .ok (.ok (output, telemetry))) :
      CallKind duplicates drawn call
        ⟨⟨id, tool.name, some arguments, true, output, tool.category⟩, telemetry⟩
        [⟨id, tool.name⟩] drawn

/-- A call that gets to its handler has an id, and the name of the tool. -/
theorem prepareCall_eq_ok {call : JsonObject} {tool : ToolSpec} {arguments : JsonObject}
    (h : harness.prepareCall ports call = .ok (tool, arguments)) :
    (∃ id, providerCallId? call = some id) ∧ functionName? call = some tool.name := by
  unfold prepareCall at h
  split at h
  · cases h
  next id hid =>
    obtain ⟨name, hname, h⟩ := Checks.bind_eq_ok.mp h
    refine ⟨⟨id, hid⟩, ?_⟩
    split at h
    · cases h
    next found htool =>
      obtain ⟨arguments', -, h⟩ := Checks.bind_eq_ok.mp h
      split at h
      · cases h
      · cases h
        have hkey : tool.name = name := KeyedList.key_of_lookup_eq_some htool
        unfold toolName at hname
        split at hname
        next name' hname' =>
          cases hname
          rw [hname', hkey]
        · cases hname

/-- How a call ends: the clock has run out, its handler raised, or it is recorded. -/
inductive CallStepped (duplicates : List String) (state : HarnessState) (call : JsonObject) :
    HarnessState → Except HarnessFailure CallOutcome → Prop
  | late (failure : HarnessFailure) :
      CallStepped duplicates state call { state with readings := state.readings + 1 }
        (.error failure)
  | escaped (id name : String) (failure : HarnessFailure) (hid : providerCallId? call = some id)
      (h : id ∉ duplicates) (hname : functionName? call = some name) :
      CallStepped duplicates state call
        { state with
          readings := state.readings + 1
          handled := state.handled ++ [⟨id, name⟩] } (.error failure)
  | recorded (outcome : CallOutcome) (called : List HandledCall) (drawn : ℕ)
      (h : CallKind harness ports duplicates state.drawn call outcome called drawn) :
      CallStepped duplicates state call
        (answered ports { state with
          readings := state.readings + 1
          drawn := drawn
          handled := state.handled ++ called } call outcome) (.ok outcome)

/-- A call whose id is no duplicate. -/
theorem executeTool_stepped (duplicates : List String) (state : HarnessState) (call : JsonObject)
    (hnot : ∀ id ∈ providerCallId? call, id ∉ duplicates) :
    (∃ id name failure, providerCallId? call = some id ∧ functionName? call = some name ∧
      harness.executeTool ports state call =
        ({ state with handled := state.handled ++ [⟨id, name⟩] }, .error failure)) ∨
    ∃ outcome called drawn,
      CallKind harness ports duplicates state.drawn call outcome called drawn ∧
        harness.executeTool ports state call =
          ({ state with drawn := drawn, handled := state.handled ++ called }, .ok outcome) := by
  unfold executeTool
  dsimp only
  cases hprepare : harness.prepareCall ports call with
  | error error =>
      right
      cases hid : providerCallId? call with
      | none =>
          have herror : error = unnamedError := by
            unfold prepareCall at hprepare
            rw [hid] at hprepare
            cases hprepare
            rfl
          subst herror
          exact ⟨_, [], state.drawn + 1, .unnamed hid, by simp⟩
      | some id =>
          exact ⟨_, [], state.drawn, .refused id error hid (hnot id hid) hprepare, by simp⟩
  | ok prepared =>
      obtain ⟨tool, arguments⟩ := prepared
      obtain ⟨⟨id, hid⟩, hname⟩ := harness.prepareCall_eq_ok ports hprepare
      dsimp only
      rw [hid]
      cases hcheck : harness.checkOutput ports tool
        (ports.handle state.handled.length tool.name arguments) with
      | error failure => exact .inl ⟨id, tool.name, failure, rfl, hname, by simp⟩
      | ok checked =>
          right
          cases checked with
          | error error =>
              exact ⟨_, [⟨id, tool.name⟩], state.drawn,
                .failed id tool error _ arguments hid (hnot id hid) hname hcheck, by simp⟩
          | ok made =>
              obtain ⟨output, telemetry⟩ := made
              exact ⟨_, [⟨id, tool.name⟩], state.drawn,
                .succeeded id tool arguments output telemetry _ hid (hnot id hid) hname hcheck,
                by simp⟩

theorem performCall_stepped (duplicates : List String) (state : HarnessState) (call : JsonObject) :
    CallStepped harness ports duplicates state call
      (harness.performCall ports duplicates state call).1
      (harness.performCall ports duplicates state call).2 := by
  unfold performCall
  dsimp only
  cases harness.checkWallClock ports state with
  | error failure => exact .late failure
  | ok _ =>
      dsimp only
      unfold recordCall
      have hexecuted := harness.executeTool_stepped ports duplicates
        { state with readings := state.readings + 1 } call
      cases hid : providerCallId? call with
      | none =>
          dsimp only
          rcases hexecuted (by simp [hid]) with
            ⟨id, name, failure, hcall, hname, hexecute⟩ |
              ⟨outcome, called, drawn, hkind, hexecute⟩
          · rw [hid] at hcall
            cases hcall
          · rw [hexecute]
            exact .recorded outcome called drawn hkind
      | some id =>
          dsimp only
          by_cases hduplicate : id ∈ duplicates
          · rw [if_pos hduplicate]
            have hrecorded : CallStepped harness ports duplicates state call _ _ :=
              .recorded _ _ _ (.duplicate id hid hduplicate)
            simpa using hrecorded
          · rw [if_neg hduplicate]
            have hnot : ∀ id ∈ providerCallId? call, id ∉ duplicates := by simp [hid, hduplicate]
            rcases hexecuted hnot with
              ⟨named, name, failure, hcall, hname, hexecute⟩ |
                ⟨outcome, called, drawn, hkind, hexecute⟩
            · rw [hexecute]
              exact .escaped named name failure hcall (hnot named hcall) hname
            · rw [hexecute]
              exact .recorded outcome called drawn hkind

section CallKind

variable {harness ports} {duplicates : List String} {drawn after : ℕ} {call : JsonObject}
  {outcome : CallOutcome} {called : List HandledCall}

/-- The handlers that are called for a call. -/
theorem CallKind.handlers (h : CallKind harness ports duplicates drawn call outcome called after) :
    (called.map HandledCall.id).Sublist (providerCallId? call).toList ∧
      (∀ handled ∈ called, handled.id ∉ duplicates) ∧
      called.countP HandledCall.isWeb ≤ if isWebCall call then 1 else 0 := by
  cases h with
  | duplicate id hid h => simp
  | unnamed h => simp
  | refused id error hid h hprepare => simp
  | failed id tool error number arguments hid h hname hcheck =>
      simp [hid, h, isWebCall, HandledCall.isWeb, hname, List.countP_cons]
  | succeeded id tool arguments output telemetry number hid h hname hcheck =>
      simp [hid, h, isWebCall, HandledCall.isWeb, hname, List.countP_cons]

/-- A call is recorded under its id, or under the next one that is drawn. -/
theorem CallKind.identified
    (h : CallKind harness ports duplicates drawn call outcome called after) :
    (∃ id, providerCallId? call = some id ∧ outcome.record.id = id ∧ after = drawn) ∨
      (providerCallId? call = none ∧ outcome.record.id = ports.ids.hex drawn ∧
        after = drawn + 1) := by
  cases h with
  | duplicate id hid h => exact .inl ⟨id, hid, rfl, rfl⟩
  | unnamed h => exact .inr ⟨h, rfl, rfl⟩
  | refused id error hid h hprepare => exact .inl ⟨id, hid, rfl, rfl⟩
  | failed id tool error number arguments hid h hname hcheck => exact .inl ⟨id, hid, rfl, rfl⟩
  | succeeded id tool arguments output telemetry number hid h hname hcheck =>
      exact .inl ⟨id, hid, rfl, rfl⟩

end CallKind

/-- The ids of some calls: their own, or those drawn from a number on. -/
def recordedIds (ids : RandomIds) : ℕ → List JsonObject → List String
  | _, [] => []
  | drawn, call :: rest =>
      match providerCallId? call with
      | some id => id :: recordedIds ids drawn rest
      | none => ids.hex drawn :: recordedIds ids (drawn + 1) rest

/-! ## The calls of a message -/

/-- How the calls of a message end. -/
inductive LoopRan (duplicates : List String) :
    List JsonObject → HarnessState → HarnessState → List CallOutcome →
      Except HarnessFailure Unit → Prop
  | done (state : HarnessState) : LoopRan duplicates [] state state [] (.ok ())
  | late (call : JsonObject) (rest : List JsonObject) (state : HarnessState)
      (failure : HarnessFailure) :
      LoopRan duplicates (call :: rest) state { state with readings := state.readings + 1 } []
        (.error failure)
  | escaped (call : JsonObject) (rest : List JsonObject) (state : HarnessState) (id name : String)
      (failure : HarnessFailure) (hid : providerCallId? call = some id) (h : id ∉ duplicates)
      (hname : functionName? call = some name) :
      LoopRan duplicates (call :: rest) state
        { state with
          readings := state.readings + 1
          handled := state.handled ++ [⟨id, name⟩] } [] (.error failure)
  | recorded (call : JsonObject) (rest : List JsonObject) (state after : HarnessState)
      (outcome : CallOutcome) (outcomes : List CallOutcome) (called : List HandledCall) (drawn : ℕ)
      (result : Except HarnessFailure Unit)
      (h : CallKind harness ports duplicates state.drawn call outcome called drawn)
      (hrest : LoopRan duplicates rest
        (answered ports { state with
          readings := state.readings + 1
          drawn := drawn
          handled := state.handled ++ called } call outcome) after outcomes result) :
      LoopRan duplicates (call :: rest) state after (outcome :: outcomes) result

theorem callLoop_ran (duplicates : List String) (calls : List JsonObject) (state : HarnessState) :
    LoopRan harness ports duplicates calls state
      (harness.callLoop ports duplicates calls state).1
      (harness.callLoop ports duplicates calls state).2.1
      (harness.callLoop ports duplicates calls state).2.2 := by
  induction calls generalizing state with
  | nil => exact .done state
  | cons call rest ih =>
      have hstepped := harness.performCall_stepped ports duplicates state call
      unfold callLoop
      generalize harness.performCall ports duplicates state call = performed at hstepped
      obtain ⟨after, result⟩ := performed
      cases hstepped with
      | late failure => exact .late call rest state failure
      | escaped id name failure hid h hname =>
          exact .escaped call rest state id name failure hid h hname
      | recorded outcome called drawn h =>
          exact .recorded call rest state _ outcome _ called drawn _ h (ih _)

section LoopRan

variable {harness ports} {duplicates : List String} {calls : List JsonObject}
  {state after : HarnessState} {outcomes : List CallOutcome} {result : Except HarnessFailure Unit}

/-- What the calls of a message add to the transcript, the records and the telemetry. -/
theorem LoopRan.transcript (h : LoopRan harness ports duplicates calls state after outcomes result) :
    after.messages = state.messages ++ outcomes.map (fun outcome => toolMessage ports outcome.record) ∧
      after.records = state.records ++ outcomes.map CallOutcome.record ∧
      after.telemetry = state.telemetry ++ outcomes.flatMap CallOutcome.telemetry := by
  induction h with
  | done state => simp
  | late call rest state failure => simp
  | escaped call rest state id name failure hid h hname => simp
  | recorded call rest state after outcome outcomes called drawn result h hrest ih =>
      obtain ⟨hmessages, hrecords, htelemetry⟩ := ih
      simp [hmessages, hrecords, htelemetry, answered]

/-- The calls of a message send no request. -/
theorem LoopRan.frame (h : LoopRan harness ports duplicates calls state after outcomes result) :
    after.requests = state.requests ∧ after.webSearches = state.webSearches := by
  induction h with
  | done state => exact ⟨rfl, rfl⟩
  | late call rest state failure => exact ⟨rfl, rfl⟩
  | escaped call rest state id name failure hid h hname => exact ⟨rfl, rfl⟩
  | recorded call rest state after outcome outcomes called drawn result h hrest ih => exact ih

/-- Calls are recorded in order, and all of them unless one raises. -/
theorem LoopRan.length_outcomes
    (h : LoopRan harness ports duplicates calls state after outcomes result) :
    outcomes.length ≤ calls.length ∧ (result = .ok () → outcomes.length = calls.length) := by
  induction h with
  | done state => simp
  | late call rest state failure => simp
  | escaped call rest state id name failure hid h hname => simp
  | recorded call rest state after outcome outcomes called drawn result h hrest ih =>
      simpa using ih

/-- The ids of calls that are seen. -/
theorem LoopRan.seen (h : LoopRan harness ports duplicates calls state after outcomes result) :
    after.seenToolCallIds =
      state.seenToolCallIds ++ (calls.take outcomes.length).filterMap providerCallId? := by
  induction h with
  | done state => simp
  | late call rest state failure => simp
  | escaped call rest state id name failure hid h hname => simp
  | recorded call rest state after outcome outcomes called drawn result h hrest ih =>
      rw [ih, List.length_cons, List.take_succ_cons, List.filterMap_cons]
      cases hid : providerCallId? call with
      | none => simp [answered, hid]
      | some id => simp [answered, hid]

/-- The handlers of the calls of a message: at most one a call, none for a duplicate. -/
theorem LoopRan.handlers (h : LoopRan harness ports duplicates calls state after outcomes result) :
    ∃ called, after.handled = state.handled ++ called ∧
      (called.map HandledCall.id).Sublist (calls.filterMap providerCallId?) ∧
      (∀ handled ∈ called, handled.id ∉ duplicates) ∧
      called.countP HandledCall.isWeb ≤ calls.countP isWebCall := by
  induction h with
  | done state => exact ⟨[], by simp, by simp, by simp, by simp⟩
  | late call rest state failure => exact ⟨[], by simp, by simp, by simp, by simp⟩
  | escaped call rest state id name failure hid h hname =>
      refine ⟨[⟨id, name⟩], rfl, ?_, by simp [h], ?_⟩
      · rw [List.filterMap_cons, hid]
        exact (List.nil_sublist _).cons_cons id
      · have hweb : isWebCall call = HandledCall.isWeb ⟨id, name⟩ := by
          simp [isWebCall, HandledCall.isWeb, hname]
        rw [List.countP_cons, List.countP_cons, hweb]
        simp
  | recorded call rest state after outcome outcomes called drawn result h hrest ih =>
      obtain ⟨later, hhandled, hsublist, hnot, hweb⟩ := ih
      obtain ⟨hfirst, hnot', hweb'⟩ := h.handlers
      refine ⟨called ++ later, ?_, ?_, ?_, ?_⟩
      · rw [hhandled]
        exact List.append_assoc _ _ _
      · have hids : (call :: rest).filterMap providerCallId? =
            (providerCallId? call).toList ++ rest.filterMap providerCallId? := by
          rw [List.filterMap_cons]
          cases providerCallId? call <;> rfl
        rw [hids, List.map_append]
        exact hfirst.append hsublist
      · intro handled hmem
        exact (List.mem_append.mp hmem).elim (hnot' handled) (hnot handled)
      · rw [List.countP_append, List.countP_cons]
        omega

/-- The ids that the calls of a message are recorded under. -/
theorem LoopRan.identified
    (h : LoopRan harness ports duplicates calls state after outcomes result) :
    outcomes.map (fun outcome => outcome.record.id) =
      recordedIds ports.ids state.drawn (calls.take outcomes.length) ∧
    after.drawn = state.drawn +
      (calls.take outcomes.length).countP (fun call => (providerCallId? call).isNone) := by
  induction h with
  | done state => simp [recordedIds]
  | late call rest state failure => simp [recordedIds]
  | escaped call rest state id name failure hid h hname => simp [recordedIds]
  | recorded call rest state after outcome outcomes called drawn result h hrest ih =>
      obtain ⟨hids, hdrawn⟩ := ih
      rw [List.map_cons, List.length_cons, List.take_succ_cons, hids, hdrawn, List.countP_cons]
      rcases h.identified with ⟨id, hid, hrecord, rfl⟩ | ⟨hid, hrecord, rfl⟩
      · simp [recordedIds, hid, hrecord, answered]
      · simp [recordedIds, hid, hrecord, answered]
        omega

end LoopRan

/-! ## Turns -/

/-- Nothing of a call has changed; one more request may have been sent. -/
structure Idle (state after : HarnessState) : Prop where
  records : after.records = state.records
  webSearches : after.webSearches = state.webSearches
  seen : after.seenToolCallIds = state.seenToolCallIds
  drawn : after.drawn = state.drawn
  handled : after.handled = state.handled
  requests : after.requests ≤ state.requests + 1

/-- The state in which the calls of a message are begun. -/
def called (state : HarnessState) (telemetry : ProviderTelemetry) (message : JsonObject)
    (proposed : ℕ) : HarnessState :=
  { responded { state with readings := state.readings + 1, requests := state.requests + 1 }
      telemetry with
    messages := state.messages ++ [message]
    webSearches := state.webSearches + proposed }

/-- The gateway has answered with this telemetry. -/
def Answered (telemetry : ProviderTelemetry) : Prop :=
  ∃ number messages response, ports.complete number messages = .ok response ∧
    response.telemetry = telemetry

/-- How a turn ends. -/
inductive TurnStepped (state : HarnessState) :
    HarnessState → List HarnessTurn → Option (Except HarnessFailure String) → Prop
  | limited (status : String) :
      TurnStepped state { state with readings := state.readings + 1 } [] (some (.ok status))
  | cut (after : HarnessState) (failure : HarnessFailure) (hidle : Idle state after)
      (hmessages : after.messages = state.messages) :
      TurnStepped state after [] (some (.error failure))
  | stopped (message : JsonObject) (telemetry : ProviderTelemetry) (status : String)
      (hanswered : Answered ports telemetry) (hcalls : toolCalls message = .ok []) :
      TurnStepped state
        { called state telemetry message 0 with webSearches := state.webSearches }
        [⟨message, telemetry, []⟩] (some (.ok status))
  | refused (message : JsonObject) (telemetry : ProviderTelemetry) (failure : HarnessFailure)
      (after : HarnessState) (hidle : Idle state after)
      (hmessages : after.messages = state.messages ++ [message]) :
      TurnStepped state after [⟨message, telemetry, []⟩] (some (.error failure))
  | called (message : JsonObject) (telemetry : ProviderTelemetry) (calls : List JsonObject)
      (after : HarnessState) (outcomes : List CallOutcome) (result : Except HarnessFailure Unit)
      (hanswered : Answered ports telemetry) (hcalls : toolCalls message = .ok calls)
      (hne : calls ≠ [])
      (htotal : state.records.length + calls.length ≤ harness.limits.maximumTotalToolCalls)
      (hweb : state.webSearches + calls.countP isWebCall ≤ harness.limits.maximumWebSearches)
      (h : LoopRan harness ports (duplicateIds state.seenToolCallIds calls) calls
        (called state telemetry message (calls.countP isWebCall)) after outcomes result) :
      TurnStepped state after [⟨message, telemetry, outcomes⟩]
        (match result with
          | .ok _ => none
          | .error failure => some (.error failure))

/-- The proposed web calls are counted by their names. -/
theorem proposedWeb_eq_ok {calls : List JsonObject} {proposed : ℕ}
    (h : proposedWeb calls = .ok proposed) : proposed = calls.countP isWebCall := by
  unfold proposedWeb at h
  split at h
  next names hnames =>
    cases h
    have hall := Checks.mapM_eq_ok_iff.mp hnames
    clear hnames
    induction hall with
    | nil => rfl
    | @cons call name calls names hname hrest ih =>
        have hfunction : functionName? call = some name := by
          unfold toolName at hname
          split at hname
          next hfunction =>
            cases hname
            exact hfunction
          · cases hname
        rw [List.countP_cons, List.countP_cons, ih, isWebCall, hfunction]
        simp
  · cases h

/-- A turn whose calls are begun. -/
theorem called_stepped {harness : BoundedToolHarness} {ports : HarnessPorts} {state : HarnessState}
    {calls : List JsonObject} (message : JsonObject) (telemetry : ProviderTelemetry)
    (hanswered : Answered ports telemetry) (hcalls : toolCalls message = .ok calls)
    (hne : calls ≠ [])
    (htotal : state.records.length + calls.length ≤ harness.limits.maximumTotalToolCalls)
    (hweb : state.webSearches + calls.countP isWebCall ≤ harness.limits.maximumWebSearches)
    (ran : HarnessState × List CallOutcome × Except HarnessFailure Unit)
    (h : LoopRan harness ports (duplicateIds state.seenToolCallIds calls) calls
      (called state telemetry message (calls.countP isWebCall)) ran.1 ran.2.1 ran.2.2) :
    TurnStepped harness ports state (endTurn ran).1 [⟨message, telemetry, (endTurn ran).2.1⟩]
      (endTurn ran).2.2 := by
  obtain ⟨after, outcomes, result⟩ := ran
  cases result with
  | error failure =>
      exact .called message telemetry calls after outcomes _ hanswered hcalls hne htotal hweb h
  | ok _ =>
      exact .called message telemetry calls after outcomes _ hanswered hcalls hne htotal hweb h

theorem performCalls_stepped (message : JsonObject) {telemetry : ProviderTelemetry}
    (hanswered : Answered ports telemetry) (state : HarnessState) :
    TurnStepped harness ports state
      (harness.performCalls ports message
        { responded { state with readings := state.readings + 1, requests := state.requests + 1 }
            telemetry with messages := state.messages ++ [message] }).1
      [⟨message, telemetry, (harness.performCalls ports message
        { responded { state with readings := state.readings + 1, requests := state.requests + 1 }
            telemetry with messages := state.messages ++ [message] }).2.1⟩]
      (harness.performCalls ports message
        { responded { state with readings := state.readings + 1, requests := state.requests + 1 }
            telemetry with messages := state.messages ++ [message] }).2.2 := by
  have hrefused (failure : HarnessFailure) : TurnStepped harness ports state
      { responded { state with readings := state.readings + 1, requests := state.requests + 1 }
          telemetry with messages := state.messages ++ [message] }
      [⟨message, telemetry, []⟩] (some (.error failure)) :=
    .refused message telemetry failure _ ⟨rfl, rfl, rfl, rfl, rfl, le_refl _⟩ rfl
  unfold performCalls
  cases hcalls : toolCalls message with
  | error failure => exact hrefused failure
  | ok calls =>
      dsimp only
      by_cases hempty : calls = []
      · subst hempty
        exact .stopped message telemetry "stop" hanswered hcalls
      · rw [if_neg (by simpa using hempty)]
        split
        next htotal => exact hrefused _
        next htotal =>
          cases hproposed : proposedWeb calls with
          | error failure => exact hrefused failure
          | ok proposed =>
              dsimp only
              split
              next hweb => exact hrefused _
              next hweb =>
                have hcount := proposedWeb_eq_ok hproposed
                subst hcount
                have htotal : state.records.length + calls.length ≤
                  harness.limits.maximumTotalToolCalls := not_lt.mp htotal
                have hweb : state.webSearches + calls.countP isWebCall ≤
                  harness.limits.maximumWebSearches := not_lt.mp hweb
                exact called_stepped message telemetry hanswered hcalls hempty htotal hweb _
                  (harness.callLoop_ran ports _ calls _)

theorem requestTurn_stepped (state : HarnessState) :
    TurnStepped harness ports state
      (harness.requestTurn ports { state with readings := state.readings + 1 }).1
      (harness.requestTurn ports { state with readings := state.readings + 1 }).2.1
      (harness.requestTurn ports { state with readings := state.readings + 1 }).2.2 := by
  unfold requestTurn
  dsimp only
  cases hresponse : ports.complete state.requests state.messages with
  | error failure => exact .cut _ failure ⟨rfl, rfl, rfl, rfl, rfl, le_refl _⟩ rfl
  | ok response =>
      have hanswered : Answered ports response.telemetry := ⟨_, _, response, hresponse, rfl⟩
      dsimp only
      split
      · exact .cut _ _ ⟨rfl, rfl, rfl, rfl, rfl, le_refl _⟩ rfl
      · cases assistantMessage response.response with
        | error failure => exact .cut _ failure ⟨rfl, rfl, rfl, rfl, rfl, le_refl _⟩ rfl
        | ok message => exact harness.performCalls_stepped ports message hanswered state

theorem turn_stepped (modelConfig : JsonObject) (state : HarnessState) :
    TurnStepped harness ports state (harness.turn ports modelConfig state).1
      (harness.turn ports modelConfig state).2.1 (harness.turn ports modelConfig state).2.2 := by
  have hidle : Idle state { state with readings := state.readings + 1 } :=
    ⟨rfl, rfl, rfl, rfl, rfl, Nat.le_succ _⟩
  unfold turn
  dsimp only
  cases harness.checkWallClock ports state with
  | error failure => exact .cut _ failure hidle rfl
  | ok _ =>
      dsimp only
      cases harness.prepareRequest ports modelConfig { state with readings := state.readings + 1 }
        with
      | error failure => exact .cut _ failure hidle rfl
      | ok sent =>
          cases sent with
          | false => exact .limited "assembled_input_limit"
          | true => exact harness.requestTurn_stepped ports state

/-! ## Runs -/

/-- The messages that a turn adds: the one of the model, and one for every call that is recorded. -/
def HarnessTurn.messages (turn : HarnessTurn) : List JsonObject :=
  turn.message :: turn.outcomes.map fun outcome => toolMessage ports outcome.record

/-- The calls of a turn that are recorded. -/
def HarnessTurn.recordedCalls (turn : HarnessTurn) : List JsonObject :=
  turn.calls.take turn.outcomes.length

/-- The ids that the calls of a turn are recorded under. -/
def HarnessTurn.recordIds (turn : HarnessTurn) : List String :=
  turn.outcomes.map fun outcome => outcome.record.id

/-- All calls of a turn are recorded. -/
def HarnessTurn.Complete (turn : HarnessTurn) : Prop := turn.outcomes.length = turn.calls.length

/-- The transcript of a run: its messages are those of its turns, and every call that is recorded
has its own id or the next one that is drawn. -/
structure Transcribed (initialMessages : List JsonObject) (turns : List HarnessTurn)
    (state : HarnessState) : Prop where
  messages : state.messages = initialMessages ++ turns.flatMap (HarnessTurn.messages ports)
  ids : turns.flatMap HarnessTurn.recordIds =
    recordedIds ports.ids 0 (turns.flatMap HarnessTurn.recordedCalls)

/-- The handlers that a run has called: within the limits, and each for another id. -/
structure Executed (state : HarnessState) : Prop where
  handlers : state.handled.length ≤ harness.limits.maximumTotalToolCalls
  web : state.handled.countP HandledCall.isWeb ≤ harness.limits.maximumWebSearches
  once : (state.handled.map HandledCall.id).Nodup

/-- What a run that goes on to its next turn keeps to. -/
structure Continues (initialMessages : List JsonObject) (turns : List HarnessTurn)
    (state : HarnessState) : Prop where
  transcript : Transcribed ports initialMessages turns state
  complete : ∀ turn ∈ turns, turn.calls ≠ [] ∧ turn.Complete
  records : state.records = turns.flatMap fun turn => turn.outcomes.map CallOutcome.record
  telemetry : state.telemetry =
    turns.flatMap fun turn => turn.telemetry :: turn.outcomes.flatMap CallOutcome.telemetry
  drawn : state.drawn =
    (turns.flatMap HarnessTurn.calls).countP fun call => (providerCallId? call).isNone
  seen : state.seenToolCallIds = (turns.flatMap HarnessTurn.calls).filterMap providerCallId?
  handlers : state.handled.length ≤ state.records.length
  total : state.records.length ≤ harness.limits.maximumTotalToolCalls
  web : state.handled.countP HandledCall.isWeb ≤ state.webSearches
  webTotal : state.webSearches ≤ harness.limits.maximumWebSearches
  once : (state.handled.map HandledCall.id).Nodup
  handled_seen : ∀ handled ∈ state.handled, handled.id ∈ state.seenToolCallIds

theorem recordedIds_append (ids : RandomIds) (drawn : ℕ) (first second : List JsonObject) :
    recordedIds ids drawn (first ++ second) = recordedIds ids drawn first ++
      recordedIds ids (drawn + first.countP fun call => (providerCallId? call).isNone) second := by
  induction first generalizing drawn with
  | nil => rfl
  | cons call rest ih =>
      rw [List.cons_append, List.countP_cons]
      cases hid : providerCallId? call with
      | some id => simp [recordedIds, hid, ih]
      | none =>
          simp only [recordedIds, hid, ih, List.cons_append, Option.isNone_none, if_true]
          rw [show drawn + 1 + rest.countP (fun call => (providerCallId? call).isNone) =
            drawn + (rest.countP (fun call => (providerCallId? call).isNone) + 1) by omega]

section Continues

variable {harness ports} {initialMessages : List JsonObject} {turns : List HarnessTurn}
  {state after : HarnessState} {message : JsonObject} {telemetry : ProviderTelemetry}
  {calls : List JsonObject} {outcomes : List CallOutcome} {result : Except HarnessFailure Unit}

/-- The calls of complete turns are all recorded. -/
theorem recordedCalls_of_complete (h : ∀ turn ∈ turns, turn.Complete) :
    turns.flatMap HarnessTurn.recordedCalls = turns.flatMap HarnessTurn.calls := by
  induction turns with
  | nil => rfl
  | cons turn rest ih =>
      obtain ⟨hturn, hrest⟩ := List.forall_mem_cons.mp h
      rw [List.flatMap_cons, List.flatMap_cons, ih hrest, HarnessTurn.recordedCalls,
        List.take_of_length_le hturn.ge]

theorem Continues.executed (h : Continues harness ports initialMessages turns state) :
    Executed harness state :=
  ⟨h.handlers.trans h.total, h.web.trans h.webTotal, h.once⟩

theorem calls_of_toolCalls (hcalls : toolCalls message = .ok calls) :
    HarnessTurn.calls ⟨message, telemetry, outcomes⟩ = calls := by
  unfold HarnessTurn.calls
  rw [hcalls]
  rfl

/-- The transcript of a turn whose calls are begun. -/
theorem Continues.transcribed (h : Continues harness ports initialMessages turns state)
    (hcalls : toolCalls message = .ok calls) {duplicates : List String} {proposed : ℕ}
    (hran : LoopRan harness ports duplicates calls (called state telemetry message proposed) after
      outcomes result) :
    Transcribed ports initialMessages (turns ++ [⟨message, telemetry, outcomes⟩]) after := by
  obtain ⟨hmessages, -, -⟩ := hran.transcript
  obtain ⟨hids, -⟩ := hran.identified
  constructor
  · rw [hmessages, List.flatMap_append, ← List.append_assoc, ← h.transcript.messages]
    simp [called, HarnessTurn.messages]
  · rw [List.flatMap_append, List.flatMap_append, recordedIds_append, h.transcript.ids,
      recordedCalls_of_complete fun turn hturn => (h.complete turn hturn).2, ← h.drawn]
    simp only [List.flatMap_cons, List.flatMap_nil, List.append_nil]
    rw [HarnessTurn.recordIds, hids, HarnessTurn.recordedCalls, calls_of_toolCalls hcalls,
      Nat.zero_add]
    rfl

/-- The ids of the handlers of a message are new, and no two of them alike. -/
theorem nodup_of_not_duplicate {seen ids : List String}
    (hsublist : ids.Sublist (calls.filterMap providerCallId?))
    (hnot : ∀ id ∈ ids, id ∉ duplicateIds seen calls) :
    ids.Nodup ∧ ∀ id ∈ ids, id ∉ seen := by
  have hclear : ∀ id ∈ ids, (calls.filterMap providerCallId?).count id ≤ 1 ∧ id ∉ seen := by
    intro id hid
    have hnot := hnot id hid
    unfold duplicateIds at hnot
    rw [List.mem_filter] at hnot
    simp only [decide_eq_true_eq] at hnot
    exact ⟨not_lt.mp fun hcount => hnot ⟨hsublist.subset hid, .inl hcount⟩,
      fun hseen => hnot ⟨hsublist.subset hid, .inr hseen⟩⟩
  refine ⟨List.nodup_iff_count_le_one.mpr fun id => ?_, fun id hid => (hclear id hid).2⟩
  by_cases hid : id ∈ ids
  · exact (hsublist.count_le id).trans (hclear id hid).1
  · rw [List.count_eq_zero_of_not_mem hid]
    exact Nat.zero_le 1

/-- The handlers that have been called when the calls of a message end. -/
theorem Continues.executed_after (h : Continues harness ports initialMessages turns state)
    (htotal : state.records.length + calls.length ≤ harness.limits.maximumTotalToolCalls)
    (hweb : state.webSearches + calls.countP isWebCall ≤ harness.limits.maximumWebSearches)
    (hran : LoopRan harness ports (duplicateIds state.seenToolCallIds calls) calls
      (called state telemetry message (calls.countP isWebCall)) after outcomes result) :
    Executed harness after ∧ after.handled.length ≤ state.records.length + calls.length ∧
      after.handled.countP HandledCall.isWeb ≤ state.webSearches + calls.countP isWebCall ∧
      ∀ handled ∈ after.handled,
        handled.id ∈ state.seenToolCallIds ++ calls.filterMap providerCallId? := by
  obtain ⟨added, hhandled, hsublist, hnot, hcount⟩ := hran.handlers
  have hhandled : after.handled = state.handled ++ added := hhandled
  obtain ⟨hnodup, hnew⟩ := nodup_of_not_duplicate hsublist fun id hid => by
    obtain ⟨handled, hmem, rfl⟩ := List.mem_map.mp hid
    exact hnot handled hmem
  have hadded : added.length ≤ calls.length := by
    rw [← List.length_map (f := HandledCall.id)]
    exact hsublist.length_le.trans (List.length_filterMap_le _ _)
  have hlength : after.handled.length ≤ state.records.length + calls.length := by
    rw [hhandled, List.length_append]
    exact Nat.add_le_add h.handlers hadded
  have hweb' : after.handled.countP HandledCall.isWeb ≤
      state.webSearches + calls.countP isWebCall := by
    rw [hhandled, List.countP_append]
    exact Nat.add_le_add h.web hcount
  refine ⟨⟨hlength.trans htotal, hweb'.trans hweb, ?_⟩, hlength, hweb', ?_⟩
  · rw [hhandled, List.map_append, List.nodup_append]
    refine ⟨h.once, hnodup, ?_⟩
    rintro first hfirst second hsecond rfl
    obtain ⟨handled, hmem, rfl⟩ := List.mem_map.mp hfirst
    exact hnew _ hsecond (h.handled_seen handled hmem)
  · intro handled hmem
    rw [hhandled] at hmem
    rcases List.mem_append.mp hmem with hmem | hmem
    · exact List.mem_append_left _ (h.handled_seen handled hmem)
    · exact List.mem_append_right _ (hsublist.subset (List.mem_map_of_mem hmem))

/-- A turn whose calls are all recorded. -/
theorem Continues.next (h : Continues harness ports initialMessages turns state)
    (hcalls : toolCalls message = .ok calls) (hne : calls ≠ [])
    (htotal : state.records.length + calls.length ≤ harness.limits.maximumTotalToolCalls)
    (hweb : state.webSearches + calls.countP isWebCall ≤ harness.limits.maximumWebSearches)
    (hran : LoopRan harness ports (duplicateIds state.seenToolCallIds calls) calls
      (called state telemetry message (calls.countP isWebCall)) after outcomes (.ok ())) :
    Continues harness ports initialMessages (turns ++ [⟨message, telemetry, outcomes⟩]) after := by
  obtain ⟨-, hrecords, htelemetry⟩ := hran.transcript
  obtain ⟨hexecuted, hhandlers, hcount, hseen⟩ := h.executed_after htotal hweb hran
  have hlength := hran.length_outcomes.2 rfl
  have htake : calls.take outcomes.length = calls := List.take_of_length_le hlength.ge
  have hcalls' : HarnessTurn.calls ⟨message, telemetry, outcomes⟩ = calls :=
    calls_of_toolCalls hcalls
  have hrecords' : after.records = state.records ++ outcomes.map CallOutcome.record := hrecords
  have hseen' : after.seenToolCallIds =
      state.seenToolCallIds ++ calls.filterMap providerCallId? := by
    have hran := hran.seen
    rw [htake] at hran
    exact hran
  constructor
  case transcript => exact h.transcribed hcalls hran
  case complete =>
    intro turn hturn
    rcases List.mem_append.mp hturn with hturn | hturn
    · exact h.complete turn hturn
    · rw [List.mem_singleton.mp hturn, HarnessTurn.Complete, hcalls']
      exact ⟨hne, hlength⟩
  case records =>
    rw [hrecords', h.records, List.flatMap_append]
    simp
  case telemetry =>
    rw [htelemetry, List.flatMap_append, ← h.telemetry]
    simp [called, responded]
  case drawn =>
    rw [hran.identified.2, htake, List.flatMap_append, List.countP_append, ← h.drawn]
    simp [called, responded, hcalls']
  case seen =>
    rw [hseen', h.seen, List.flatMap_append, List.filterMap_append]
    simp [hcalls']
  case handlers =>
    rw [hrecords', List.length_append, List.length_map, hlength]
    exact hhandlers
  case total =>
    rw [hrecords', List.length_append, List.length_map, hlength]
    exact htotal
  case web =>
    rw [hran.frame.2]
    exact hcount
  case webTotal =>
    rw [hran.frame.2]
    exact hweb
  case once => exact hexecuted.once
  case handled_seen =>
    rw [hseen']
    exact hseen

/-- The transcript of a turn of which no call is recorded. -/
theorem Transcribed.uncalled (h : Transcribed ports initialMessages turns state)
    (hmessages : after.messages = state.messages ++ [message]) :
    Transcribed ports initialMessages (turns ++ [⟨message, telemetry, []⟩]) after := by
  constructor
  · rw [hmessages, h.messages, List.flatMap_append, ← List.append_assoc]
    simp [HarnessTurn.messages]
  · rw [List.flatMap_append, List.flatMap_append, h.ids]
    simp [HarnessTurn.recordIds, HarnessTurn.recordedCalls]

/-- The transcript while no message is added. -/
theorem Transcribed.congr (h : Transcribed ports initialMessages turns state)
    (hmessages : after.messages = state.messages) :
    Transcribed ports initialMessages turns after :=
  ⟨hmessages.trans h.messages, h.ids⟩

end Continues

/-- What a run keeps to, however it ends: at most so many handlers and web handlers, each for
another id; the transcript; every turn but the last is answered in full, and the last one too when
the run returns; at most so many requests. -/
structure Lawful (initialMessages : List JsonObject) (turns : List HarnessTurn)
    (final : HarnessState) (result : Except HarnessFailure String) : Prop where
  executed : Executed harness final
  transcript : Transcribed ports initialMessages turns final
  complete : ∀ turn ∈ turns.dropLast, turn.Complete
  returned : ∀ status, result = .ok status → ∀ turn ∈ turns, turn.Complete
  requests : final.requests ≤ harness.limits.maximumModelTurns

section Lawful

variable {harness ports} {initialMessages : List JsonObject} {turns : List HarnessTurn}
  {state after : HarnessState} {added : List HarnessTurn}

theorem Idle.executed (h : Idle state after) (hexecuted : Executed harness state) :
    Executed harness after := by
  constructor
  · rw [h.handled]
    exact hexecuted.handlers
  · rw [h.handled]
    exact hexecuted.web
  · rw [h.handled]
    exact hexecuted.once

/-- What a turn leaves that ends the run. -/
theorem Continues.ended (h : Continues harness ports initialMessages turns state)
    {result : Except HarnessFailure String}
    (hstepped : TurnStepped harness ports state after added (some result))
    (hrequests : state.requests < harness.limits.maximumModelTurns) :
    Lawful harness ports initialMessages (turns ++ added) after result := by
  have hcomplete : ∀ turn ∈ turns, turn.Complete := fun turn hturn => (h.complete turn hturn).2
  generalize hended : some result = ended at hstepped
  cases hstepped with
  | limited status =>
      rw [List.append_nil]
      have hidle : Idle state { state with readings := state.readings + 1 } :=
        ⟨rfl, rfl, rfl, rfl, rfl, Nat.le_succ _⟩
      exact ⟨hidle.executed h.executed, h.transcript.congr rfl, fun turn hturn =>
        hcomplete turn ((List.dropLast_sublist _).subset hturn), fun _ _ => hcomplete, hrequests.le⟩
  | cut after failure hidle hmessages =>
      rw [List.append_nil]
      cases hended
      exact ⟨hidle.executed h.executed, h.transcript.congr hmessages, fun turn hturn =>
        hcomplete turn ((List.dropLast_sublist _).subset hturn), nofun, hidle.requests.trans hrequests⟩
  | stopped message telemetry status hanswered hcalls =>
      have hidle : Idle state
          { called state telemetry message 0 with webSearches := state.webSearches } :=
        ⟨rfl, rfl, rfl, rfl, rfl, le_refl _⟩
      refine ⟨hidle.executed h.executed, h.transcript.uncalled rfl, ?_, fun _ _ turn hturn => ?_,
        hrequests⟩
      · rw [List.dropLast_concat]
        exact hcomplete
      · rcases List.mem_append.mp hturn with hturn | hturn
        · exact hcomplete turn hturn
        · rw [List.mem_singleton.mp hturn, HarnessTurn.Complete, calls_of_toolCalls hcalls]
          rfl
  | refused message telemetry failure after hidle hmessages =>
      cases hended
      refine ⟨hidle.executed h.executed, h.transcript.uncalled hmessages, ?_, nofun,
        hidle.requests.trans hrequests⟩
      rw [List.dropLast_concat]
      exact hcomplete
  | called message telemetry calls after outcomes ran hanswered hcalls hne htotal hweb hran =>
      cases ran with
      | ok _ => cases hended
      | error failure =>
          cases hended
          refine ⟨(h.executed_after htotal hweb hran).1, h.transcribed hcalls hran, ?_, nofun, ?_⟩
          · rw [List.dropLast_concat]
            exact hcomplete
          · rw [hran.frame.1]
            exact hrequests

/-- What a turn leaves that another one follows. -/
theorem Continues.continued (h : Continues harness ports initialMessages turns state)
    (hstepped : TurnStepped harness ports state after added none) :
    Continues harness ports initialMessages (turns ++ added) after ∧
      after.requests = state.requests + 1 := by
  generalize hended : none = ended at hstepped
  cases hstepped with
  | limited status => cases hended
  | cut after failure hidle hmessages => cases hended
  | stopped message telemetry status hanswered hcalls => cases hended
  | refused message telemetry failure after hidle hmessages => cases hended
  | called message telemetry calls after outcomes ran hanswered hcalls hne htotal hweb hran =>
      cases ran with
      | error failure => cases hended
      | ok _ => exact ⟨h.next hcalls hne htotal hweb hran, hran.frame.1⟩

theorem begin_continues (harness : BoundedToolHarness) (ports : HarnessPorts)
    (initialMessages : List JsonObject) :
    Continues harness ports initialMessages [] (begin initialMessages) := by
  constructor
  case transcript => exact ⟨by simp [begin], rfl⟩
  all_goals simp [begin]

/-- The rest of a run. -/
theorem turns_lawful (modelConfig : JsonObject) (left : ℕ) (turns : List HarnessTurn)
    (state : HarnessState) (h : Continues harness ports initialMessages turns state)
    (hrequests : state.requests + left = harness.limits.maximumModelTurns) :
    Lawful harness ports initialMessages
      (turns ++ (harness.turns ports modelConfig left state).2.1)
      (harness.turns ports modelConfig left state).1
      (harness.turns ports modelConfig left state).2.2 := by
  induction left generalizing turns state with
  | zero =>
      unfold BoundedToolHarness.turns
      rw [List.append_nil]
      exact ⟨h.executed, h.transcript, fun turn hturn =>
        (h.complete turn ((List.dropLast_sublist _).subset hturn)).2, nofun, hrequests.le⟩
  | succ left ih =>
      have hstepped := harness.turn_stepped ports modelConfig state
      unfold BoundedToolHarness.turns
      generalize harness.turn ports modelConfig state = stepped at hstepped
      obtain ⟨after, added, ended⟩ := stepped
      cases ended with
      | some result => exact h.ended hstepped (by omega)
      | none =>
          obtain ⟨hnext, hmore⟩ := h.continued hstepped
          have hrest := ih (turns ++ added) after hnext (by rw [hmore]; omega)
          rw [List.append_assoc] at hrest
          exact hrest

/-- Whatever the model, the handlers and the clock do, a run keeps to its limits, calls no handler
twice for an id, and answers the calls of every message before it asks the model again. -/
theorem run_lawful (harness : BoundedToolHarness) (ports : HarnessPorts)
    (initialMessages : List JsonObject) (modelConfig : JsonObject) :
    Lawful harness ports initialMessages (harness.run ports initialMessages modelConfig).2.1
      (harness.run ports initialMessages modelConfig).1
      (harness.run ports initialMessages modelConfig).2.2 := by
  have hlawful := turns_lawful modelConfig harness.limits.maximumModelTurns []
    (begin initialMessages) (begin_continues harness ports initialMessages)
    (Nat.zero_add _)
  exact hlawful

end Lawful

end BoundedToolHarness

end VTrade
