/-
# The bounded tool harness

A run asks the model for a message, executes the tool calls of the message, answers each with a
tool message, and asks again, within limits on turns, calls, web calls, tokens and time.  A call
that is refused or fails is recorded and answered like one that succeeds.  What the gateway and
the handlers answer, and what the clock reads, is the part of the environment.
-/

import VTrade.Cycles
import VTrade.Lib.Checks
import VTrade.Lib.Json
import VTrade.Lib.KeyedList
import Mathlib.Data.Rat.Defs
import Mathlib.Order.Basic

namespace VTrade

/-- What a run of the harness raises. -/
inductive HarnessFailure
  /-- `HarnessLimitExceeded`. -/
  | limitExceeded (message : String)
  | toolValidation (message : String)
  | toolOutputContract (message : String)
  | valueError (message : String)
  /-- An exception of the gateway or of a handler that the harness does not catch. -/
  | raised (className message : String)
  deriving DecidableEq

/-- An exception that a call is answered with. -/
structure ToolError where
  /-- `type(error).__name__`. -/
  className : String
  message : String
  deriving DecidableEq

def toolValidationError (message : String) : ToolError := ⟨"ToolValidationError", message⟩

structure ProviderTelemetry where
  provider : String
  usageKind : String
  promptTokens : ℤ
  completionTokens : ℤ
  artifactUri : String
  rawSha256 : String
  deriving DecidableEq

structure ModelResponse where
  response : JsonObject
  telemetry : ProviderTelemetry

structure HarnessLimits where
  maximumModelTurns : ℕ
  maximumTotalToolCalls : ℕ
  maximumWebSearches : ℕ
  maximumWallClockSeconds : ℚ
  maximumContextTokens : ℕ
  maximumAssembledInputTokens : ℕ
  maximumModelOutputTokens : ℕ
  maximumToolCallArgumentsTokens : ℕ
  maximumDefaultToolResultTokens : ℕ
  maximumGetPortfolioResultTokens : ℕ
  positive : 0 < maximumModelTurns ∧ 0 < maximumTotalToolCalls ∧ 0 < maximumWebSearches ∧
    0 < maximumContextTokens ∧ 0 < maximumAssembledInputTokens ∧ 0 < maximumModelOutputTokens ∧
    0 < maximumToolCallArgumentsTokens ∧ 0 < maximumDefaultToolResultTokens ∧
    0 < maximumGetPortfolioResultTokens
  wallClock_pos : 0 < maximumWallClockSeconds
  observed_traces : 92 ≤ maximumTotalToolCalls
  context : maximumAssembledInputTokens + maximumModelOutputTokens ≤ maximumContextTokens
  portfolio : maximumDefaultToolResultTokens ≤ maximumGetPortfolioResultTokens

/-- A tool, with what its validators say first of its arguments and of its output. -/
structure ToolSpec where
  name : String
  schema : JsonObject
  category : String
  inputError : JsonObject → Option String
  outputError : JsonObject → Option String

structure ToolCallRecord where
  id : String
  name : String
  arguments : Option JsonObject
  success : Bool
  output : JsonObject
  category : String

/-- What a handler does with the arguments of a call. -/
inductive HandlerOutcome
  | returned (output : Json) (telemetry : List ProviderTelemetry)
  /-- `ToolHandlerError`, or a `ValueError`. -/
  | failed (error : ToolError)
  | escaped (className message : String)

/-- The environment of a run. -/
structure HarnessPorts where
  /-- `complete` of the gateway, by the number of the request. -/
  complete : ℕ → List JsonObject → Except HarnessFailure ModelResponse
  /-- The handler of a tool, by the number of handlers called before. -/
  handle : ℕ → String → JsonObject → HandlerOutcome
  /-- The readings of the clock. -/
  monotonic : ℕ → ℚ
  /-- `uuid4`. -/
  ids : RandomIds
  tokenCounter : String → ℤ
  /-- The tokens of a value as `json.dumps` prints it. -/
  printedTokens : Json → ℤ
  /-- `json.dumps` with sorted keys. -/
  dumps : JsonObject → String
  /-- `json.loads`, or what `JSONDecodeError` says. -/
  loads : String → Except String Json

structure BoundedToolHarness where
  tools : List ToolSpec
  limits : HarnessLimits
  names_unique : (tools.map ToolSpec.name).Nodup

/-- The tools that count as web research. -/
def exaResearchToolNames : List String := ["web_search", "fetch_webpage"]

/-! ## Reading a response -/

/-- `_assistant_message`. -/
def assistantMessage (response : JsonObject) : Except HarnessFailure JsonObject :=
  match Json.get response "choices" with
  | some (.array [choice]) =>
      match choice with
      | .object fields =>
          match Json.get fields "message" with
          | some (.object message) => .ok message
          | _ => .error (.toolValidation "model response lacks assistant message")
      | _ => .error (.toolValidation "model response lacks assistant message")
  | _ => .error (.toolValidation "model response requires one choice")

/-- The value as an object. -/
def objectOf : Json → Option JsonObject
  | .object fields => some fields
  | _ => none

/-- `_tool_calls`. -/
def toolCalls (message : JsonObject) : Except HarnessFailure (List JsonObject) :=
  match Json.get message "tool_calls" with
  | none | some .null => .ok []
  | some (.array values) =>
      match values.mapM objectOf with
      | some calls => .ok calls
      | none => .error (.toolValidation "assistant tool_calls must be an object array")
  | _ => .error (.toolValidation "assistant tool_calls must be an object array")

/-- The name in a call. -/
def functionName? (call : JsonObject) : Option String :=
  match Json.get call "function" with
  | some (.object function) =>
      match Json.get function "name" with
      | some (.text name) => some name
      | _ => none
  | _ => none

/-- `_tool_name`. -/
def toolName (call : JsonObject) : Except ToolError String :=
  match functionName? call with
  | some name => .ok name
  | none => .error (toolValidationError "tool call lacks function name")

/-- `_safe_tool_name`. -/
def safeToolName (call : JsonObject) : String := (functionName? call).getD "invalid"

/-- The id of a call, if it is a text that is not empty. -/
def providerCallId? (call : JsonObject) : Option String :=
  match Json.get call "id" with
  | some (.text id) => if id = "" then none else some id
  | _ => none

/-- The number of web calls that a message proposes. -/
def proposedWeb (calls : List JsonObject) : Except HarnessFailure ℕ :=
  match calls.mapM toolName with
  | .ok names => .ok (names.countP (· ∈ exaResearchToolNames))
  | .error error => .error (.toolValidation error.message)

/-- `duplicate_ids`: the ids that a message repeats, or that an earlier call had. -/
def duplicateIds (seen : List String) (calls : List JsonObject) : List String :=
  let ids := calls.filterMap providerCallId?
  ids.filter fun id => 1 < ids.count id ∨ id ∈ seen

/-! ## A run -/

/-- A handler that was called, by the id and the name it was called for. -/
structure HandledCall where
  id : String
  name : String
  deriving DecidableEq

structure HarnessState where
  messages : List JsonObject
  records : List ToolCallRecord
  telemetry : List ProviderTelemetry
  webSearches : ℕ
  completionTokens : ℤ
  seenToolCallIds : List String
  previousPromptTokens : Option ℤ
  previousRequestMessageCount : ℕ
  /-- How many requests have been sent. -/
  requests : ℕ
  /-- How often the clock has been read. -/
  readings : ℕ
  /-- How many identifiers have been drawn. -/
  drawn : ℕ
  /-- The handlers that have been called. -/
  handled : List HandledCall

namespace BoundedToolHarness

variable (harness : BoundedToolHarness) (ports : HarnessPorts)

/-- The tool of a name. -/
def tool? (name : String) : Option ToolSpec :=
  KeyedList.lookup ToolSpec.name name harness.tools

/-- `_check_wall_clock`. -/
def checkWallClock (state : HarnessState) : Except HarnessFailure Unit :=
  if harness.limits.maximumWallClockSeconds < ports.monotonic state.readings - ports.monotonic 0 then
    .error (.limitExceeded "cycle wall-clock ceiling exceeded")
  else .ok ()

/-- `_count_tokens`. -/
def countTokens (value : Json) : Except HarnessFailure ℤ :=
  if ports.printedTokens value < 0 then
    .error (.valueError "token counter cannot return a negative value")
  else .ok (ports.printedTokens value)

/-- The tokens that the next request is estimated to have. -/
def assembledTokens (state : HarnessState) : Except HarnessFailure ℤ :=
  match state.previousPromptTokens with
  | none => countTokens ports (.object [("messages", .array (state.messages.map .object)),
      ("tools", .array (harness.tools.map fun tool => .object tool.schema))])
  | some previous => (countTokens ports (.object [("messages",
      .array ((state.messages.drop state.previousRequestMessageCount).map .object))])).map
        (previous + ·)

/-- Whether the next request is sent; otherwise the run stops at its input limit. -/
def prepareRequest (modelConfig : JsonObject) (state : HarnessState) :
    Except HarnessFailure Bool := do
  let assembled ← harness.assembledTokens ports state
  if (harness.limits.maximumAssembledInputTokens : ℤ) < assembled then
    if state.telemetry.isEmpty then
      .error (.limitExceeded "assembled input token ceiling reached before model request")
    else .ok false
  else if (harness.limits.maximumContextTokens : ℤ) <
      assembled + harness.limits.maximumModelOutputTokens then
    if state.telemetry.isEmpty then
      .error (.limitExceeded "reserved model output would exceed context")
    else .ok false
  else
    match Json.get modelConfig "maximum_output_tokens" with
    | some (.int configured) =>
        if 0 < configured ∧ configured ≤ harness.limits.maximumModelOutputTokens then .ok true
        else .error (.limitExceeded "configured model output exceeds reserved output")
    | _ => .error (.limitExceeded "model output ceiling must be configured")

/-- `_tool_arguments`. -/
def toolArguments (call : JsonObject) : Except ToolError JsonObject :=
  match Json.get call "function" with
  | some (.object function) =>
      match Json.get function "arguments" with
      | some (.text raw) =>
          if (harness.limits.maximumToolCallArgumentsTokens : ℤ) < ports.tokenCounter raw then
            .error (toolValidationError "tool-call arguments exceed their token ceiling")
          else
            match ports.loads raw with
            | .ok (.object arguments) => .ok arguments
            | .ok _ => .error (toolValidationError "tool arguments must decode to an object")
            | .error message => .error ⟨"JSONDecodeError", message⟩
      | _ => .error (toolValidationError "tool arguments must be a JSON string")
  | _ => .error (toolValidationError "tool call lacks function object")

/-- What `_execute_tool` checks before it calls the handler of a tool with its arguments. -/
def prepareCall (call : JsonObject) : Except ToolError (ToolSpec × JsonObject) :=
  match providerCallId? call with
  | none => .error (toolValidationError "tool call requires a non-empty provider call ID")
  | some _ => do
      let name ← toolName call
      match harness.tool? name with
      | none => .error (toolValidationError "tool is not authorized")
      | some tool =>
          let arguments ← harness.toolArguments ports call
          match tool.inputError arguments with
          | some error =>
              .error (toolValidationError ("invalid arguments for " ++ name ++ ": " ++ error))
          | none => .ok (tool, arguments)

/-- `_failed_tool_call`. -/
def failedToolCall (call : JsonObject) (callId : String) (error : ToolError) : ToolCallRecord where
  id := callId
  name := safeToolName call
  arguments := none
  success := false
  output := [("error", .text error.className), ("message", .text error.message)]
  category := ((harness.tool? (safeToolName call)).map ToolSpec.category).getD "invalid"

/-- What the output of a handler is recorded as: an output, an error, or nothing when an exception
escapes. -/
def checkOutput (tool : ToolSpec) :
    HandlerOutcome → Except HarnessFailure (Except ToolError (JsonObject × List ProviderTelemetry))
  | .failed error => .ok (.error error)
  | .escaped className message => .error (.raised className message)
  | .returned (.object output) telemetry =>
      match tool.outputError output with
      | some error =>
          .error (.toolOutputContract (tool.name ++ " returned invalid output: " ++ error))
      | none =>
          let tokens := ports.printedTokens (.object output)
          let ceiling := if tool.name = "get_portfolio" then
            harness.limits.maximumGetPortfolioResultTokens
            else harness.limits.maximumDefaultToolResultTokens
          if tokens < 0 then
            .ok (.error ⟨"ValueError", "token counter cannot return a negative value"⟩)
          else if (ceiling : ℤ) < tokens then
            .ok (.error (toolValidationError (if tool.name = "get_portfolio" then
              "get_portfolio result exceeds 24K-token ceiling and must paginate"
              else "tool result exceeds its token ceiling")))
          else .ok (.ok (output, telemetry))
  | .returned _ _ => .error (.toolOutputContract (tool.name ++ " returned a non-object output"))

/-- The record of a call with the telemetry of its tool. -/
structure CallOutcome where
  record : ToolCallRecord
  telemetry : List ProviderTelemetry

/-- `_execute_tool`. -/
def executeTool (state : HarnessState) (call : JsonObject) :
    HarnessState × Except HarnessFailure CallOutcome :=
  let callId := (providerCallId? call).getD (ports.ids.hex state.drawn)
  let drawn := if (providerCallId? call).isSome then state.drawn else state.drawn + 1
  match harness.prepareCall ports call with
  | .error error =>
      ({ state with drawn := drawn }, .ok ⟨harness.failedToolCall call callId error, []⟩)
  | .ok (tool, arguments) =>
      let called := { state with
        drawn := drawn
        handled := state.handled ++ [⟨callId, tool.name⟩] }
      match harness.checkOutput ports tool
        (ports.handle state.handled.length tool.name arguments) with
      | .error failure => (called, .error failure)
      | .ok (.error error) => (called, .ok ⟨harness.failedToolCall call callId error, []⟩)
      | .ok (.ok (output, telemetry)) =>
          (called, .ok
            ⟨⟨callId, tool.name, some arguments, true, output, tool.category⟩, telemetry⟩)

/-- What a duplicate id is answered with. -/
def duplicateError : ToolError :=
  toolValidationError "duplicate tool-call ID; call was not executed"

/-- The tool message of a record. -/
def toolMessage (record : ToolCallRecord) : JsonObject :=
  [("role", .text "tool"), ("tool_call_id", .text record.id), ("name", .text record.name),
    ("content", .text (ports.dumps record.output))]

/-- The state once a call is recorded and answered. -/
def answered (state : HarnessState) (call : JsonObject) (outcome : CallOutcome) : HarnessState :=
  { state with
    seenToolCallIds := (providerCallId? call).elim state.seenToolCallIds
      fun id => state.seenToolCallIds ++ [id]
    records := state.records ++ [outcome.record]
    telemetry := state.telemetry ++ outcome.telemetry
    messages := state.messages ++ [toolMessage ports outcome.record] }

/-- What is recorded of a call: a call with a duplicate id is not executed. -/
def recordCall (duplicates : List String) (state : HarnessState) (call : JsonObject) :
    HarnessState × Except HarnessFailure CallOutcome :=
  match providerCallId? call with
  | some id =>
      if id ∈ duplicates then (state, .ok ⟨harness.failedToolCall call id duplicateError, []⟩)
      else harness.executeTool ports state call
  | none => harness.executeTool ports state call

/-- One call of a message. -/
def performCall (duplicates : List String) (state : HarnessState) (call : JsonObject) :
    HarnessState × Except HarnessFailure CallOutcome :=
  let timed := { state with readings := state.readings + 1 }
  match harness.checkWallClock ports state with
  | .error failure => (timed, .error failure)
  | .ok () =>
      match harness.recordCall ports duplicates timed call with
      | (recorded, .error failure) => (recorded, .error failure)
      | (recorded, .ok outcome) => (answered ports recorded call outcome, .ok outcome)

/-- The calls of a message, with what was recorded of them. -/
def callLoop (duplicates : List String) :
    List JsonObject → HarnessState → HarnessState × List CallOutcome × Except HarnessFailure Unit
  | [], state => (state, [], .ok ())
  | call :: rest, state =>
      match harness.performCall ports duplicates state call with
      | (after, .error failure) => (after, [], .error failure)
      | (after, .ok outcome) =>
          let (final, outcomes, result) := callLoop duplicates rest after
          (final, outcome :: outcomes, result)

/-- What a turn has added to the transcript: the message of the model, and what was recorded of
its calls. -/
structure HarnessTurn where
  message : JsonObject
  telemetry : ProviderTelemetry
  outcomes : List CallOutcome

/-- The calls of the message of a turn. -/
def HarnessTurn.calls (turn : HarnessTurn) : List JsonObject :=
  (toolCalls turn.message).toOption.getD []

/-- A turn goes on to the next one unless a call has raised. -/
def endTurn : HarnessState × List CallOutcome × Except HarnessFailure Unit →
    HarnessState × List CallOutcome × Option (Except HarnessFailure String)
  | (after, outcomes, .error failure) => (after, outcomes, some (.error failure))
  | (after, outcomes, .ok ()) => (after, outcomes, none)

/-- The calls of a message, as far as the limits let them. -/
def performCalls (message : JsonObject) (state : HarnessState) :
    HarnessState × List CallOutcome × Option (Except HarnessFailure String) :=
  match toolCalls message with
  | .error failure => (state, [], some (.error failure))
  | .ok calls =>
      if calls.isEmpty then (state, [], some (.ok "stop"))
      else if harness.limits.maximumTotalToolCalls < state.records.length + calls.length then
        (state, [], some (.error (.limitExceeded "total tool-call ceiling would be exceeded")))
      else
        match proposedWeb calls with
        | .error failure => (state, [], some (.error failure))
        | .ok proposed =>
            if harness.limits.maximumWebSearches < state.webSearches + proposed then
              (state, [],
                some (.error (.limitExceeded "strict Exa research ceiling would be exceeded")))
            else
              endTurn (harness.callLoop ports (duplicateIds state.seenToolCallIds calls) calls
                { state with webSearches := state.webSearches + proposed })

/-- The state once a request is answered. -/
def responded (state : HarnessState) (telemetry : ProviderTelemetry) : HarnessState :=
  { state with
    telemetry := state.telemetry ++ [telemetry]
    previousPromptTokens := if 0 < telemetry.promptTokens then some telemetry.promptTokens else none
    previousRequestMessageCount := state.messages.length
    completionTokens := state.completionTokens + telemetry.completionTokens }

/-- A request to the model, and the calls of its message. -/
def requestTurn (state : HarnessState) :
    HarnessState × List HarnessTurn × Option (Except HarnessFailure String) :=
  let asked := { state with requests := state.requests + 1 }
  match ports.complete state.requests state.messages with
  | .error failure => (asked, [], some (.error failure))
  | .ok response =>
      let answered := responded asked response.telemetry
      if (harness.limits.maximumModelOutputTokens : ℤ) < response.telemetry.completionTokens then
        (answered, [],
          some (.error (.limitExceeded "model response exceeded reserved output")))
      else
        match assistantMessage response.response with
        | .error failure => (answered, [], some (.error failure))
        | .ok message =>
            let (after, outcomes, result) := harness.performCalls ports message
              { answered with messages := state.messages ++ [message] }
            (after, [⟨message, response.telemetry, outcomes⟩], result)

/-- One turn: the turns it adds to the transcript (none when it ends before the model answers), and
how the run ends if it ends with it. -/
def turn (modelConfig : JsonObject) (state : HarnessState) :
    HarnessState × List HarnessTurn × Option (Except HarnessFailure String) :=
  let timed := { state with readings := state.readings + 1 }
  match harness.checkWallClock ports state with
  | .error failure => (timed, [], some (.error failure))
  | .ok () =>
      match harness.prepareRequest ports modelConfig timed with
      | .error failure => (timed, [], some (.error failure))
      | .ok false => (timed, [], some (.ok "assembled_input_limit"))
      | .ok true => harness.requestTurn ports timed

/-- The turns of a run, and how it ends. -/
def turns (modelConfig : JsonObject) :
    ℕ → HarnessState → HarnessState × List HarnessTurn × Except HarnessFailure String
  | 0, state => (state, [], .error (.limitExceeded "model-turn ceiling reached"))
  | left + 1, state =>
      match harness.turn ports modelConfig state with
      | (after, added, some result) => (after, added, result)
      | (after, added, none) =>
          let (final, rest, result) := turns modelConfig left after
          (final, added ++ rest, result)

/-- The state a run begins in; the clock has been read once. -/
def begin (initialMessages : List JsonObject) : HarnessState where
  messages := initialMessages
  records := []
  telemetry := []
  webSearches := 0
  completionTokens := 0
  seenToolCallIds := []
  previousPromptTokens := none
  previousRequestMessageCount := 0
  requests := 0
  readings := 1
  drawn := 0
  handled := []

/-- `run`: where it ends, its turns, and its termination status unless it raises. -/
def run (initialMessages : List JsonObject) (modelConfig : JsonObject) :
    HarnessState × List HarnessTurn × Except HarnessFailure String :=
  harness.turns ports modelConfig harness.limits.maximumModelTurns (begin initialMessages)

end BoundedToolHarness

end VTrade
