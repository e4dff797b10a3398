/-
# Calls of any shape

A call that lacks its function, its name or proper arguments is to be recorded as failed and
answered like any other one.  The harness does so once it executes the calls of a message.  Before
that it counts the web calls that the message proposes, by their names, and there a call without a
name ends the run.
-/

import VTrade.HarnessTurns
import VTrade.StoredRuns

namespace VTrade

/-- A failure that does not come of what the model has answered: the clock has run out, or a
handler raised or broke its contract. -/
def HarnessFailure.ofEnvironment : HarnessFailure → Bool
  | .limitExceeded message => message = "cycle wall-clock ceiling exceeded"
  | .toolOutputContract _ | .raised _ _ => true
  | .toolValidation _ | .valueError _ => false

namespace BoundedToolHarness

variable (harness : BoundedToolHarness) (ports : HarnessPorts)

/-! ## One call -/

/-- A call that no handler is called for. -/
def Malformed (call : JsonObject) : Prop := ∃ error, harness.prepareCall ports call = .error error

/-- A call is recorded as a failed one. -/
structure FailedCall (call : JsonObject) (outcome : CallOutcome) : Prop where
  success : outcome.record.success = false
  name : outcome.record.name = safeToolName call
  arguments : outcome.record.arguments = none
  telemetry : outcome.telemetry = []

section Calls

variable {harness ports} {duplicates : List String} {state after : HarnessState}
  {call : JsonObject} {calls : List JsonObject} {outcome : CallOutcome}
  {outcomes : List CallOutcome} {failure : HarnessFailure}

theorem failedCall_failedToolCall (call : JsonObject) (callId : String) (error : ToolError) :
    FailedCall call ⟨harness.failedToolCall call callId error, []⟩ :=
  ⟨rfl, rfl, rfl, rfl⟩

theorem checkOutput_failure {tool : ToolSpec} {handled : HandlerOutcome}
    (h : harness.checkOutput ports tool handled = .error failure) :
    failure.ofEnvironment = true := by
  unfold checkOutput at h
  split at h
  · cases h
  · cases h
    rfl
  next output telemetry =>
    split at h
    · cases h
      rfl
    · dsimp only at h
      split at h
      · cases h
      · by_cases hceiling : ((if tool.name = "get_portfolio" then
            harness.limits.maximumGetPortfolioResultTokens
            else harness.limits.maximumDefaultToolResultTokens : ℕ) : ℤ) <
              ports.printedTokens (.object output)
        · rw [if_pos hceiling] at h
          cases h
        · rw [if_neg hceiling] at h
          cases h
  · cases h
    rfl

theorem executeTool_failure (h : (harness.executeTool ports state call).2 = .error failure) :
    failure.ofEnvironment = true := by
  unfold executeTool at h
  dsimp only at h
  cases hprepare : harness.prepareCall ports call with
  | error error =>
      rw [hprepare] at h
      cases h
  | ok prepared =>
      rw [hprepare] at h
      obtain ⟨tool, arguments⟩ := prepared
      dsimp only at h
      cases hcheck : harness.checkOutput ports tool
          (ports.handle state.handled.length tool.name arguments) with
      | error raised =>
          rw [hcheck] at h
          cases h
          exact checkOutput_failure hcheck
      | ok checked =>
          rw [hcheck] at h
          cases checked with
          | error error => cases h
          | ok made => cases h

theorem executeTool_malformed (hmalformed : harness.Malformed ports call)
    (h : (harness.executeTool ports state call).2 = .ok outcome) : FailedCall call outcome := by
  obtain ⟨error, hprepare⟩ := hmalformed
  unfold executeTool at h
  rw [hprepare] at h
  cases h
  exact failedCall_failedToolCall call _ error

theorem recordCall_failure
    (h : (harness.recordCall ports duplicates state call).2 = .error failure) :
    failure.ofEnvironment = true := by
  unfold recordCall at h
  split at h
  · split at h
    · cases h
    · exact executeTool_failure h
  · exact executeTool_failure h

theorem recordCall_malformed (hmalformed : harness.Malformed ports call)
    (h : (harness.recordCall ports duplicates state call).2 = .ok outcome) :
    FailedCall call outcome := by
  unfold recordCall at h
  split at h
  next id hid =>
    split at h
    · cases h
      exact failedCall_failedToolCall call id duplicateError
    · exact executeTool_malformed hmalformed h
  · exact executeTool_malformed hmalformed h

theorem performCall_failure
    (h : (harness.performCall ports duplicates state call).2 = .error failure) :
    failure.ofEnvironment = true := by
  unfold performCall at h
  dsimp only at h
  cases hclock : harness.checkWallClock ports state with
  | error late =>
      rw [hclock] at h
      cases h
      unfold checkWallClock at hclock
      split at hclock
      · cases hclock
        rfl
      · cases hclock
  | ok _ =>
      rw [hclock] at h
      dsimp only at h
      cases hrecord : harness.recordCall ports duplicates
          { state with readings := state.readings + 1 } call with
      | mk recorded result =>
          rw [hrecord] at h
          cases result with
          | error raised =>
              cases h
              apply recordCall_failure
              rw [hrecord]
          | ok outcome => cases h

theorem performCall_malformed (hmalformed : harness.Malformed ports call)
    (h : (harness.performCall ports duplicates state call).2 = .ok outcome) :
    FailedCall call outcome := by
  unfold performCall at h
  dsimp only at h
  cases hclock : harness.checkWallClock ports state with
  | error late =>
      rw [hclock] at h
      cases h
  | ok _ =>
      rw [hclock] at h
      dsimp only at h
      cases hrecord : harness.recordCall ports duplicates
          { state with readings := state.readings + 1 } call with
      | mk recorded result =>
          rw [hrecord] at h
          cases result with
          | error raised => cases h
          | ok made =>
              cases h
              apply recordCall_malformed hmalformed
              rw [hrecord]

/-- The calls of a message are recorded one after the other, those that are malformed as failed
ones, and only the environment ends the run. -/
theorem callLoop_tolerant (harness : BoundedToolHarness) (ports : HarnessPorts)
    (duplicates : List String) (calls : List JsonObject) (state : HarnessState) :
    List.Forall₂ (fun call outcome => harness.Malformed ports call → FailedCall call outcome)
        (calls.take (harness.callLoop ports duplicates calls state).2.1.length)
        (harness.callLoop ports duplicates calls state).2.1 ∧
      ∀ failure, (harness.callLoop ports duplicates calls state).2.2 = .error failure →
        failure.ofEnvironment = true := by
  induction calls generalizing state with
  | nil => exact ⟨.nil, nofun⟩
  | cons call rest ih =>
      unfold callLoop
      cases hperform : harness.performCall ports duplicates state call with
      | mk after result =>
          cases result with
          | error failure =>
              have henvironment : failure.ofEnvironment = true := by
                apply performCall_failure
                rw [hperform]
              refine ⟨.nil, fun raised hraised => ?_⟩
              cases hraised
              exact henvironment
          | ok outcome =>
              have hfailed (hmalformed : harness.Malformed ports call) :
                  FailedCall call outcome := by
                apply performCall_malformed hmalformed
                rw [hperform]
              obtain ⟨hrest, hends⟩ := ih after
              exact ⟨.cons hfailed hrest, hends⟩

end Calls

/-! ## Runs -/

/-- The calls of a turn are an array of objects, and stay within the ceilings after those of the
turns before. -/
structure Within (before : List HarnessTurn) (turn : HarnessTurn) : Prop where
  calls : toolCalls turn.message = .ok turn.calls
  total : (before.flatMap HarnessTurn.calls).length + turn.calls.length ≤
    harness.limits.maximumTotalToolCalls
  web : (before.flatMap HarnessTurn.calls).countP isWebCall + turn.calls.countP isWebCall ≤
    harness.limits.maximumWebSearches

/-- Every call of a message names its function. -/
def HarnessTurn.Named (turn : HarnessTurn) : Prop :=
  ∀ call ∈ turn.calls, (functionName? call).isSome = true

section Runs

variable {harness ports} {initialMessages : List JsonObject} {modelConfig : JsonObject}
  {turns before after : List HarnessTurn} {turn : HarnessTurn} {state later final : HarnessState}
  {message : JsonObject} {telemetry : ProviderTelemetry} {calls : List JsonObject}
  {outcomes : List CallOutcome} {ended : Option (Except HarnessFailure String)}
  {result : Except HarnessFailure String}

variable (harness ports modelConfig) in
/-- The calls of a turn are recorded, those that are malformed as failed ones, and the run goes on
from the tool messages, unless the environment ends it. -/
structure TolerantTurn (initialMessages : List JsonObject) (before : List HarnessTurn)
    (turn : HarnessTurn) (after : List HarnessTurn) (final : HarnessState)
    (result : Except HarnessFailure String) : Prop where
  recorded : List.Forall₂ (fun call outcome => harness.Malformed ports call → FailedCall call outcome)
    (turn.calls.take turn.outcomes.length) turn.outcomes
  continues : turn.calls ≠ [] →
    (turn.Complete ∧ ∃ state : HarnessState,
      state.messages = initialMessages ++ (before ++ [turn]).flatMap (HarnessTurn.messages ports) ∧
      harness.turns ports modelConfig
        (harness.limits.maximumModelTurns - (before.length + 1)) state = (final, after, result)) ∨
    ∃ failure, result = .error failure ∧ failure.ofEnvironment = true

theorem toolName_isOk_iff {call : JsonObject} :
    (∃ name, toolName call = .ok name) ↔ (functionName? call).isSome = true := by
  unfold toolName
  cases functionName? call with
  | none => simp
  | some name => simp

/-- The web calls of a message can be counted only when every call names its function. -/
theorem proposedWeb_isOk_iff :
    (∃ proposed, proposedWeb calls = .ok proposed) ↔
      ∀ call ∈ calls, (functionName? call).isSome = true := by
  have hnames : (∃ names, calls.mapM toolName = .ok names) ↔
      ∀ call ∈ calls, (functionName? call).isSome = true := by
    rw [Checks.mapM_isOk_iff]
    exact forall₂_congr fun _ _ => toolName_isOk_iff
  rw [← hnames]
  unfold proposedWeb
  cases calls.mapM toolName with
  | error error => simp
  | ok names => simp

/-- Within the ceilings, the calls of a message that all name their functions are performed. -/
theorem performCalls_of_named (hcalls : toolCalls message = .ok calls) (hne : calls ≠ [])
    (htotal : state.records.length + calls.length ≤ harness.limits.maximumTotalToolCalls)
    (hweb : state.webSearches + calls.countP isWebCall ≤ harness.limits.maximumWebSearches)
    (hnamed : ∀ call ∈ calls, (functionName? call).isSome = true) :
    harness.performCalls ports message state =
      endTurn (harness.callLoop ports (duplicateIds state.seenToolCallIds calls) calls
        { state with webSearches := state.webSearches + calls.countP isWebCall }) := by
  obtain ⟨proposed, hproposed⟩ := proposedWeb_isOk_iff.mpr hnamed
  have hcount := proposedWeb_eq_ok hproposed
  subst hcount
  unfold performCalls
  rw [hcalls]
  dsimp only
  rw [if_neg (by simpa using hne), if_neg (not_lt.mpr htotal), hproposed]
  dsimp only
  rw [if_neg (not_lt.mpr hweb)]

/-- One call without a name ends the run before any call of the message is performed. -/
theorem performCalls_of_unnamed (hcalls : toolCalls message = .ok calls)
    (htotal : state.records.length + calls.length ≤ harness.limits.maximumTotalToolCalls)
    (hunnamed : ¬ ∀ call ∈ calls, (functionName? call).isSome = true) :
    ∃ text, harness.performCalls ports message state =
      (state, [], some (.error (.toolValidation text))) := by
  have hne : calls ≠ [] := by
    rintro rfl
    exact hunnamed (by simp)
  rw [← proposedWeb_isOk_iff] at hunnamed
  unfold performCalls
  rw [hcalls]
  dsimp only
  rw [if_neg (by simpa using hne), if_neg (not_lt.mpr htotal)]
  cases hproposed : proposedWeb calls with
  | ok proposed => exact absurd ⟨proposed, hproposed⟩ hunnamed
  | error failure =>
      unfold proposedWeb at hproposed
      split at hproposed
      · cases hproposed
      next error herror =>
        cases hproposed
        exact ⟨error.message, rfl⟩

theorem performCalls_of_silent (hcalls : toolCalls message = .ok []) :
    harness.performCalls ports message state = (state, [], some (.ok "stop")) := by
  unfold performCalls
  rw [hcalls]
  rfl

/-- How a turn ends whose calls were performed. -/
theorem endTurn_eq {ran : HarnessState × List CallOutcome × Except HarnessFailure Unit}
    (h : endTurn ran = (later, outcomes, ended)) :
    ran.1 = later ∧ ran.2.1 = outcomes ∧
      ((ran.2.2 = .ok () ∧ ended = none) ∨
        ∃ failure, ran.2.2 = .error failure ∧ ended = some (.error failure)) := by
  obtain ⟨last, made, result⟩ := ran
  cases result with
  | error failure =>
      cases h
      exact ⟨rfl, rfl, .inr ⟨failure, rfl, rfl⟩⟩
  | ok _ =>
      cases h
      exact ⟨rfl, rfl, .inl ⟨rfl, rfl⟩⟩

/-- What a turn within the ceilings leaves to the run. -/
theorem tolerantTurn_iff (hwithin : Within harness before turn)
    (hrun : harness.run ports initialMessages modelConfig =
      (final, before ++ turn :: after, result)) :
    TolerantTurn harness ports modelConfig initialMessages before turn after final result ↔
      turn.Named := by
  obtain ⟨begun, last, ended, hbegun, hstep, hends, hmore⟩ := run_split hrun
  have htotal : (called begun turn.telemetry turn.message 0).records.length + turn.calls.length ≤
      harness.limits.maximumTotalToolCalls := by
    have hwithin := hwithin.total
    rw [← hbegun.recorded] at hwithin
    exact hwithin
  have hweb : (called begun turn.telemetry turn.message 0).webSearches +
      turn.calls.countP isWebCall ≤ harness.limits.maximumWebSearches := by
    have hwithin := hwithin.web
    rw [← hbegun.webSearches] at hwithin
    exact hwithin
  have hperform := turn_performed hstep
  constructor
  · intro htolerant
    by_contra hunnamed
    obtain ⟨text, hrefused⟩ := performCalls_of_unnamed hwithin.calls htotal hunnamed
    rw [hperform] at hrefused
    have houtcomes : turn.outcomes = [] := congrArg (fun ran => ran.2.1) hrefused
    have hended : ended = some (.error (.toolValidation text)) :=
      congrArg (fun ran => ran.2.2) hrefused
    have hne : turn.calls ≠ [] := by
      intro hempty
      unfold HarnessTurn.Named at hunnamed
      rw [hempty] at hunnamed
      exact hunnamed (by simp)
    rcases htolerant.continues hne with ⟨hcomplete, -⟩ | ⟨failure, hraised, henvironment⟩
    · unfold HarnessTurn.Complete at hcomplete
      rw [houtcomes] at hcomplete
      exact hne (List.length_eq_zero_iff.mp hcomplete.symm)
    · rw [(hends _ hended).2] at hraised
      cases hraised
      exact Bool.noConfusion henvironment
  · intro hnamed
    by_cases hempty : turn.calls = []
    · have houtcomes : turn.outcomes = [] := by
        rw [performCalls_of_silent (hempty ▸ hwithin.calls)] at hperform
        exact (congrArg (fun ran => ran.2.1) hperform).symm
      constructor
      · rw [houtcomes, List.length_nil, List.take_zero]
        exact .nil
      · exact fun hne => absurd hempty hne
    · rw [performCalls_of_named hwithin.calls hempty htotal hweb hnamed] at hperform
      have htolerant := harness.callLoop_tolerant ports
        (duplicateIds begun.seenToolCallIds turn.calls) turn.calls
        (called begun turn.telemetry turn.message (turn.calls.countP isWebCall))
      have hprefix := (harness.callLoop_ran ports (duplicateIds begun.seenToolCallIds turn.calls)
        turn.calls (called begun turn.telemetry turn.message
          (turn.calls.countP isWebCall))).length_outcomes
      obtain ⟨hlast, houtcomes, hended⟩ := endTurn_eq hperform
      constructor
      · rw [← houtcomes]
        exact htolerant.1
      · intro _
        rcases hended with ⟨hdone, hnone⟩ | ⟨failure, hfailed, hsome⟩
        · refine .inl ⟨?_, last, ?_, hmore hnone⟩
          · unfold HarnessTurn.Complete
            rw [← houtcomes]
            exact hprefix.2 hdone
          · subst hnone
            exact (hbegun.next hstep).transcript.messages
        · exact .inr ⟨failure, (hends _ hsome).2, htolerant.2 failure hfailed⟩

variable (harness ports initialMessages modelConfig) in
/-- No shape of a call ends a run: each turn within the ceilings is tolerant of its calls. -/
def ToleratesShapes : Prop :=
  let ran := harness.run ports initialMessages modelConfig
  ∀ before turn after, ran.2.1 = before ++ turn :: after → Within harness before turn →
    TolerantTurn harness ports modelConfig initialMessages before turn after ran.1 ran.2.2

/-- A run tolerates the shapes of its calls exactly when, in the turns within the ceilings, each
call names its function. -/
theorem toleratesShapes_iff (harness : BoundedToolHarness) (ports : HarnessPorts)
    (initialMessages : List JsonObject) (modelConfig : JsonObject) :
    ToleratesShapes harness ports initialMessages modelConfig ↔
      ∀ before turn after,
        (harness.run ports initialMessages modelConfig).2.1 = before ++ turn :: after →
        Within harness before turn → turn.Named := by
  have hrun {before after : List HarnessTurn} {turn : HarnessTurn}
      (hturns : (harness.run ports initialMessages modelConfig).2.1 = before ++ turn :: after) :
      harness.run ports initialMessages modelConfig =
        ((harness.run ports initialMessages modelConfig).1, before ++ turn :: after,
          (harness.run ports initialMessages modelConfig).2.2) := by
    rw [← hturns]
  constructor
  · intro htolerant before turn after hturns hwithin
    exact (tolerantTurn_iff hwithin (hrun hturns)).mp (htolerant before turn after hturns hwithin)
  · intro hnamed before turn after hturns hwithin
    exact (tolerantTurn_iff hwithin (hrun hturns)).mpr (hnamed before turn after hturns hwithin)

end Runs

end BoundedToolHarness

namespace Sample

/-- A message with one call, which has an id and nothing else. -/
def namelessMessage : JsonObject :=
  [("role", .text "assistant"), ("tool_calls", .array [.object [("id", .text "call")]])]

/-- A model that makes the call and stops. -/
def namelessModel : HarnessPorts :=
  { (balanceModel []).toHarnessPorts with
    complete := fun number _ => .ok ⟨[("choices", .array [.object [("message",
      .object (if number = 0 then namelessMessage else finalMessage))]])], modelTelemetry⟩ }

def namelessRun : HarnessState × List BoundedToolHarness.HarnessTurn × Except HarnessFailure String :=
  balanceHarness.run namelessModel [] [("maximum_output_tokens", .int 10)]

/-- The turn of the call. -/
def namelessTurn : BoundedToolHarness.HarnessTurn := ⟨namelessMessage, modelTelemetry, []⟩

theorem namelessRun_turns : namelessRun.2.1 = [namelessTurn] := by
  with_unfolding_all rfl

theorem namelessRun_raised :
    namelessRun.2.2 = .error (.toolValidation "tool call lacks function name") := by
  with_unfolding_all rfl

theorem namelessTurn_within : BoundedToolHarness.Within balanceHarness [] namelessTurn :=
  ⟨rfl, by decide, by decide⟩

end Sample

open BoundedToolHarness in
/-- A call without a name ends a run. -/
theorem nameless_not_tolerated :
    ¬ ∀ (harness : BoundedToolHarness) (ports : HarnessPorts) (initialMessages : List JsonObject)
        (modelConfig : JsonObject), ToleratesShapes harness ports initialMessages modelConfig := by
  intro h
  have hturn := h Sample.balanceHarness Sample.namelessModel [] _ [] Sample.namelessTurn []
    Sample.namelessRun_turns Sample.namelessTurn_within
  have hcalls : Sample.namelessTurn.calls.length = 1 := rfl
  have hne : Sample.namelessTurn.calls ≠ [] := List.ne_nil_of_length_eq_add_one hcalls
  rcases hturn.continues hne with ⟨hcomplete, -⟩ | ⟨failure, hraised, henvironment⟩
  · have hunanswered : (0 : ℕ) = Sample.namelessTurn.calls.length := hcomplete
    omega
  · have hsame := hraised.symm.trans Sample.namelessRun_raised
    cases hsame
    exact Bool.noConfusion henvironment

end VTrade
