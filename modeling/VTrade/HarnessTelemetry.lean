/-
# The cost of the tools of a run

A tool that is executed may have called a provider, and what it returns says so.  The telemetry of
a run is that of its model and of its tools in the order of execution; it lacks what a tool has
returned along with an output that the harness does not take.
-/

import VTrade.HarnessReturns
import VTrade.HarnessTurns
import VTrade.StoredRuns

namespace VTrade

/-- The telemetry that a handler returns. -/
def HandlerOutcome.telemetry : HandlerOutcome → List ProviderTelemetry
  | .returned _ telemetry => telemetry
  | .failed _ | .escaped _ _ => []

namespace BoundedToolHarness

variable (harness : BoundedToolHarness) (ports : HarnessPorts)

/-! ## What a run executes -/

/-- A handler that was called, with what it did. -/
structure Execution where
  tool : ToolSpec
  outcome : HandlerOutcome

/-- What is executed of a call, after a number of handlers. -/
def execution? (duplicates : List String) (number : ℕ) (call : JsonObject) : Option Execution :=
  if (providerCallId? call).any (· ∈ duplicates) then none
  else
    match harness.prepareCall ports call with
    | .error _ => none
    | .ok (tool, arguments) => some ⟨tool, ports.handle number tool.name arguments⟩

/-- What is executed of the calls of a message. -/
def executions (duplicates : List String) : ℕ → List JsonObject → List Execution
  | _, [] => []
  | number, call :: rest =>
      match harness.execution? ports duplicates number call with
      | none => executions duplicates number rest
      | some execution => execution :: executions duplicates (number + 1) rest

/-- The telemetry of the model and the executions, turn by turn. -/
def executedTurns : List String → ℕ → List HarnessTurn →
    List (ProviderTelemetry × List Execution)
  | _, _, [] => []
  | seen, number, turn :: rest =>
      let executed := harness.executions ports (duplicateIds seen turn.calls) number turn.calls
      (turn.telemetry, executed) ::
        executedTurns (seen ++ turn.calls.filterMap providerCallId?) (number + executed.length) rest

/-- What a run with these turns has incurred, in the order of execution. -/
def incurred (turns : List HarnessTurn) : List ProviderTelemetry :=
  (harness.executedTurns ports [] 0 turns).flatMap fun turn =>
    turn.1 :: turn.2.flatMap fun execution => execution.outcome.telemetry

/-- The most tokens that a result of a tool may have. -/
def resultCeiling (tool : ToolSpec) : ℕ :=
  if tool.name = "get_portfolio" then harness.limits.maximumGetPortfolioResultTokens
  else harness.limits.maximumDefaultToolResultTokens

/-- The output of a handler has a count of tokens, within the ceiling of its tool. -/
def Fits (execution : Execution) : Prop :=
  ∀ output telemetry, execution.outcome = .returned (.object output) telemetry →
    0 ≤ ports.printedTokens (.object output) ∧
      ports.printedTokens (.object output) ≤ harness.resultCeiling execution.tool

/-- The telemetry that the harness keeps of an execution. -/
def kept (execution : Execution) : List ProviderTelemetry :=
  match harness.checkOutput ports execution.tool execution.outcome with
  | .ok (.ok (_, telemetry)) => telemetry
  | _ => []

/-- The harness does not raise on what an execution did. -/
def Survived (execution : Execution) : Prop :=
  ∃ checked, harness.checkOutput ports execution.tool execution.outcome = .ok checked

section Executions

variable {harness ports} {duplicates : List String} {state after final : HarnessState}
  {call : JsonObject} {calls : List JsonObject} {outcome : CallOutcome}
  {outcomes : List CallOutcome} {execution : Execution} {turns : List HarnessTurn}

theorem kept_length_le : (kept harness ports execution).length ≤
    execution.outcome.telemetry.length := by
  unfold kept
  split
  next output telemetry hcheck =>
    rw [checkOutput_returned hcheck]
    exact le_refl _
  · exact Nat.zero_le _

/-- What the harness makes of the output of a handler that does not end the run. -/
theorem kept_returned {output : JsonObject} {telemetry : List ProviderTelemetry}
    {tool : ToolSpec} (hvalid : tool.outputError output = none) :
    kept harness ports ⟨tool, .returned (.object output) telemetry⟩ =
      if 0 ≤ ports.printedTokens (.object output) ∧
          ports.printedTokens (.object output) ≤ harness.resultCeiling tool then telemetry
      else [] := by
  unfold kept checkOutput
  dsimp only
  rw [hvalid]
  dsimp only
  have hceiling : ((if tool.name = "get_portfolio" then
      harness.limits.maximumGetPortfolioResultTokens
      else harness.limits.maximumDefaultToolResultTokens : ℕ) : ℤ) = harness.resultCeiling tool :=
    rfl
  rw [hceiling]
  by_cases hnegative : ports.printedTokens (.object output) < 0
  · have hunfit : ¬ (0 ≤ ports.printedTokens (.object output) ∧
        ports.printedTokens (.object output) ≤ harness.resultCeiling tool) :=
      fun hfits => absurd hfits.1 (not_le.mpr hnegative)
    rw [if_pos hnegative, if_neg hunfit]
  · rw [if_neg hnegative]
    by_cases hlarge : (harness.resultCeiling tool : ℤ) < ports.printedTokens (.object output)
    · have hunfit : ¬ (0 ≤ ports.printedTokens (.object output) ∧
          ports.printedTokens (.object output) ≤ harness.resultCeiling tool) :=
        fun hfits => absurd hfits.2 (not_le.mpr hlarge)
      rw [if_pos hlarge, if_neg hunfit]
    · rw [if_neg hlarge, if_pos ⟨not_lt.mp hnegative, not_lt.mp hlarge⟩]

/-- Of an execution that does not end the run the telemetry is kept exactly when there is none or
the output fits. -/
theorem kept_eq_iff (hsurvived : Survived harness ports execution) :
    kept harness ports execution = execution.outcome.telemetry ↔
      (execution.outcome.telemetry ≠ [] → Fits harness ports execution) := by
  obtain ⟨tool, outcome⟩ := execution
  obtain ⟨checked, hchecked⟩ := hsurvived
  cases outcome with
  | failed error => exact ⟨fun _ hne => absurd rfl hne, fun _ => rfl⟩
  | escaped className message => cases hchecked
  | returned value telemetry =>
      cases value with
      | object output =>
          cases hvalid : tool.outputError output with
          | some error =>
              unfold checkOutput at hchecked
              dsimp only at hchecked
              rw [hvalid] at hchecked
              cases hchecked
          | none =>
              have hfits : Fits harness ports ⟨tool, .returned (.object output) telemetry⟩ ↔
                  0 ≤ ports.printedTokens (.object output) ∧
                    ports.printedTokens (.object output) ≤ harness.resultCeiling tool := by
                constructor
                · intro hfits
                  exact hfits output telemetry rfl
                · rintro hfits _ _ ⟨⟩
                  exact hfits
              rw [kept_returned hvalid, hfits, HandlerOutcome.telemetry, ite_eq_left_iff]
              constructor
              · intro hlost hne
                by_contra hunfit
                exact hne (hlost hunfit).symm
              · intro hfit hunfit
                by_contra hne
                exact hunfit (hfit (Ne.symm hne))
      | _ => cases hchecked

/-- What is executed of a call that is not a duplicate. -/
theorem executeTool_execution (h : harness.executeTool ports state call = (after, .ok outcome)) :
    ((∃ error, harness.prepareCall ports call = .error error) ∧
        outcome.telemetry = [] ∧ after.handled.length = state.handled.length) ∨
      ∃ tool arguments, harness.prepareCall ports call = .ok (tool, arguments) ∧
        Survived harness ports
          ⟨tool, ports.handle state.handled.length tool.name arguments⟩ ∧
        outcome.telemetry = kept harness ports
          ⟨tool, ports.handle state.handled.length tool.name arguments⟩ ∧
        after.handled.length = state.handled.length + 1 := by
  unfold executeTool at h
  dsimp only at h
  cases hprepare : harness.prepareCall ports call with
  | error error =>
      rw [hprepare] at h
      cases h
      exact .inl ⟨⟨error, rfl⟩, rfl, rfl⟩
  | ok prepared =>
      obtain ⟨tool, arguments⟩ := prepared
      rw [hprepare] at h
      dsimp only at h
      refine .inr ⟨tool, arguments, rfl, ?_⟩
      unfold Survived kept
      dsimp only
      cases hcheck : harness.checkOutput ports tool
          (ports.handle state.handled.length tool.name arguments) with
      | error failure =>
          rw [hcheck] at h
          cases h
      | ok checked =>
          rw [hcheck] at h
          cases checked with
          | error error =>
              cases h
              exact ⟨⟨_, rfl⟩, rfl, by simp⟩
          | ok made =>
              cases h
              exact ⟨⟨_, rfl⟩, rfl, by simp⟩

variable (harness ports) in
/-- What is recorded of a call is what was executed of it: nothing, or one handler. -/
def Accounts (duplicates : List String) (before : HarnessState) (call : JsonObject)
    (after : HarnessState) (outcome : CallOutcome) : Prop :=
  match harness.execution? ports duplicates before.handled.length call with
  | none => outcome.telemetry = [] ∧ after.handled.length = before.handled.length
  | some execution => Survived harness ports execution ∧
      outcome.telemetry = kept harness ports execution ∧
      after.handled.length = before.handled.length + 1

theorem recordCall_accounts
    (h : harness.recordCall ports duplicates state call = (after, .ok outcome)) :
    Accounts harness ports duplicates state call after outcome := by
  unfold Accounts execution?
  by_cases hduplicate : (providerCallId? call).any (· ∈ duplicates) = true
  · rw [if_pos hduplicate]
    unfold recordCall at h
    cases hid : providerCallId? call with
    | none =>
        rw [hid] at hduplicate
        cases hduplicate
    | some id =>
        rw [hid] at h hduplicate
        dsimp only at h
        rw [if_pos (of_decide_eq_true hduplicate)] at h
        cases h
        exact ⟨rfl, rfl⟩
  · have hexecuted : harness.executeTool ports state call = (after, .ok outcome) := by
      unfold recordCall at h
      cases hid : providerCallId? call with
      | none =>
          rw [hid] at h
          exact h
      | some id =>
          rw [hid] at h hduplicate
          dsimp only at h
          rw [if_neg (fun hmem => hduplicate (decide_eq_true hmem))] at h
          exact h
    rw [if_neg hduplicate]
    rcases executeTool_execution hexecuted with ⟨⟨error, hprepare⟩, hsilent⟩ |
      ⟨tool, arguments, hprepare, hran⟩
    · rw [hprepare]
      exact hsilent
    · rw [hprepare]
      exact hran

theorem performCall_accounts
    (h : harness.performCall ports duplicates state call = (after, .ok outcome)) :
    Accounts harness ports duplicates state call after outcome := by
  unfold performCall at h
  dsimp only at h
  cases hclock : harness.checkWallClock ports state with
  | error failure =>
      rw [hclock] at h
      cases h
  | ok _ =>
      rw [hclock] at h
      dsimp only at h
      cases hrecord : harness.recordCall ports duplicates
          { state with readings := state.readings + 1 } call with
      | mk recorded result =>
          rw [hrecord] at h
          cases result with
          | error failure => cases h
          | ok made =>
              cases h
              have haccounts := recordCall_accounts hrecord
              exact haccounts

variable (harness ports) in
/-- The telemetry of some executions is kept as it should be, and none of them ends the run. -/
structure Keeps (executed : List Execution) (telemetry : List ProviderTelemetry) : Prop where
  survived : ∀ execution ∈ executed, Survived harness ports execution
  kept : telemetry = executed.flatMap (kept harness ports)

/-- The calls of a message that are all recorded. -/
theorem callLoop_keeps
    (h : harness.callLoop ports duplicates calls state = (after, outcomes, .ok ())) :
    Keeps harness ports (harness.executions ports duplicates state.handled.length calls)
        (outcomes.flatMap CallOutcome.telemetry) ∧
      after.handled.length = state.handled.length +
        (harness.executions ports duplicates state.handled.length calls).length := by
  induction calls generalizing state outcomes with
  | nil =>
      cases h
      exact ⟨⟨by simp [executions], rfl⟩, rfl⟩
  | cons call rest ih =>
      unfold callLoop at h
      cases hperform : harness.performCall ports duplicates state call with
      | mk middle result =>
          rw [hperform] at h
          cases result with
          | error failure => cases h
          | ok outcome =>
              dsimp only at h
              cases hrest : harness.callLoop ports duplicates rest middle with
              | mk last ran =>
                  obtain ⟨others, ended⟩ := ran
                  rw [hrest] at h
                  cases h
                  obtain ⟨hkeeps, hlength⟩ := ih hrest
                  have haccounts := performCall_accounts hperform
                  unfold Accounts at haccounts
                  unfold executions
                  cases hexecution : harness.execution? ports duplicates state.handled.length call with
                  | none =>
                      rw [hexecution] at haccounts
                      obtain ⟨hsilent, hsame⟩ := haccounts
                      rw [hsame] at hkeeps hlength
                      refine ⟨⟨hkeeps.survived, ?_⟩, hlength⟩
                      rw [List.flatMap_cons, hsilent, List.nil_append, hkeeps.kept]
                  | some execution =>
                      rw [hexecution] at haccounts
                      obtain ⟨hsurvived, htelemetry, hmore⟩ := haccounts
                      rw [hmore] at hkeeps hlength
                      refine ⟨⟨List.forall_mem_cons.mpr ⟨hsurvived, hkeeps.survived⟩, ?_⟩, ?_⟩
                      · rw [List.flatMap_cons, List.flatMap_cons, htelemetry, hkeeps.kept]
                      · rw [hlength, List.length_cons]
                        omega

/-! ## Runs -/

variable (harness ports) in
/-- Every turn keeps what was executed of its calls. -/
def TurnsKeep (seen : List String) (number : ℕ) (turns : List HarnessTurn) : Prop :=
  List.Forall₂ (fun turn (executed : ProviderTelemetry × List Execution) =>
      turn.telemetry = executed.1 ∧
        Keeps harness ports executed.2 (turn.outcomes.flatMap CallOutcome.telemetry))
    turns (harness.executedTurns ports seen number turns)

theorem turnsKeep_cons {seen : List String} {number : ℕ} {message : JsonObject}
    {telemetry : ProviderTelemetry} (hcalls : toolCalls message = .ok calls)
    (hkeeps : Keeps harness ports (harness.executions ports (duplicateIds seen calls) number calls)
      (outcomes.flatMap CallOutcome.telemetry))
    (hrest : TurnsKeep harness ports (seen ++ calls.filterMap providerCallId?)
      (number + (harness.executions ports (duplicateIds seen calls) number calls).length) turns) :
    TurnsKeep harness ports seen number (⟨message, telemetry, outcomes⟩ :: turns) := by
  have hturn : HarnessTurn.calls ⟨message, telemetry, outcomes⟩ = calls := calls_of_toolCalls hcalls
  unfold TurnsKeep executedTurns
  rw [hturn]
  exact .cons ⟨rfl, hkeeps⟩ hrest

/-- A message without calls is the last one of a run that returns. -/
theorem performCalls_eq_some {message : JsonObject} {status : String}
    (h : harness.performCalls ports message state = (after, outcomes, some (.ok status))) :
    toolCalls message = .ok [] ∧ outcomes = [] := by
  unfold performCalls at h
  split at h
  · cases h
  next calls hcalls =>
    split at h
    next hempty =>
      cases h
      rw [List.isEmpty_iff.mp hempty] at hcalls
      exact ⟨hcalls, rfl⟩
    split at h
    · cases h
    split at h
    · cases h
    split at h
    · cases h
    generalize harness.callLoop ports (duplicateIds state.seenToolCallIds calls) calls _ = ran at h
    obtain ⟨last, made, ended⟩ := ran
    cases ended with
    | error failure => cases h
    | ok _ => cases h

/-- The rest of a run that returns. -/
theorem turns_keep (modelConfig : JsonObject) (left : ℕ) {status : String}
    (h : harness.turns ports modelConfig left state = (final, turns, .ok status)) :
    TurnsKeep harness ports state.seenToolCallIds state.handled.length turns := by
  induction left generalizing state turns with
  | zero => cases h
  | succ left ih =>
      have hran := harness.turn_ran ports modelConfig state
      have hstepped := harness.turn_stepped ports modelConfig state
      unfold BoundedToolHarness.turns at h
      generalize harness.turn ports modelConfig state = stepped at h hran hstepped
      obtain ⟨last, added, ended⟩ := stepped
      dsimp only at hran
      cases hran with
      | unanswered last ending =>
          cases h
          exact .nil
      | answered message telemetry ran hperform =>
          obtain ⟨last, outcomes, ended⟩ := ran
          cases ended with
          | some ending =>
              cases h
              obtain ⟨hcalls, rfl⟩ := performCalls_eq_some hperform
              exact turnsKeep_cons hcalls ⟨by simp [executions], rfl⟩ .nil
          | none =>
              dsimp only at h
              generalize hrest : harness.turns ports modelConfig left last = rested at h
              obtain ⟨ends, rest, ending⟩ := rested
              cases h
              obtain ⟨calls, hcalls, hloop⟩ := performCalls_eq_none hperform
              have hrest := ih hrest
              obtain ⟨hkeeps, hlength⟩ := callLoop_keeps hloop
              have hran : LoopRan harness ports (duplicateIds state.seenToolCallIds calls) calls
                  (called state telemetry message (calls.countP isWebCall)) last outcomes (.ok ()) :=
                .of_eq hloop
              have hseen := hran.seen
              rw [List.take_of_length_le (hran.length_outcomes.2 rfl).ge] at hseen
              rw [hseen, hlength] at hrest
              exact turnsKeep_cons hcalls hkeeps hrest

/-- Parts that are no longer than their counterparts make up the same list exactly when each is its
counterpart. -/
theorem flatMap_eq_flatMap_iff {items : List α} {first second : α → List β}
    (h : ∀ item ∈ items, (first item).length ≤ (second item).length) :
    items.flatMap first = items.flatMap second ↔ ∀ item ∈ items, first item = second item := by
  induction items with
  | nil => simp
  | cons item rest ih =>
      obtain ⟨hitem, hrest⟩ := List.forall_mem_cons.mp h
      rw [List.flatMap_cons, List.flatMap_cons, List.forall_mem_cons, ← ih hrest]
      constructor
      · intro hsame
        have hlength := congrArg List.length hsame
        have hshorter : (rest.flatMap first).length ≤ (rest.flatMap second).length := by
          rw [List.length_flatMap, List.length_flatMap]
          exact List.sum_le_sum hrest
        rw [List.length_append, List.length_append] at hlength
        exact List.append_inj hsame (by omega)
      · rintro ⟨hitem, hrest⟩
        rw [hitem, hrest]

/-- The telemetry of the turns is what is kept of their executions. -/
theorem TurnsKeep.telemetry {seen : List String} {number : ℕ}
    (h : TurnsKeep harness ports seen number turns) :
    (turns.flatMap fun turn => turn.telemetry :: turn.outcomes.flatMap CallOutcome.telemetry) =
      (harness.executedTurns ports seen number turns).flatMap fun turn =>
        turn.1 :: turn.2.flatMap (kept harness ports) := by
  unfold TurnsKeep at h
  generalize harness.executedTurns ports seen number turns = executed at h
  induction h with
  | nil => rfl
  | cons hturn _ ih =>
      rw [List.flatMap_cons, List.flatMap_cons, ih, hturn.1, hturn.2.kept]

theorem TurnsKeep.survived {seen : List String} {number : ℕ}
    (h : TurnsKeep harness ports seen number turns) :
    ∀ turn ∈ harness.executedTurns ports seen number turns, ∀ execution ∈ turn.2,
      Survived harness ports execution := by
  unfold TurnsKeep at h
  generalize harness.executedTurns ports seen number turns = executed at h
  induction h with
  | nil => simp
  | cons hturn _ ih => exact List.forall_mem_cons.mpr ⟨hturn.2.survived, ih⟩

/-- A run that returns has the telemetry of everything that it executed exactly when each output
that came with some fits its ceiling. -/
theorem run_telemetry_iff {initialMessages : List JsonObject} {modelConfig : JsonObject}
    {status : String}
    (h : harness.run ports initialMessages modelConfig = (final, turns, .ok status)) :
    final.telemetry = incurred harness ports turns ↔
      ∀ turn ∈ harness.executedTurns ports [] 0 turns, ∀ execution ∈ turn.2,
        execution.outcome.telemetry ≠ [] → Fits harness ports execution := by
  have hkeep : TurnsKeep harness ports [] 0 turns :=
    turns_keep modelConfig harness.limits.maximumModelTurns h
  have htelemetry : final.telemetry =
      (harness.executedTurns ports [] 0 turns).flatMap fun turn =>
        turn.1 :: turn.2.flatMap (kept harness ports) :=
    (run_returned h).telemetry.trans hkeep.telemetry
  have hshorter (executed : List Execution) :
      (executed.flatMap (kept harness ports)).length ≤
        (executed.flatMap fun execution => execution.outcome.telemetry).length := by
    rw [List.length_flatMap, List.length_flatMap]
    exact List.sum_le_sum fun execution _ => kept_length_le
  unfold incurred
  rw [htelemetry]
  refine (flatMap_eq_flatMap_iff ?_).trans (forall₂_congr fun turn hturn => ?_)
  · intro turn _
    exact Nat.succ_le_succ (hshorter turn.2)
  · rw [List.cons.injEq, and_iff_right rfl,
      flatMap_eq_flatMap_iff fun execution _ => kept_length_le]
    exact forall₂_congr fun execution hexecution =>
      kept_eq_iff (hkeep.survived turn hturn execution hexecution)

end Executions

end BoundedToolHarness

namespace Sample

open BoundedToolHarness

def toolTelemetry : ProviderTelemetry := ⟨"exa", "web_search", 0, 0, "s3://search", digest.hex⟩

/-- A model that calls a tool once and stops; the tool has called a provider, and its output is
empty and has this many tokens. -/
def costlyModel (tokens : ℤ) : HarnessPorts :=
  { (balanceModel ["call"]).toHarnessPorts with
    handle := fun _ _ _ => .returned (.object []) [toolTelemetry]
    printedTokens := fun
      | .object [] => tokens
      | _ => 1 }

def costlyRun (tokens : ℤ) : HarnessState × List HarnessTurn × Except HarnessFailure String :=
  balanceHarness.run (costlyModel tokens) [] [("maximum_output_tokens", .int 10)]

theorem costlyRun_returned :
    costlyRun 1 = ((costlyRun 1).1, (costlyRun 1).2.1, .ok "stop") := by
  with_unfolding_all rfl

theorem costlyRun_refused :
    costlyRun 11 = ((costlyRun 11).1, (costlyRun 11).2.1, .ok "stop") := by
  with_unfolding_all rfl

theorem costlyModel_fits (execution : Execution) :
    Fits balanceHarness (costlyModel 1) execution := by
  intro output telemetry _
  have hcount : (costlyModel 1).printedTokens (.object output) = 1 := by
    cases output with
    | nil => rfl
    | cons field fields => rfl
  have hceiling : balanceHarness.resultCeiling execution.tool = 10 := by
    unfold resultCeiling
    split
    · rfl
    · rfl
  rw [hcount, hceiling]
  decide

end Sample

open BoundedToolHarness in
/-- The telemetry of an output that fits is in that of the run. -/
theorem costly_telemetry :
    (Sample.costlyRun 1).1.telemetry =
      incurred Sample.balanceHarness (Sample.costlyModel 1) (Sample.costlyRun 1).2.1 :=
  (run_telemetry_iff Sample.costlyRun_returned).mpr
    fun _ _ execution _ _ => Sample.costlyModel_fits execution

open BoundedToolHarness in
/-- The telemetry of an output that is too long is not. -/
theorem costly_telemetry_lost :
    ¬ ∀ (harness : BoundedToolHarness) (ports : HarnessPorts) (initialMessages : List JsonObject)
        (modelConfig : JsonObject) (final : HarnessState) (turns : List HarnessTurn)
        (status : String),
      harness.run ports initialMessages modelConfig = (final, turns, .ok status) →
      final.telemetry = incurred harness ports turns := by
  intro h
  have hsame := h _ _ _ _ _ _ _ Sample.costlyRun_refused
  have hlength := congrArg List.length hsame
  have hrecorded : (Sample.costlyRun 11).1.telemetry.length = 2 := by with_unfolding_all rfl
  have hincurred : (incurred Sample.balanceHarness (Sample.costlyModel 11)
      (Sample.costlyRun 11).2.1).length = 3 := by with_unfolding_all rfl
  omega

end VTrade
