/-
# The turns of a run, one by one

A run is a list of turns, and each of them was begun in a state of its own.  This module goes from
a turn of a run back to that state: what the turns before it have recorded, which web calls they
have proposed and which ids they have used is what their messages say.
-/

import VTrade.HarnessRuns

namespace VTrade

namespace BoundedToolHarness

variable (harness : BoundedToolHarness) (ports : HarnessPorts)

/-! ## One turn -/

/-- A turn ends before the model has given a message, or performs the calls of one. -/
inductive TurnRan (state : HarnessState) :
    HarnessState → List HarnessTurn → Option (Except HarnessFailure String) → Prop
  | unanswered (after : HarnessState) (result : Except HarnessFailure String) :
      TurnRan state after [] (some result)
  | answered (message : JsonObject) (telemetry : ProviderTelemetry)
      (ran : HarnessState × List CallOutcome × Option (Except HarnessFailure String))
      (h : harness.performCalls ports message (called state telemetry message 0) = ran) :
      TurnRan state ran.1 [⟨message, telemetry, ran.2.1⟩] ran.2.2

theorem requestTurn_ran (state : HarnessState) :
    TurnRan harness ports state
      (harness.requestTurn ports { state with readings := state.readings + 1 }).1
      (harness.requestTurn ports { state with readings := state.readings + 1 }).2.1
      (harness.requestTurn ports { state with readings := state.readings + 1 }).2.2 := by
  unfold requestTurn
  dsimp only
  cases ports.complete state.requests state.messages with
  | error failure => exact .unanswered _ _
  | ok response =>
      dsimp only
      split
      · exact .unanswered _ _
      · cases assistantMessage response.response with
        | error failure => exact .unanswered _ _
        | ok message => exact .answered message response.telemetry _ rfl

theorem turn_ran (modelConfig : JsonObject) (state : HarnessState) :
    TurnRan harness ports state (harness.turn ports modelConfig state).1
      (harness.turn ports modelConfig state).2.1 (harness.turn ports modelConfig state).2.2 := by
  unfold turn
  dsimp only
  cases harness.checkWallClock ports state with
  | error failure => exact .unanswered _ _
  | ok _ =>
      dsimp only
      cases harness.prepareRequest ports modelConfig { state with readings := state.readings + 1 }
        with
      | error failure => exact .unanswered _ _
      | ok sent =>
          cases sent with
          | false => exact .unanswered _ _
          | true => exact harness.requestTurn_ran ports state

section Turns

variable {harness ports} {initialMessages : List JsonObject} {modelConfig : JsonObject}
  {turns before after : List HarnessTurn} {turn : HarnessTurn} {state later final : HarnessState}
  {message : JsonObject} {calls : List JsonObject} {outcomes : List CallOutcome}
  {result : Except HarnessFailure String}

/-- A turn that the model has given a message for performs the calls of the message. -/
theorem turn_performed {ended : Option (Except HarnessFailure String)}
    (hstep : harness.turn ports modelConfig state = (later, [turn], ended)) :
    harness.performCalls ports turn.message (called state turn.telemetry turn.message 0) =
      (later, turn.outcomes, ended) := by
  have hran := harness.turn_ran ports modelConfig state
  rw [hstep] at hran
  generalize hadded : [turn] = added at hran
  cases hran with
  | unanswered last ending => cases hadded
  | answered message telemetry ran hperform =>
      rw [(List.cons.inj hadded).1]
      exact hperform

theorem LoopRan.of_eq {duplicates : List String} {ended : Except HarnessFailure Unit}
    (h : harness.callLoop ports duplicates calls state = (later, outcomes, ended)) :
    LoopRan harness ports duplicates calls state later outcomes ended := by
  have hran := harness.callLoop_ran ports duplicates calls state
  rw [h] at hran
  exact hran

/-- The calls of a turn that is followed by another one have all been performed. -/
theorem performCalls_eq_none
    (h : harness.performCalls ports message state = (later, outcomes, none)) :
    ∃ calls, toolCalls message = .ok calls ∧
      harness.callLoop ports (duplicateIds state.seenToolCallIds calls) calls
        { state with webSearches := state.webSearches + calls.countP isWebCall } =
          (later, outcomes, .ok ()) := by
  unfold performCalls at h
  split at h
  · cases h
  next calls hcalls =>
    split at h
    · cases h
    split at h
    · cases h
    split at h
    · cases h
    next proposed hproposed =>
      split at h
      · cases h
      have hcount := proposedWeb_eq_ok hproposed
      subst hcount
      refine ⟨calls, hcalls, ?_⟩
      generalize harness.callLoop ports (duplicateIds state.seenToolCallIds calls) calls
        { state with webSearches := state.webSearches + calls.countP isWebCall } = ran at h
      obtain ⟨last, made, ended⟩ := ran
      cases ended with
      | error failure => cases h
      | ok _ =>
          cases h
          rfl

/-! ## Where a turn begins -/

variable (harness ports initialMessages) in
/-- A state in which a turn is begun after others. -/
structure Begun (turns : List HarnessTurn) (state : HarnessState) : Prop
    extends Continues harness ports initialMessages turns state where
  webSearches : state.webSearches = (turns.flatMap HarnessTurn.calls).countP isWebCall

theorem Begun.start : Begun harness ports initialMessages [] (begin initialMessages) :=
  ⟨begin_continues harness ports initialMessages, rfl⟩

/-- The calls that have been recorded are those of the turns. -/
theorem Begun.recorded (h : Begun harness ports initialMessages turns state) :
    state.records.length = (turns.flatMap HarnessTurn.calls).length := by
  have hcomplete : ∀ turn ∈ turns, turn.outcomes.length = turn.calls.length :=
    fun turn hturn => (h.complete turn hturn).2
  rw [h.records]
  clear h
  induction turns with
  | nil => rfl
  | cons turn rest ih =>
      obtain ⟨hturn, hrest⟩ := List.forall_mem_cons.mp hcomplete
      rw [List.flatMap_cons, List.flatMap_cons, List.length_append, List.length_append, ih hrest,
        List.length_map, hturn]

/-- The state after a turn that another one follows. -/
theorem Begun.next {added : List HarnessTurn}
    (h : Begun harness ports initialMessages turns state)
    (hstep : harness.turn ports modelConfig state = (later, added, none)) :
    Begun harness ports initialMessages (turns ++ added) later := by
  have hstepped := harness.turn_stepped ports modelConfig state
  have hran := harness.turn_ran ports modelConfig state
  rw [hstep] at hstepped hran
  constructor
  · exact (h.toContinues.continued hstepped).1
  · generalize hended : (none : Option (Except HarnessFailure String)) = ended at hran
    cases hran with
    | unanswered last ending => cases hended
    | answered message telemetry ran hperform =>
        obtain ⟨last, outcomes, ending⟩ := ran
        cases hended
        obtain ⟨calls, hcalls, hloop⟩ := performCalls_eq_none hperform
        have hlast : last.webSearches = state.webSearches + calls.countP isWebCall :=
          (LoopRan.of_eq hloop).frame.2
        rw [List.flatMap_append, List.countP_append, ← h.webSearches, hlast]
        simp [calls_of_toolCalls hcalls]

/-- A turn of the rest of a run was begun after those before it.  What ends it without another one
ends the run, and otherwise the run goes on. -/
theorem turns_split (h : Begun harness ports initialMessages turns state) (left : ℕ)
    (hrun : harness.turns ports modelConfig left state = (final, before ++ turn :: after, result)) :
    ∃ begun last ended, Begun harness ports initialMessages (turns ++ before) begun ∧
      harness.turn ports modelConfig begun = (last, [turn], ended) ∧
      (∀ ending, ended = some ending → after = [] ∧ result = ending) ∧
      (ended = none → harness.turns ports modelConfig (left - (before.length + 1)) last =
        (final, after, result)) := by
  induction left generalizing turns state before with
  | zero =>
      have hturns := congrArg (fun ran => ran.2.1) hrun
      simp [BoundedToolHarness.turns] at hturns
  | succ left ih =>
      have hran := harness.turn_ran ports modelConfig state
      unfold BoundedToolHarness.turns at hrun
      generalize hstep : harness.turn ports modelConfig state = stepped at hrun hran
      obtain ⟨last, added, ended⟩ := stepped
      dsimp only at hran
      cases hran with
      | unanswered last ending =>
          have hturns : ([] : List HarnessTurn) = before ++ turn :: after :=
            congrArg (fun ran => ran.2.1) hrun
          simp at hturns
      | answered message telemetry ran hperform =>
          obtain ⟨last, outcomes, ended⟩ := ran
          cases ended with
          | some ending =>
              have hturns : [⟨message, telemetry, outcomes⟩] = before ++ turn :: after :=
                congrArg (fun ran => ran.2.1) hrun
              have hresult : ending = result := congrArg (fun ran => ran.2.2) hrun
              obtain ⟨rfl, hsingle⟩ : before = [] ∧ [⟨message, telemetry, outcomes⟩] = turn :: after := by
                cases before with
                | nil => exact ⟨rfl, hturns⟩
                | cons first rest => simp at hturns
              obtain ⟨rfl, rfl⟩ := List.cons.inj hsingle
              refine ⟨state, last, some ending, by simpa using h, hstep, ?_, nofun⟩
              intro other hother
              exact ⟨rfl, hresult.symm.trans (Option.some.inj hother)⟩
          | none =>
              dsimp only at hrun
              generalize hrest : harness.turns ports modelConfig left last = rested at hrun
              obtain ⟨ends, rest, ending⟩ := rested
              have hturns : ⟨message, telemetry, outcomes⟩ :: rest = before ++ turn :: after :=
                congrArg (fun ran => ran.2.1) hrun
              have hresult : ending = result := congrArg (fun ran => ran.2.2) hrun
              have hfinal : ends = final := congrArg Prod.fst hrun
              rw [hresult, hfinal] at hrest
              cases before with
              | nil =>
                  obtain ⟨rfl, rfl⟩ := List.cons.inj hturns
                  exact ⟨state, last, none, by simpa using h, hstep, nofun, fun _ => hrest⟩
              | cons first others =>
                  have hfirst : ⟨message, telemetry, outcomes⟩ = first := (List.cons.inj hturns).1
                  have hothers : rest = others ++ turn :: after := (List.cons.inj hturns).2
                  rw [hothers] at hrest
                  have hnext := h.next hstep
                  rw [hfirst] at hnext
                  obtain ⟨begun, at_turn, ended, hbegun, hturn, hends, hmore⟩ := ih hnext hrest
                  rw [List.append_assoc] at hbegun
                  rw [List.length_cons, Nat.succ_sub_succ]
                  exact ⟨begun, at_turn, ended, hbegun, hturn, hends, hmore⟩

/-- A turn of a run was begun after those before it.  What ends it without another one ends the
run, and otherwise the run goes on. -/
theorem run_split
    (hrun : harness.run ports initialMessages modelConfig =
      (final, before ++ turn :: after, result)) :
    ∃ begun last ended, Begun harness ports initialMessages before begun ∧
      harness.turn ports modelConfig begun = (last, [turn], ended) ∧
      (∀ ending, ended = some ending → after = [] ∧ result = ending) ∧
      (ended = none → harness.turns ports modelConfig
        (harness.limits.maximumModelTurns - (before.length + 1)) last = (final, after, result)) :=
  turns_split .start harness.limits.maximumModelTurns hrun

end Turns

end BoundedToolHarness

end VTrade
