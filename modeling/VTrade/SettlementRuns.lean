/-
# Runs of the settlement engine

What an engine remembers of one agent and market was settled once, with one result
and at one settlement time.  Asking for the same settlement again gives what is
remembered; asking with another result or time raises, and marks the agent for good.
-/

import VTrade.Lib.Runs
import VTrade.SettlementOutcome

namespace VTrade

/-- The arguments of `settle`. -/
structure SettlementCall where
  observation : ResolutionObservation
  position : ContractPosition
  portfolio : ContractPortfolio
  asOf : Datetime
  settledAt : Datetime

namespace SettlementCall

/-- A call with final evidence that is not later than its aware cutoff, and with the
current position of its portfolio. -/
structure Terminal (call : SettlementCall) (result : OutcomeSide) (settlementTs : Datetime) :
    Prop where
  asOf_aware : call.asOf.isAware = true
  settledAt_aware : call.settledAt.isAware = true
  market : call.observation.marketKey = call.position.marketRef
  terminal : call.observation.terminal = true
  result_eq : call.observation.result = some result
  settlementTs_eq : call.observation.settlementTs = some settlementTs
  observed : call.observation.observedAt ≤ call.asOf.instant
  settled : settlementTs.instant ≤ call.asOf.instant
  position_eq : call.portfolio.position call.position.key = some call.position

end SettlementCall

namespace BinarySettlementEngine

def call (engine : BinarySettlementEngine) (call : SettlementCall) :
    BinarySettlementEngine × Except Raised (ContractPortfolio × SettlementRecord) :=
  engine.settle call.observation call.position call.portfolio call.asOf call.settledAt

/-- A new engine after a run of calls. -/
def after (calls : List SettlementCall) : BinarySettlementEngine := Runs.final call .empty calls

/-- A run of calls of a new engine with their answers. -/
def answers (calls : List SettlementCall) :
    List (SettlementCall × Except Raised (ContractPortfolio × SettlementRecord)) :=
  Runs.trace call .empty calls

variable {engine : BinarySettlementEngine} {next : SettlementCall} {result : OutcomeSide}
  {settlementTs : Datetime}

/-- A call whose arguments fit together compares them with what is remembered. -/
theorem call_of_terminal (h : next.Terminal result settlementTs) :
    engine.call next = engine.settleTerminal next.portfolio next.position result settlementTs
      next.observation.snapshotId next.settledAt := by
  have hlate : ¬ (next.asOf.instant < next.observation.observedAt ∨
      next.asOf.instant < settlementTs.instant) :=
    not_or.mpr ⟨not_lt.mpr h.observed, not_lt.mpr h.settled⟩
  simp only [call, settle, h.asOf_aware, h.settledAt_aware, h.market, h.terminal,
    h.result_eq, h.settlementTs_eq, hlate, h.position_eq, ne_eq, not_true_eq_false, if_false, Bool.true_eq_false]

/-- Any other call raises and leaves the engine as it is. -/
theorem call_of_not_terminal (h : ¬ ∃ result settlementTs, next.Terminal result settlementTs) :
    (engine.call next).1 = engine ∧ ∃ error, (engine.call next).2 = .error error := by
  unfold call settle
  split
  · exact ⟨rfl, _, rfl⟩
  split
  · exact ⟨rfl, _, rfl⟩
  split
  · exact ⟨rfl, _, rfl⟩
  next hasOf hsettledAt hmarket =>
  split
  next result settlementTs hterminal hresult hsettlementTs =>
    split
    · exact ⟨rfl, _, rfl⟩
    split
    · exact ⟨rfl, _, rfl⟩
    next hlate hposition =>
    obtain ⟨hobserved, hsettled⟩ := not_or.mp hlate
    exact absurd ⟨result, settlementTs, Bool.eq_true_of_not_eq_false hasOf,
      Bool.eq_true_of_not_eq_false hsettledAt, not_not.mp hmarket, hterminal, hresult,
      hsettlementTs, not_lt.mp hobserved, not_lt.mp hsettled, not_not.mp hposition⟩ h
  next => exact ⟨rfl, _, rfl⟩

/-- What two settlements of an agent and market agree on. -/
def Agrees (record : SettlementRecord) (result : OutcomeSide) (settlementTs : Datetime) : Prop :=
  record.outcome = result ∧ record.settlementTs = settlementTs.instant

/-- What every run keeps true of an engine and its answers so far. -/
structure RunInvariant
    (seen : List (SettlementCall × Except Raised (ContractPortfolio × SettlementRecord)))
    (engine : BinarySettlementEngine) : Prop where
  unique : (engine.settlements.map Prod.fst).Nodup
  /-- The last record of a market is the one that is stored. -/
  terminal : ∀ agentId market record, engine.priorTerminal agentId market = some record ↔
    ∃ portfolio, engine.stored ⟨agentId, market, record.settlementTs⟩ = some (portfolio, record)
  own : ∀ key portfolio record, engine.stored key = some (portfolio, record) →
    record.settlementTs = key.settlementTs
  answered : ∀ call settled, (call, Except.ok settled) ∈ seen →
    ∃ result settlementTs, call.Terminal result settlementTs ∧
      Agrees settled.2 result settlementTs ∧
      settled.2.contractUnits = call.position.contractUnits ∧
      engine.stored (settlementKey call.portfolio.agentId call.position.marketRef settlementTs) =
        some settled

theorem runInvariant_empty : RunInvariant [] empty where
  unique := List.nodup_nil
  terminal agentId market record := by
    constructor
    · rintro ⟨⟩
    · rintro ⟨_, ⟨⟩⟩
  own key portfolio record h := by cases h
  answered call settled hmem := by cases hmem

/-- A settlement that is booked agrees with its call: only a winner can be booked. -/
theorem agrees_of_booked {portfolio : ContractPortfolio} {position : ContractPosition}
    {resolutionId : String} {settledAt : Datetime}
    {settled : ContractPortfolio × SettlementRecord}
    (h : bookSettlement portfolio position result settlementTs resolutionId settledAt =
      .ok settled) :
    Agrees settled.2 result settlementTs ∧ settled.2.contractUnits = position.contractUnits := by
  have hbooked := bookSettlement_spec h
  have hpayout : settlementPayout position result ≠ 0 := (settlementPostings_isOk_iff.mp
    ⟨_, Posting.mapM_make_eq_ok_iff.mpr hbooked.posts⟩).1
  have hwins : position.outcome = result := by
    by_contra hloses
    exact hpayout (if_neg hloses)
  rw [Agrees, hbooked.record_eq]
  exact ⟨⟨hwins, rfl⟩, rfl⟩

theorem priorTerminal_remember_self (key : SettlementKey)
    (settled : ContractPortfolio × SettlementRecord) :
    (engine.remember key settled).priorTerminal key.agentId key.market = some settled.2 := by
  have h := @KeyedList.lookup_upsert_self _ _ _ Prod.fst ((key.agentId, key.market), settled.2)
    engine.terminalByMarket
  simp only [priorTerminal, remember, h, Option.map_some]

theorem priorTerminal_remember_of_ne {key : SettlementKey} {agentId market : String}
    (hne : (agentId, market) ≠ (key.agentId, key.market))
    (settled : ContractPortfolio × SettlementRecord) :
    (engine.remember key settled).priorTerminal agentId market =
      engine.priorTerminal agentId market := by
  have h := @KeyedList.lookup_upsert_of_ne _ _ _ Prod.fst _
    ((key.agentId, key.market), settled.2) hne engine.terminalByMarket
  simp only [priorTerminal, remember, h]

namespace RunInvariant

variable {seen : List (SettlementCall × Except Raised (ContractPortfolio × SettlementRecord))}

/-- An answer that changes nothing but the conflicted agents keeps the invariant. -/
theorem keep (h : RunInvariant seen engine) {same : BinarySettlementEngine}
    (hsettlements : same.settlements = engine.settlements)
    (hterminal : same.terminalByMarket = engine.terminalByMarket)
    {answer : Except Raised (ContractPortfolio × SettlementRecord)}
    (hanswer : ∀ settled, answer = .ok settled →
      ∃ result settlementTs, next.Terminal result settlementTs ∧
        Agrees settled.2 result settlementTs ∧
        settled.2.contractUnits = next.position.contractUnits ∧
        engine.stored (settlementKey next.portfolio.agentId next.position.marketRef settlementTs) =
          some settled) :
    RunInvariant (seen ++ [(next, answer)]) same := by
  have hstored : same.stored = engine.stored := by
    funext key
    rw [stored, stored, hsettlements]
  have hprior : same.priorTerminal = engine.priorTerminal := by
    funext agentId market
    rw [priorTerminal, priorTerminal, hterminal]
  refine ⟨by rw [hsettlements]; exact h.unique, by rw [hstored, hprior]; exact h.terminal,
    by rw [hstored]; exact h.own, fun call settled hmem => ?_⟩
  rw [hstored]
  rcases List.mem_append.mp hmem with hseen | hnew
  · exact h.answered call settled hseen
  · obtain ⟨rfl, rfl⟩ := Prod.mk.inj (List.mem_singleton.mp hnew)
    exact hanswer settled rfl

theorem raise (h : RunInvariant seen engine) (error : Raised) :
    RunInvariant (seen ++ [(next, .error error)]) engine :=
  h.keep rfl rfl fun settled hok => by cases hok

theorem mark (h : RunInvariant seen engine) (agentId : String) (error : Raised) :
    RunInvariant (seen ++ [(next, .error error)]) (engine.markConflicted agentId) := by
  have hsettlements : (engine.markConflicted agentId).settlements = engine.settlements := rfl
  exact h.keep hsettlements rfl fun settled hok => by cases hok

/-- Remembering the first settlement of a market keeps the invariant. -/
theorem remember (h : RunInvariant seen engine) {agentId : String} {marketRef : MarketKey}
    {settled : ContractPortfolio × SettlementRecord}
    (hprior : engine.priorTerminal agentId marketRef.canonical = none)
    (hagent : next.portfolio.agentId = agentId) (hmarket : next.position.marketRef = marketRef)
    (hterminal : next.Terminal result settlementTs)
    (hagrees : Agrees settled.2 result settlementTs)
    (hunits : settled.2.contractUnits = next.position.contractUnits) :
    RunInvariant (seen ++ [(next, .ok settled)])
      (engine.remember (settlementKey agentId marketRef settlementTs) settled) := by
  have hnone (instant : Instant) : engine.stored ⟨agentId, marketRef.canonical, instant⟩ = none := by
    cases hstored : engine.stored ⟨agentId, marketRef.canonical, instant⟩ with
    | none => rfl
    | some value =>
        have hown := h.own _ value.1 value.2 hstored
        have hsome := (h.terminal agentId marketRef.canonical value.2).mpr
          ⟨value.1, by rw [hown]; exact hstored⟩
        rw [hprior] at hsome
        cases hsome
  have hself := engine.stored_remember_self (settlementKey agentId marketRef settlementTs) settled
  refine ⟨KeyedList.nodup_upsert h.unique _, fun agent market record => ?_,
    fun key portfolio record hstored => ?_, fun call answer hmem => ?_⟩
  · by_cases hsame : (agent, market) = (agentId, marketRef.canonical)
    · obtain ⟨rfl, rfl⟩ := Prod.mk.inj hsame
      rw [show (engine.remember (settlementKey agent marketRef settlementTs) settled).priorTerminal
        agent marketRef.canonical = some settled.2 from
          engine.priorTerminal_remember_self (settlementKey agent marketRef settlementTs) settled]
      constructor
      · rintro ⟨⟩
        rw [hagrees.2]
        exact ⟨settled.1, hself⟩
      · rintro ⟨portfolio, hstored⟩
        by_cases hts : record.settlementTs = settlementTs.instant
        · rw [hts] at hstored
          rw [show (SettlementKey.mk agent marketRef.canonical settlementTs.instant) =
            settlementKey agent marketRef settlementTs from rfl, hself] at hstored
          cases hstored
          rfl
        · rw [engine.stored_remember_of_ne (fun hkey => hts (congrArg SettlementKey.settlementTs
            hkey)), hnone] at hstored
          cases hstored
    · rw [engine.priorTerminal_remember_of_ne hsame, h.terminal]
      refine exists_congr fun portfolio => ?_
      rw [engine.stored_remember_of_ne fun hkey => hsame ?_]
      exact Prod.ext (congrArg SettlementKey.agentId hkey) (congrArg SettlementKey.market hkey)
  · by_cases hkey : key = settlementKey agentId marketRef settlementTs
    · subst hkey
      rw [hself] at hstored
      cases hstored
      exact hagrees.2
    · rw [engine.stored_remember_of_ne hkey] at hstored
      exact h.own key portfolio record hstored
  · rcases List.mem_append.mp hmem with hseen | hnew
    · obtain ⟨result', settlementTs', hterminal', hagrees', hunits', hstored⟩ :=
        h.answered call answer hseen
      refine ⟨result', settlementTs', hterminal', hagrees', hunits', ?_⟩
      rw [engine.stored_remember_of_ne fun hkey => ?_]
      · exact hstored
      · rw [hkey] at hstored
        exact Option.some_ne_none _ (hstored.symm.trans (hnone settlementTs.instant))
    · obtain ⟨rfl, hok⟩ := Prod.mk.inj (List.mem_singleton.mp hnew)
      cases hok
      refine ⟨result, settlementTs, hterminal, hagrees, hunits, ?_⟩
      rw [hagent, hmarket]
      exact hself

/-- Every call keeps the invariant. -/
theorem call (h : RunInvariant seen engine) (next : SettlementCall) :
    RunInvariant (seen ++ [(next, (engine.call next).2)]) (engine.call next).1 := by
  by_cases hterminal : ∃ result settlementTs, next.Terminal result settlementTs
  · obtain ⟨result, settlementTs, hterminal⟩ := hterminal
    rw [call_of_terminal hterminal]
    unfold settleTerminal
    dsimp only
    split
    · exact h.mark _ _
    next hprior =>
    split
    next portfolio record hstored =>
      split
      · exact h.mark _ _
      next hsame =>
        obtain ⟨hresult, hunits⟩ := not_or.mp hsame
        refine h.keep rfl rfl fun settled hok => ?_
        cases hok
        exact ⟨result, settlementTs, hterminal,
          ⟨not_not.mp hresult, h.own _ portfolio record hstored⟩, not_not.mp hunits, hstored⟩
    next hstored =>
      -- A market that has a terminal record at this time would have it stored.
      have hnone : engine.priorTerminal next.portfolio.agentId next.position.marketRef.canonical =
          none := by
        cases hlast : engine.priorTerminal next.portfolio.agentId
            next.position.marketRef.canonical with
        | none => rfl
        | some record =>
            change ¬ (engine.priorTerminal next.portfolio.agentId
              next.position.marketRef.canonical).any _ = true at hprior
            rw [hlast, Option.any_some, decide_eq_true_eq, not_or, not_not, not_not] at hprior
            obtain ⟨portfolio, hfound⟩ := (h.terminal _ _ record).mp hlast
            rw [hprior.1] at hfound
            exact absurd (hstored.symm.trans hfound) (by simp)
      split
      · exact h.raise _
      next settled hbooked =>
        obtain ⟨hagrees, hunits⟩ := agrees_of_booked hbooked
        exact h.remember hnone rfl rfl hterminal hagrees hunits
  · obtain ⟨hengine, error, herror⟩ := call_of_not_terminal hterminal
    rw [hengine, herror]
    exact h.raise error

end RunInvariant

theorem runInvariant (calls : List SettlementCall) :
    RunInvariant (answers calls) (after calls) :=
  Runs.final_invariant call RunInvariant runInvariant_empty (fun _ _ next h => h.call next) calls

/-! ## Conflicts -/

/-- A call forgets no conflict. -/
theorem conflicted_call {agentId : String} (h : agentId ∈ engine.conflictedAgents)
    (next : SettlementCall) : agentId ∈ (engine.call next).1.conflictedAgents := by
  have hmark (other : String) : agentId ∈ (engine.markConflicted other).conflictedAgents :=
    List.mem_insert_of_mem h
  by_cases hterminal : ∃ result settlementTs, next.Terminal result settlementTs
  · obtain ⟨result, settlementTs, hterminal⟩ := hterminal
    rw [call_of_terminal hterminal]
    unfold settleTerminal
    dsimp only
    split
    · exact hmark _
    split
    · split
      · exact hmark _
      · exact h
    · split
      · exact h
      · exact h
  · rw [(call_of_not_terminal hterminal).1]
    exact h

theorem conflicted_final {agentId : String} (h : agentId ∈ engine.conflictedAgents)
    (calls : List SettlementCall) : agentId ∈ (Runs.final call engine calls).conflictedAgents :=
  Runs.final_invariant call (fun _ engine => agentId ∈ engine.conflictedAgents) h
    (fun _ _ next h => conflicted_call h next) calls

/-- Evidence that disagrees with a stored settlement of the agent and market raises,
and only marks the agent. -/
theorem call_of_disagrees {seen : List (SettlementCall ×
      Except Raised (ContractPortfolio × SettlementRecord))} (h : RunInvariant seen engine)
    (hterminal : next.Terminal result settlementTs) {instant : Instant}
    {portfolio : ContractPortfolio} {record : SettlementRecord}
    (hstored : engine.stored ⟨next.portfolio.agentId, next.position.marketRef.canonical, instant⟩ =
      some (portfolio, record)) (hdisagrees : ¬ Agrees record result settlementTs) :
    engine.call next = (engine.markConflicted next.portfolio.agentId,
      .error (.settlementBlockedError "conflicting terminal settlement evidence")) := by
  have hown : record.settlementTs = instant := h.own _ portfolio record hstored
  have hprior : engine.priorTerminal next.portfolio.agentId next.position.marketRef.canonical =
      some record :=
    (h.terminal _ _ record).mpr ⟨portfolio, by rw [hown]; exact hstored⟩
  rw [call_of_terminal hterminal]
  unfold settleTerminal
  refine if_pos ?_
  change (engine.priorTerminal next.portfolio.agentId next.position.marketRef.canonical).any _ = true
  rw [hprior, Option.any_some, decide_eq_true_eq]
  by_cases houtcome : record.outcome = result
  · exact Or.inl fun hts => hdisagrees ⟨houtcome, hts⟩
  · exact Or.inr houtcome

/-- The stored settlements of an agent and market share their result and settlement
time, which are those of the calls they answer.  A call with other terminal evidence
raises, changes no stored settlement and marks the agent for good; a call that has
succeeded gives the same settlement when it is repeated. -/
theorem settlements_consistent (calls : List SettlementCall) :
    (∀ first ∈ (after calls).settlements, ∀ second ∈ (after calls).settlements,
      first.1.agentId = second.1.agentId → first.1.market = second.1.market →
        first.2.2.outcome = second.2.2.outcome ∧
          first.2.2.settlementTs = second.2.2.settlementTs) ∧
    (∀ next result settlementTs, next.Terminal result settlementTs →
      ∀ row ∈ (after calls).settlements, row.1.agentId = next.portfolio.agentId →
        row.1.market = next.position.marketRef.canonical →
        ¬ Agrees row.2.2 result settlementTs →
          (∃ error, ((after calls).call next).2 = .error error) ∧
            ((after calls).call next).1.settlements = (after calls).settlements ∧
            ∀ later, next.portfolio.agentId ∈
              (after (calls ++ next :: later)).conflictedAgents) ∧
    ∀ next settled, (next, Except.ok settled) ∈ answers calls →
      (∃ result settlementTs, next.Terminal result settlementTs ∧
        Agrees settled.2 result settlementTs ∧
        (settlementKey next.portfolio.agentId next.position.marketRef settlementTs, settled) ∈
          (after calls).settlements) ∧
        (after calls).call next = (after calls, .ok settled) := by
  have h := runInvariant calls
  have hrow {row : SettlementKey × ContractPortfolio × SettlementRecord}
      (hmem : row ∈ (after calls).settlements) : (after calls).stored row.1 = some row.2 := by
    rw [stored, (KeyedList.lookup_eq_some_iff h.unique).mpr ⟨hmem, rfl⟩, Option.map_some]
  refine ⟨fun first hfirst second hsecond hagent hmarket => ?_,
    fun next result settlementTs hterminal row hmem hagent hmarket hdisagrees => ?_,
    fun next settled hmem => ?_⟩
  · have hprior (row : SettlementKey × ContractPortfolio × SettlementRecord)
        (hmem : row ∈ (after calls).settlements) :
        (after calls).priorTerminal row.1.agentId row.1.market = some row.2.2 := by
      have hstored := hrow hmem
      refine (h.terminal _ _ _).mpr ⟨row.2.1, ?_⟩
      rw [h.own _ _ _ hstored]
      exact hstored
    have hequal := hprior first hfirst
    rw [hagent, hmarket, hprior second hsecond] at hequal
    rw [Option.some.inj hequal]
    exact ⟨rfl, rfl⟩
  · obtain ⟨⟨agentId, market, instant⟩, portfolio, record⟩ := row
    obtain rfl : agentId = _ := hagent
    obtain rfl : market = _ := hmarket
    have hcall := call_of_disagrees h hterminal (hrow hmem) hdisagrees
    refine ⟨⟨_, by rw [hcall]⟩, by rw [hcall]; rfl, fun later => ?_⟩
    rw [after, Runs.final_append, Runs.final_cons]
    refine conflicted_final ?_ later
    change _ ∈ ((after calls).call next).1.conflictedAgents
    rw [hcall]
    exact List.mem_insert_self
  · obtain ⟨result, settlementTs, hterminal, hagrees, hunits, hstored⟩ :=
      h.answered next settled hmem
    refine ⟨⟨result, settlementTs, hterminal, hagrees, ?_⟩, ?_⟩
    · obtain ⟨row, hlookup, rfl⟩ := Option.map_eq_some_iff.mp hstored
      obtain ⟨hmem, hkey⟩ := (KeyedList.lookup_eq_some_iff h.unique).mp hlookup
      rw [← hkey]
      exact hmem
    · obtain ⟨portfolio, record⟩ := settled
      have hown : record.settlementTs = settlementTs.instant := h.own _ portfolio record hstored
      have hprior : (after calls).priorTerminal next.portfolio.agentId
          next.position.marketRef.canonical = some record :=
        (h.terminal _ _ record).mpr ⟨portfolio, by rw [hown]; exact hstored⟩
      have hpasses : ¬ ((after calls).priorTerminal
          (settlementKey next.portfolio.agentId next.position.marketRef settlementTs).agentId
          (settlementKey next.portfolio.agentId next.position.marketRef settlementTs).market).any
            (fun prior => prior.settlementTs ≠ settlementTs.instant ∨ prior.outcome ≠ result) =
          true := by
        change ¬ ((after calls).priorTerminal next.portfolio.agentId
          next.position.marketRef.canonical).any _ = true
        rw [hprior, Option.any_some, decide_eq_true_eq]
        exact not_or.mpr ⟨not_not.mpr hown, not_not.mpr hagrees.1⟩
      have hsame : ¬ (record.outcome ≠ result ∨
          record.contractUnits ≠ next.position.contractUnits) :=
        not_or.mpr ⟨not_not.mpr hagrees.1, not_not.mpr hunits⟩
      rw [call_of_terminal hterminal, settleTerminal]
      rw [if_neg hpasses, hstored]
      exact if_neg hsame

end BinarySettlementEngine

namespace Sample

/-- The settlement of the YES position of a hedged portfolio. -/
def settlementCall (result : OutcomeSide) : SettlementCall where
  observation := observation market result
  position := position market .yes 400000 yesCost_nonneg
  portfolio := hedged
  asOf := moment
  settledAt := moment

theorem settlementCall_terminal (result : OutcomeSide) :
    (settlementCall result).Terminal result moment where
  asOf_aware := rfl
  settledAt_aware := rfl
  market := rfl
  terminal := by cases result <;> decide
  result_eq := rfl
  settlementTs_eq := rfl
  observed := le_refl _
  settled := le_refl _
  position_eq := by cases result <;> decide

end Sample

/-- A settlement for YES is given again, and one for NO raises and marks the agent. -/
theorem settlements_consistent_sample :
    ∃ settled : ContractPortfolio × SettlementRecord,
      settled.2.outcome = .yes ∧
      (BinarySettlementEngine.after [Sample.settlementCall .yes]).call
          (Sample.settlementCall .yes) =
        (BinarySettlementEngine.after [Sample.settlementCall .yes], .ok settled) ∧
      (∃ error, ((BinarySettlementEngine.after [Sample.settlementCall .yes]).call
        (Sample.settlementCall .no)).2 = .error error) ∧
      "agent" ∈ (BinarySettlementEngine.after
        [Sample.settlementCall .yes, Sample.settlementCall .no]).conflictedAgents := by
  obtain ⟨settled, hsettled, htest⟩ := Checks.exists_ok_of_any
    (BinarySettlementEngine.empty.call (Sample.settlementCall .yes)).2
    (fun settled => settled.2.outcome = .yes) (by decide)
  have hyes := of_decide_eq_true htest
  have hmem : (Sample.settlementCall .yes, Except.ok settled) ∈
      BinarySettlementEngine.answers [Sample.settlementCall .yes] :=
    List.mem_singleton.mpr (congrArg (Prod.mk _) hsettled.symm)
  obtain ⟨-, hconflicts, hrepeats⟩ :=
    BinarySettlementEngine.settlements_consistent [Sample.settlementCall .yes]
  obtain ⟨⟨result, settlementTs, hterminal, -, hrow⟩, hagain⟩ := hrepeats _ settled hmem
  obtain ⟨herror, -, hmarked⟩ := hconflicts (Sample.settlementCall .no) .no Sample.moment
    (Sample.settlementCall_terminal .no) _ hrow rfl rfl fun hagrees => by
      rw [hagrees.1] at hyes
      cases hyes
  exact ⟨settled, hyes, hagain, herror, hmarked []⟩

end VTrade
