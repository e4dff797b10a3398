/-
# One reservation, one operation, one version

The runs of any number of workers.  A key is reserved for execution at most once, and at
most one operation and one set of fills is recorded for it.  What moves the books of an
agent was decided on the version that is stored, and leaves the next one; a worker that is
late finds another version and writes nothing.
-/

import VTrade.FillRecording
import VTrade.Reconciliation
import VTrade.WorkerSteps

namespace VTrade

namespace Runtime

variable (runtime : Runtime) (start : Workers)

/-- The tables that a run has gone through. -/
def Reached (actions : List WorkerAction) (db : Database) : Prop :=
  ∃ first, first <+: actions ∧ (Runs.final runtime.step start first).db = db

/-- A new order: its fills are written once, and an order that has fills was decided on a
portfolio that was loaded before, whose version is still the stored one and whose books are
still those that it was loaded from. -/
structure RecordsOnce (earlier : Database → Prop) (db : Database) (decision : Decision)
    (next : Database) : Prop where
  unrecorded : db.operation decision.result.requestKey.1 decision.result.requestKey.2 = none
  fills : ∃ operationId rows, RowsOfFills decision.result.toOrderResultFields operationId rows ∧
    next.fills = db.fills ++ rows
  current : decision.result.fills ≠ [] → ∃ loaded before,
    earlier loaded ∧ decision.result.portfolioBefore = some before ∧
      loaded.loadContractPortfolio decision.result.request.agentId = .ok before ∧
      db.portfolioVersion decision.result.request.agentId = some before.version ∧
      db.books decision.result.request.agentId = loaded.books decision.result.request.agentId

/-- A new settlement: it was made on the version that is stored, leaves the next one, and
changes nothing but its position and the version of its agent, besides what it adds. -/
structure SettlesOnce (digests : Digests) (db : Database) (pass : SettlementPass)
    (portfolio : ContractPortfolio) (record : SettlementRecord) (next : Database) : Prop where
  current : db.portfolioVersion pass.agentId = some portfolio.version
  records : ∃ (row : EligibleRow) (after : ContractPortfolio),
    Database.RecordsSettlement digests db record pass.agentId row.key row.observation.id
      portfolio after next ∧ after.version = portfolio.version + 1

/-- What a step of the workers does, with the tables that were there before it. -/
structure StepSound (earlier : Database → Prop) (state : Workers) (action : WorkerAction)
    (reached : Workers × Except Raised WorkerEvent) : Prop where
  /-- A step that fails writes nothing. -/
  failed : ∀ error, reached.2 = .error error → reached.1.db = state.db
  /-- Whoever moves the books of an agent advances its version by one, and the others keep
  their version and their books. -/
  transition : Database.Transition (recordedKey reached.2) (movedAgent reached.2) state.db
    reached.1.db
  /-- A step that records no order writes no fills. -/
  fills : recordedKey reached.2 = none → reached.1.db.fills = state.db.fills
  order : ∀ decision persisted, reached.2 = .ok (.recorded decision persisted) →
    persisted.created = true → RecordsOnce earlier state.db decision reached.1.db
  settlement : ∀ worker clock pass portfolio record persisted,
    action = .settle worker clock → state.jobs worker = .settling pass →
      pass.portfolio = some portfolio → reached.2 = .ok (.settled record persisted) →
        persisted.created = true →
          SettlesOnce runtime.digests state.db pass portfolio record reached.1.db
  /-- An order with fills from a portfolio whose version is not the stored one is refused,
  and nothing is written. -/
  stale_order : ∀ worker call reservedId portfolio decision, action = .persist worker →
    state.jobs worker = .decided call reservedId portfolio decision →
      decision.result.fills ≠ [] →
        state.db.portfolioVersion call.agentId ≠ some portfolio.version →
          (∃ error, reached.2 = .error error) ∧ reached.1.db = state.db
  /-- No settlement is written from a portfolio whose version is not the stored one. -/
  stale_settlement : ∀ worker clock pass portfolio, action = .settle worker clock →
    state.jobs worker = .settling pass → pass.portfolio = some portfolio →
      state.db.portfolioVersion pass.agentId ≠ some portfolio.version →
        reached.1.db = state.db

variable {runtime start} {earlier : Database → Prop} {state : Workers} {worker : ℕ}

/-- The version that a new order with fills was decided on is the stored one. -/
theorem version_of_recordsOrder {digests : Digests} {db next : Database}
    {result : OrderResultFields} {agentId operationId : String} {portfolio : ContractPortfolio}
    (hrecords : Database.RecordsOrder digests db result agentId operationId next)
    (haccounted : result.AccountedOn portfolio) (hfills : result.fills ≠ []) :
    result.portfolioBefore = some portfolio ∧
      db.portfolioVersion agentId = some portfolio.version := by
  rcases hrecords.books with ⟨hnone, -⟩ | ⟨-, before, after, hbefore, hafter, hmoves⟩
  · exact absurd hnone hfills
  · obtain ⟨rfl, -⟩ := haccounted.version hfills hbefore hafter
    obtain ⟨row, hrow, hversion, -⟩ := hmoves.agents
    refine ⟨hbefore, ?_⟩
    rw [Database.portfolioVersion, hrow, ← hversion]
    rfl

theorem version_of_recordsSettlement {digests : Digests} {db next : Database}
    {record : SettlementRecord} {agentId resolutionId : String} {key : PositionKey}
    {before after : ContractPortfolio}
    (hrecords : Database.RecordsSettlement digests db record agentId key resolutionId before after
      next) : db.portfolioVersion agentId = some before.version := by
  obtain ⟨row, hrow, hversion, -⟩ := hrecords.agents
  rw [Database.portfolioVersion, hrow, ← hversion]
  rfl

/-- The fills of a new order are written once. -/
theorem fills_of_recordsOrder {digests : Digests} {db next : Database}
    {result : OrderResultFields} {agentId operationId : String}
    (hrecords : Database.RecordsOrder digests db result agentId operationId next) :
    ∃ rows, RowsOfFills result operationId rows ∧ next.fills = db.fills ++ rows := by
  rcases hrecords.books with ⟨hnone, hbooks⟩ | ⟨-, before, after, -, -, hmoves⟩
  · refine ⟨[], ⟨?_, ?_⟩, ?_⟩
    · intro row hmem
      cases hmem
    · rw [hnone]
      rfl
    · rw [List.append_nil, hbooks.fills]
  · exact hmoves.fills

theorem persist_once (h : state.Kept runtime.digests earlier) {call : Submission}
    {reservedId : String} {portfolio : ContractPortfolio} {decision : Decision} {next : Database}
    (hjob : state.jobs worker = .decided call reservedId portfolio decision)
    (hrecords : Database.RecordsOrder runtime.digests state.db
      decision.result.toOrderResultFields call.agentId reservedId next) :
    RecordsOnce earlier state.db decision next := by
  have hsound := h.jobs worker
  rw [hjob] at hsound
  obtain ⟨hlive, hdecides, loaded, hearlier, hloaded⟩ := hsound
  have howned : decision.result.request.agentId = call.agentId := by
    rw [hdecides.request, hlive.owned]
  obtain ⟨rows, hrows, hfills⟩ := fills_of_recordsOrder hrecords
  constructor
  · rw [OrderResultFields.requestKey, hdecides.request]
    exact hlive.unrecorded
  · exact ⟨reservedId, rows, hrows, hfills⟩
  · intro hsome
    obtain ⟨hbefore, hversion⟩ := version_of_recordsOrder hrecords hdecides.accounted hsome
    obtain ⟨version, hstored, -, hbooks⟩ := hloaded.stored
    have hcurrent : version = portfolio.version := Option.some.inj (hstored.symm.trans hversion)
    rw [howned]
    exact ⟨loaded, portfolio, hearlier, hbefore, hloaded.load, hversion, hbooks hcurrent⟩

/-- No settlement is written on another version than the stored one. -/
theorem settle_stale (h : state.Kept runtime.digests earlier) {pass : SettlementPass}
    {portfolio : ContractPortfolio} (hjob : state.jobs worker = .settling pass)
    (hportfolio : pass.portfolio = some portfolio)
    (hstale : state.db.portfolioVersion pass.agentId ≠ some portfolio.version)
    (clock : Datetime) : (runtime.settle state worker clock).1.db = state.db := by
  cases hrows : pass.rows with
  | nil =>
      simp only [settle, hjob, hportfolio, hrows]
      rfl
  | cons row rest =>
      rcases settle_spec h hjob hportfolio hrows clock with ⟨error, hequal⟩ |
        ⟨engine, after, record, db, persisted, hequal, -, hsettles⟩
      · rw [hequal]
        rfl
      · rw [hequal]
        cases hsettles with
        | replayed _ hunchanged _ => exact hunchanged
        | recorded _ _ _ _ _ hrecords =>
            exact absurd (version_of_recordsSettlement hrecords) hstale

/-- What each step of the workers does. -/
theorem step_sound (h : state.Kept runtime.digests earlier) (hnow : earlier state.db)
    (action : WorkerAction) :
    runtime.StepSound earlier state action (runtime.step state action) := by
  have hwrites := step_writes h action
  have hstep := step_kept h hnow action
  constructor
  case failed =>
    intro error herror
    cases hwrites with
    | nothing hunchanged => exact hunchanged
    | beside hanswered => rw [hanswered] at herror; cases herror
    | order _ _ hanswered => rw [hanswered] at herror; cases herror
    | settlement _ _ _ hanswered => rw [hanswered] at herror; cases herror
  case transition => exact hstep.transition
  case fills =>
    intro hnone
    cases hwrites with
    | nothing hunchanged => rw [hunchanged]
    | beside _ _ _ hfills => exact hfills
    | order _ _ hanswered hcreated =>
        rw [hanswered] at hnone
        simp only [recordedKey, hcreated, if_true, reduceCtorEq] at hnone
    | settlement _ _ _ _ _ hsettles =>
        cases hsettles with
        | replayed _ hunchanged => rw [hunchanged]
        | recorded _ _ _ _ _ hrecords => exact hrecords.fills
  case order =>
    intro decision persisted hanswer hcreated
    cases hwrites with
    | nothing _ hrecorded =>
        rw [hanswer] at hrecorded
        simp only [recordedKey, hcreated, if_true, reduceCtorEq] at hrecorded
    | beside _ hrecorded =>
        rw [hanswer] at hrecorded
        simp only [recordedKey, hcreated, if_true, reduceCtorEq] at hrecorded
    | order _ hjob hanswered _ hrecords =>
        rw [hanswer] at hanswered
        cases hanswered
        exact persist_once h hjob hrecords
    | settlement _ _ _ hanswered =>
        rw [hanswer] at hanswered
        cases hanswered
  case settlement =>
    intro worker clock pass portfolio record persisted haction hjob hportfolio hanswer hcreated
    cases hwrites with
    | nothing _ _ hmoved =>
        rw [hanswer] at hmoved
        simp only [movedAgent, hcreated, if_true, reduceCtorEq] at hmoved
    | beside _ _ hmoved =>
        rw [hanswer] at hmoved
        simp only [movedAgent, hcreated, if_true, reduceCtorEq] at hmoved
    | order _ _ hanswered =>
        rw [hanswer] at hanswered
        cases hanswered
    | settlement haction' hjob' hportfolio' hanswered _ hsettles =>
        rw [haction] at haction'
        cases haction'
        rw [hjob] at hjob'
        cases hjob'
        rw [hportfolio] at hportfolio'
        cases hportfolio'
        rw [hanswer] at hanswered
        cases hanswered
        cases hsettles with
        | replayed hcreated' =>
            rw [hcreated] at hcreated'
            cases hcreated'
        | recorded _ hbooked _ _ _ hrecords =>
            exact ⟨version_of_recordsSettlement hrecords, _, _, hrecords, hbooked.version⟩
  case stale_order =>
    intro worker call reservedId portfolio decision haction hjob hfills hstale
    rw [haction]
    have hsound := h.jobs worker
    rw [hjob] at hsound
    rcases persist_spec h hjob with ⟨error, hequal⟩ | ⟨db, persisted, -, -, hrecords⟩
    · change (∃ error, (runtime.persist state worker).2 = .error error) ∧
        (runtime.persist state worker).1.db = state.db
      rw [hequal]
      exact ⟨⟨error, rfl⟩, rfl⟩
    · exact absurd (version_of_recordsOrder hrecords hsound.2.1.accounted hfills).2 hstale
  case stale_settlement =>
    intro worker clock pass portfolio haction hjob hportfolio hstale
    rw [haction]
    exact settle_stale h hjob hportfolio hstale clock

/-! ## Runs -/

/-- How often the books of an agent were moved. -/
def moves (agentId : String) (seen : List (WorkerAction × Except Raised WorkerEvent)) : ℕ :=
  seen.countP fun step => movedAgent step.2 = some agentId

/-- What every run keeps true. -/
structure Invariant (runtime : Runtime) (start : Workers)
    (seen : List (WorkerAction × Except Raised WorkerEvent)) (state : Workers) : Prop where
  final : state = Runs.final runtime.step start (seen.map Prod.fst)
  kept : state.Kept runtime.digests (runtime.Reached start (seen.map Prod.fst))
  reserves : ∀ key, seen.countP (fun step => reservedKey step = some key) ≤
    if (state.db.intent key.1 key.2).isSome then 1 else 0
  records : ∀ key, seen.countP (fun step => recordedKey step.2 = some key) ≤
    if (state.db.operation key.1 key.2).isSome then 1 else 0
  versions : ∀ agentId, state.db.portfolioVersion agentId =
    (start.db.portfolioVersion agentId).map (· + (moves agentId seen : ℤ))

/-- Something that happens only where it has not happened, and stays, happens once. -/
theorem countP_concat_le {α : Type} {seen : List α} {step : α} {happens : α → Bool}
    {before after : Bool} (h : seen.countP happens ≤ if before then 1 else 0)
    (hstays : before = true → after = true)
    (honce : happens step = true → before = false ∧ after = true) :
    (seen ++ [step]).countP happens ≤ if after then 1 else 0 := by
  rw [List.countP_append, List.countP_singleton]
  cases hstep : happens step with
  | true =>
      obtain ⟨hbefore, hafter⟩ := honce hstep
      rw [hbefore] at h
      rw [hafter]
      simpa using h
  | false =>
      cases hbefore : before with
      | true =>
          rw [hbefore] at h
          rw [hstays hbefore]
          simpa using h
      | false =>
          rw [hbefore] at h
          have hzero : seen.countP happens = 0 := by simpa using h
          simp [hzero]

theorem Invariant.atRest (h : start.AtRest) : runtime.Invariant start [] start where
  final := rfl
  kept := h.kept
  reserves _ := Nat.zero_le _
  records _ := Nat.zero_le _
  versions agentId := by
    cases start.db.portfolioVersion agentId with
    | none => rfl
    | some version => simp [moves]

theorem Invariant.step {seen : List (WorkerAction × Except Raised WorkerEvent)}
    (h : runtime.Invariant start seen state) (action : WorkerAction) :
    runtime.Invariant start (seen ++ [(action, (runtime.step state action).2)])
      (runtime.step state action).1 := by
  have hnow : runtime.Reached start (seen.map Prod.fst) state.db :=
    ⟨_, List.prefix_refl _, by rw [← h.final]⟩
  have hstep := step_kept h.kept hnow action
  have hmap : (seen ++ [(action, (runtime.step state action).2)]).map Prod.fst =
      seen.map Prod.fst ++ [action] := by
    rw [List.map_append, List.map_cons, List.map_nil]
  constructor
  · rw [hmap, Runs.final_concat, ← h.final]
  · rw [hmap]
    apply hstep.kept.mono
    rintro db ⟨first, hprefix, hdb⟩
    exact ⟨first, hprefix.trans (List.prefix_append _ _), hdb⟩
  · intro key
    apply countP_concat_le (h.reserves key) (hstep.transition.intents key)
    intro hreserved
    obtain ⟨hnone, hsome⟩ := hstep.reserves key (of_decide_eq_true hreserved)
    exact ⟨by rw [hnone]; rfl, hsome⟩
  · intro key
    apply countP_concat_le (h.records key) (hstep.transition.operations key)
    intro hrecorded
    obtain ⟨hnone, hsome⟩ := hstep.records key (of_decide_eq_true hrecorded)
    exact ⟨by rw [hnone]; rfl, hsome⟩
  · intro agentId
    rw [moves, List.countP_append, List.countP_singleton]
    by_cases hmoved : movedAgent (runtime.step state action).2 = some agentId
    · obtain ⟨version, hversion, hnext⟩ := hstep.transition.version agentId hmoved
      have hold := h.versions agentId
      rw [hversion] at hold
      obtain ⟨first, hfirst, hequal⟩ := Option.map_eq_some_iff.mp hold.symm
      rw [hnext, hfirst, Option.map_some, ← hequal, decide_eq_true hmoved, if_pos rfl,
        Nat.cast_add, ← add_assoc]
      rfl
    · obtain ⟨hsame, -⟩ := hstep.transition.others agentId hmoved
      rw [hsame, h.versions agentId, decide_eq_false hmoved]
      rfl

theorem invariant (h : start.AtRest) (actions : List WorkerAction) :
    runtime.Invariant start (Runs.trace runtime.step start actions)
      (Runs.final runtime.step start actions) :=
  Runs.final_invariant runtime.step (runtime.Invariant start) (Invariant.atRest h)
    (fun _ _ action hinvariant => hinvariant.step action) actions

/-- However the steps of any number of workers are interleaved: a key is reserved for
execution at most once and recorded at most once; every step writes fills only with a new
order, moves books only from the version that is stored to the next one, and writes nothing
from a version that is not stored; and the version of an agent counts what was recorded of
it. -/
theorem workers_record_once (runtime : Runtime) {start : Workers} (h : start.AtRest)
    (actions : List WorkerAction) :
    (∀ key, (Runs.trace runtime.step start actions).countP
        (fun step => reservedKey step = some key) ≤ 1) ∧
      (∀ key, (Runs.trace runtime.step start actions).countP
        (fun step => recordedKey step.2 = some key) ≤ 1) ∧
      (∀ before action after, actions = before ++ action :: after →
        runtime.StepSound (runtime.Reached start before) (Runs.final runtime.step start before)
          action (runtime.step (Runs.final runtime.step start before) action)) ∧
      ∀ agentId, (Runs.final runtime.step start actions).db.portfolioVersion agentId =
        (start.db.portfolioVersion agentId).map
          (· + (moves agentId (Runs.trace runtime.step start actions) : ℤ)) := by
  have hinvariant := @invariant runtime start h
  refine ⟨?_, ?_, ?_, (hinvariant actions).versions⟩
  · intro key
    apply ((hinvariant actions).reserves key).trans
    split <;> omega
  · intro key
    apply ((hinvariant actions).records key).trans
    split <;> omega
  · intro before action after _
    have hkept := (hinvariant before).kept
    rw [Runs.trace_map_fst] at hkept
    exact step_sound hkept ⟨before, List.prefix_refl _, rfl⟩ action

end Runtime

namespace Sample

/-- The capital of the agent. -/
def initialCapital : LedgerEntryRow where
  id := "capital"
  agentId := "agent"
  eventType := "initial_capital"
  sourceTable := "agents"
  sourceId := "agent"
  idempotencyKey := "initial-capital:agent"
  postings := [⟨"cash", 1000000000, none, none, none⟩,
    ⟨"owner_equity", -1000000000, none, none, none⟩]

/-- Workers over the tables of an agent that has its capital. -/
def workers : Workers where
  db := { untraded with ledgerEntries := [initialCapital] }
  brokers _ := .empty
  jobs _ := .idle

/-- A ledger that takes fees, too. -/
def runtime : Runtime := ⟨"fees" :: ledgerVocabulary, keyDigests, ⟨broker⟩⟩

/-- A call for a request under a key, with the frozen context of its market. -/
def call (request : OrderRequest) (key : String)
    (h : Text.isBlank key = false ∧ key.toList.length ≤ 512) : Submission where
  request := { request with
    idempotencyKey := key
    frozenContextId := some operationUuid
    frozenCutoff := some moment.instant
    createdAt := moment.instant
    key_nonblank := h.1
    key_length := h.2
    context_nonblank := by
      rintro _ ⟨⟩
      exact digests.operationUuid_not_isBlank _ _ }
  agentId := "agent"
  cycleId := "cycle"
  cutoff := moment.instant
  contexts := [(market, context)]
  createdAt := moment
  createdAt_eq := rfl
  createdAt_aware := rfl

theorem key_valid : Text.isBlank "key" = false ∧ "key".toList.length ≤ 512 := by
  decide

theorem other_valid : Text.isBlank "other" = false ∧ "other".toList.length ≤ 512 := by
  decide

/-- A provider that has a fresh context. -/
def environment (context : FreshContext) : ExecutionEnvironment where
  started := moment
  provider := some (.context context, .other)
  refreshed := moment
  failed := moment
  feePolicy := .ok (some policyEvidence)

/-- Two purchases from the same portfolio, and a retry of the first: it is answered from its
intent, and the purchase that comes late is refused. -/
def twoPurchases : List WorkerAction := [
  .submit 0 (call smallPurchase "key" key_valid),
  .submit 1 (call smallPurchase "other" other_valid),
  .submit 2 (call smallPurchase "key" key_valid),
  .load 0 moment, .load 1 moment, .load 2 moment,
  .execute 0 0 (environment (freshContext deepBook rfl)),
  .execute 1 1 (environment (freshContext deepBook rfl)),
  .persist 0, .persist 1]

theorem workers_atRest : workers.AtRest where
  jobs _ := rfl
  brokers _ := rfl
  intents row hmem := by cases hmem
  settlements row hmem := by cases hmem

end Sample

set_option maxRecDepth 10000 in
/-- Of two purchases from the same portfolio the first is recorded, under its key once. -/
theorem workers_record_once_twoPurchases :
    (Runs.trace Sample.runtime.step Sample.workers Sample.twoPurchases).countP
        (fun step => recordedKey step.2 = some ("agent", "key")) = 1 ∧
      (Runs.final Sample.runtime.step Sample.workers Sample.twoPurchases).db.portfolioVersion
        "agent" = some 1 := by
  have honce := Sample.runtime.workers_record_once Sample.workers_atRest Sample.twoPurchases
  have hrecorded : 1 ≤ (Runs.trace Sample.runtime.step Sample.workers
      Sample.twoPurchases).countP (fun step => recordedKey step.2 = some ("agent", "key")) := by
    decide +kernel
  have hmoves : Runtime.moves "agent" (Runs.trace Sample.runtime.step Sample.workers
      Sample.twoPurchases) = 1 := by
    decide +kernel
  refine ⟨le_antisymm (honce.2.1 _) hrecorded, ?_⟩
  rw [honce.2.2.2 "agent", hmoves]
  rfl

end VTrade
