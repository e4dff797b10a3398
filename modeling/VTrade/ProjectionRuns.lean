/-
# What is loaded after every step

The runs of any number of workers, from agents that have their capital.  After every step
the tables show a portfolio of every agent.  A portfolio that a worker has loaded or gone
on to is shown as long as its version is the stored one, so that what is recorded from it
leaves tables that show what it was made to be.

A settlement pass that comes upon a settlement of another pass goes on with a portfolio
that nobody has recorded, and an order without fills is recorded from a portfolio of any
version.
-/

import VTrade.Projection
import VTrade.WorkersOnce

namespace VTrade

/-! ## Portfolios of workers -/

namespace Database

variable {db next : Database} {agentId : String} {portfolio : ContractPortfolio}

/-- The tables show a portfolio of every agent. -/
def Agree (db : Database) : Prop :=
  ∀ agentId, (db.portfolioVersion agentId).isSome = true → ∃ portfolio, db.Shows agentId portfolio

/-- The tables show a portfolio, unless the books of its agent have moved on from it. -/
def ShowsUnlessMoved (db : Database) (agentId : String) (portfolio : ContractPortfolio) : Prop :=
  ∃ version, db.portfolioVersion agentId = some version ∧ portfolio.version ≤ version ∧
    (version = portfolio.version → db.Shows agentId portfolio)

theorem Shows.unlessMoved (h : db.Shows agentId portfolio) :
    db.ShowsUnlessMoved agentId portfolio :=
  ⟨portfolio.version, h.version, le_refl _, fun _ => h⟩

theorem ShowsUnlessMoved.shows (h : db.ShowsUnlessMoved agentId portfolio)
    (hversion : db.portfolioVersion agentId = some portfolio.version) :
    db.Shows agentId portfolio := by
  obtain ⟨version, hstored, -, hshows⟩ := h
  exact hshows (Option.some.inj (hstored.symm.trans hversion))

/-- Whoever moves the books moves on from every portfolio. -/
theorem ShowsUnlessMoved.transition {recorded : Option (String × String)} {moved : Option String}
    (h : db.ShowsUnlessMoved agentId portfolio) (htransition : Transition recorded moved db next) :
    next.ShowsUnlessMoved agentId portfolio := by
  obtain ⟨version, hversion, hle, hshows⟩ := h
  by_cases hmoved : moved = some agentId
  · obtain ⟨version', hversion', hnext⟩ := htransition.version agentId hmoved
    obtain rfl : version = version' := Option.some.inj (hversion.symm.trans hversion')
    refine ⟨version + 1, hnext, by omega, ?_⟩
    intro hequal
    omega
  · obtain ⟨hsame, hbooks⟩ := htransition.others agentId hmoved
    refine ⟨version, hsame.trans hversion, hle, ?_⟩
    intro hequal
    exact (hshows hequal).of_books hsame hbooks

/-- What is loaded from tables that show a portfolio is shown. -/
theorem Agree.shows_of_load (h : db.Agree)
    (hload : db.loadContractPortfolio agentId = .ok portfolio) : db.Shows agentId portfolio := by
  have hsome : (db.portfolioVersion agentId).isSome = true := by
    rw [version_of_load hload]
    rfl
  obtain ⟨shown, hshown⟩ := h agentId hsome
  exact hshown.of_load (load_spec hload)

/-- A portfolio that was loaded from tables that showed it is shown unless they have
moved on. -/
theorem LoadedFrom.showsUnlessMoved {loaded : Database}
    (h : loaded.LoadedFrom db agentId portfolio) (hagree : loaded.Agree) :
    db.ShowsUnlessMoved agentId portfolio := by
  obtain ⟨version, hversion, hle, hbooks⟩ := h.stored
  refine ⟨version, hversion, hle, ?_⟩
  intro hequal
  apply (hagree.shows_of_load h.load).of_books
  · rw [hversion, hequal, version_of_load h.load]
  · exact hbooks hequal

/-- The agents that are not moved keep the portfolio that the tables show. -/
theorem Agree.others {recorded : Option (String × String)} {moved : Option String}
    (h : db.Agree) (htransition : Transition recorded moved db next) (hmoved : moved ≠ some agentId)
    (hsome : (next.portfolioVersion agentId).isSome = true) :
    ∃ portfolio, db.Shows agentId portfolio ∧ next.Shows agentId portfolio := by
  obtain ⟨hsame, hbooks⟩ := htransition.others agentId hmoved
  rw [hsame] at hsome
  obtain ⟨portfolio, hshows⟩ := h agentId hsome
  exact ⟨portfolio, hshows, hshows.of_books hsame hbooks⟩

end Database

/-- What a settlement pass has loaded, gone on to and remembers is shown unless the books of
its agent have moved on. -/
structure SettlementPass.Follows (pass : SettlementPass) (db : Database) : Prop where
  portfolio : ∀ portfolio, pass.portfolio = some portfolio →
    db.ShowsUnlessMoved pass.agentId portfolio
  remembered : ∀ key settled, pass.engine.stored key = some settled →
    db.ShowsUnlessMoved pass.agentId settled.1

theorem SettlementPass.Follows.transition {pass : SettlementPass} {db next : Database}
    {recorded : Option (String × String)} {moved : Option String} (h : pass.Follows db)
    (htransition : Database.Transition recorded moved db next) : pass.Follows next :=
  ⟨fun portfolio hportfolio => (h.portfolio portfolio hportfolio).transition htransition,
    fun key settled hstored => (h.remembered key settled hstored).transition htransition⟩

/-- A settlement of the position that is recorded already is one that the pass remembers. -/
def SettlementPass.Knows (pass : SettlementPass) (db : Database) (row : EligibleRow) : Prop :=
  ∀ instant settlementTs, row.observation.settlementTs = some instant →
    Datetime.utc instant = some settlementTs →
      (∃ settlement ∈ db.settlements, settlement.idempotencyKey =
        settlementIdempotencyKey pass.agentId row.key.1 settlementTs) →
        (pass.engine.stored (settlementKey pass.agentId row.key.1 settlementTs)).isSome = true

/-- A pass that knows what is recorded remembers what it comes upon. -/
theorem SettlementPass.Knows.remembers {pass : SettlementPass} {db : Database} {row : EligibleRow}
    {after : ContractPortfolio} {record : SettlementRecord} (h : pass.Knows db row)
    (hexisting : ∃ settlement ∈ db.settlements,
      settlement.idempotencyKey = record.ledgerEntry.idempotencyKey)
    (hrecalls : pass.Recalls row after record) :
    ∃ key, pass.engine.stored key = some (after, record) := by
  cases hrecalls with
  | remembered hstored => exact ⟨_, hstored⟩
  | rebooked hobserved hread hunknown hkeyed =>
      rw [hkeyed] at hexisting
      have hsome := h _ _ hobserved hread hexisting
      rw [hunknown] at hsome
      cases hsome

/-- A decided order is the decision on its call. -/
theorem Workers.Kept.decides {digests : Digests} {earlier : Database → Prop}
    {state : Workers} {worker : ℕ} {call : Submission} {reservedId : String}
    {portfolio : ContractPortfolio} {decision : Decision} (h : state.Kept digests earlier)
    (hjob : state.jobs worker = .decided call reservedId portfolio decision) :
    decision.Decides call portfolio := by
  have hsound := h.jobs worker
  rw [hjob] at hsound
  exact hsound.2.1

/-- An order that is decided on is that of its caller. -/
theorem Workers.Kept.agentId_of_decided {digests : Digests} {earlier : Database → Prop}
    {state : Workers} {worker : ℕ} {call : Submission} {reservedId : String}
    {portfolio : ContractPortfolio} {decision : Decision} (h : state.Kept digests earlier)
    (hjob : state.jobs worker = .decided call reservedId portfolio decision) :
    decision.result.request.agentId = call.agentId := by
  have hsound := h.jobs worker
  rw [hjob] at hsound
  obtain ⟨hlive, hdecides, -⟩ := hsound
  rw [hdecides.request, hlive.owned]

namespace Runtime

variable {runtime : Runtime} {earlier : Database → Prop} {state : Workers} {worker : ℕ}
  {action : WorkerAction}

/-! ## Settlement passes -/

/-- Where a settlement pass comes from that a worker is on after a step. -/
inductive PassFrom (runtime : Runtime) (state : Workers) (action : WorkerAction)
    (reached : Workers × Except Raised WorkerEvent) (worker : ℕ) (pass : SettlementPass) : Prop
  | same (job : state.jobs worker = .settling pass)
  | opened (portfolio : pass.portfolio = none) (engine : pass.engine = .empty)
  | loaded {old : SettlementPass} {portfolio : ContractPortfolio}
      (job : state.jobs worker = .settling old)
      (load : state.db.loadContractPortfolio old.agentId = .ok portfolio)
      (unchanged : reached.1.db = state.db)
      (pass_eq : pass = { old with portfolio := some portfolio })
  | settled {old : SettlementPass} {portfolio after : ContractPortfolio} {row : EligibleRow}
      {rest : List EligibleRow} {clock : Datetime} {engine : BinarySettlementEngine}
      {record : SettlementRecord} {persisted : PersistenceResult}
      (action_eq : action = .settle worker clock) (job : state.jobs worker = .settling old)
      (loaded : old.portfolio = some portfolio) (rows : old.rows = row :: rest)
      (answered : reached.2 = .ok (.settled record persisted))
      (engine_eq : engine = old.engine ∨ ∃ key, engine = old.engine.remember key (after, record))
      (settles : old.Settles runtime.digests state.db portfolio row after record persisted
        reached.1.db)
      (pass_eq : pass = { old with
        rows := rest
        portfolio := some after
        engine := engine
        settled := old.settled ++ [persisted] })

/-- A worker that is on a settlement pass after another one's job has changed was on it
before. -/
theorem settling_of_withJob {other : ℕ} {job : Job} {pass : SettlementPass}
    (h : (state.withJob other job).jobs worker = .settling pass) :
    (worker = other ∧ job = .settling pass) ∨ state.jobs worker = .settling pass := by
  change Function.update state.jobs other job worker = .settling pass at h
  by_cases hworker : worker = other
  · rw [hworker, Function.update_self] at h
    exact Or.inl ⟨hworker, h⟩
  · rw [Function.update_of_ne hworker] at h
    exact Or.inr h

/-- A worker whose job is no settlement pass changes nothing of the others'. -/
theorem settling_of_withJob_of_ne {other : ℕ} {job : Job} {pass : SettlementPass}
    (h : (state.withJob other job).jobs worker = .settling pass)
    (hjob : ∀ pass, job ≠ .settling pass) : state.jobs worker = .settling pass := by
  rcases settling_of_withJob h with ⟨-, hsettling⟩ | hsame
  · exact absurd hsettling (hjob pass)
  · exact hsame

theorem load_passFrom {other : ℕ} {clock : Datetime} {pass : SettlementPass}
    (hjob : (runtime.load state other clock).1.jobs worker = .settling pass) :
    PassFrom runtime state (.load other clock) (runtime.load state other clock) worker pass := by
  unfold load at hjob ⊢
  split at hjob
  next call reservation hreserved =>
    have hsame : state.jobs worker = .settling pass := by
      split at hjob
      · exact settling_of_withJob_of_ne hjob (fun _ hequal => by cases hequal)
      · split at hjob
        · exact settling_of_withJob_of_ne hjob (fun _ hequal => by cases hequal)
        · exact settling_of_withJob_of_ne hjob (fun _ hequal => by cases hequal)
        · exact settling_of_withJob_of_ne hjob (fun _ hequal => by cases hequal)
    exact .same hsame
  next old hold =>
    cases hportfolio : old.portfolio with
    | some portfolio =>
        simp only [hportfolio] at hjob
        exact .same hjob
    | none =>
        cases hload : state.db.loadContractPortfolio old.agentId with
        | error error =>
            simp only [hportfolio, hload] at hjob
            exact .same (settling_of_withJob_of_ne hjob (fun _ hequal => by cases hequal))
        | ok portfolio =>
            simp only [hportfolio, hload] at hjob ⊢
            rcases settling_of_withJob hjob with ⟨rfl, hpass⟩ | hsame
            · cases hpass
              exact .loaded hold hload rfl rfl
            · exact .same hsame
  next => exact .same hjob

theorem settle_passFrom (h : state.Kept runtime.digests earlier) {other : ℕ} {clock : Datetime}
    {pass : SettlementPass}
    (hjob : (runtime.settle state other clock).1.jobs worker = .settling pass) :
    PassFrom runtime state (.settle other clock) (runtime.settle state other clock) worker
      pass := by
  cases hother : state.jobs other with
  | settling old =>
      cases hportfolio : old.portfolio with
      | none =>
          simp only [settle, hother, hportfolio] at hjob
          exact .same hjob
      | some portfolio =>
      cases hrows : old.rows with
      | nil =>
          simp only [settle, hother, hportfolio, hrows] at hjob
          exact .same (settling_of_withJob_of_ne hjob (fun _ hequal => by cases hequal))
      | cons row rest =>
      rcases settle_spec h hother hportfolio hrows clock with ⟨error, hequal⟩ |
        ⟨engine, after, record, db, persisted, hequal, hengine, hsettles⟩
      · rw [hequal] at hjob
        exact .same (settling_of_withJob_of_ne hjob (fun _ hequal => by cases hequal))
      · rw [hequal] at hjob ⊢
        rcases settling_of_withJob hjob with ⟨rfl, hpass⟩ | hsame
        · exact .settled rfl hother hportfolio hrows rfl hengine hsettles (Job.settling.inj hpass).symm
        · exact .same hsame
  | idle =>
      simp only [settle, hother] at hjob
      exact .same hjob
  | reserved call reservation =>
      simp only [settle, hother] at hjob
      exact .same hjob
  | loaded call reservedId portfolio =>
      simp only [settle, hother] at hjob
      exact .same hjob
  | decided call reservedId portfolio decision =>
      simp only [settle, hother] at hjob
      exact .same hjob

/-- Where the settlement passes come from that the workers are on after a step. -/
theorem step_passFrom (h : state.Kept runtime.digests earlier) (action : WorkerAction)
    {pass : SettlementPass}
    (hjob : (runtime.step state action).1.jobs worker = .settling pass) :
    PassFrom runtime state action (runtime.step state action) worker pass := by
  cases action with
  | submit other call =>
      refine .same ?_
      unfold step submit at hjob
      dsimp only at hjob
      split at hjob
      · split at hjob
        · exact hjob
        · split at hjob
          · exact hjob
          · split at hjob
            · exact hjob
            · exact settling_of_withJob_of_ne hjob (fun _ hequal => by cases hequal)
      · exact hjob
  | load other clock => exact load_passFrom hjob
  | execute other executor environment =>
      refine .same ?_
      unfold step execute at hjob
      dsimp only at hjob
      split at hjob
      · split at hjob
        · exact settling_of_withJob_of_ne hjob (fun _ hequal => by cases hequal)
        · exact settling_of_withJob_of_ne hjob (fun _ hequal => by cases hequal)
      · exact hjob
  | persist other =>
      refine .same ?_
      unfold step persist at hjob
      dsimp only at hjob
      split at hjob
      · split at hjob
        · exact settling_of_withJob_of_ne hjob (fun _ hequal => by cases hequal)
        · exact settling_of_withJob_of_ne hjob (fun _ hequal => by cases hequal)
      · exact hjob
  | openPass other agentId resolutionIds cutoff =>
      unfold step openPass at hjob
      dsimp only at hjob
      split at hjob
      · rcases settling_of_withJob hjob with ⟨-, hpass⟩ | hsame
        · cases hpass
          exact .opened rfl rfl
        · exact .same hsame
      · exact .same hjob
  | settle other clock => exact settle_passFrom h hjob
  | observe row =>
      refine .same ?_
      unfold step at hjob
      dsimp only at hjob
      split at hjob
      · exact hjob
      · exact hjob
  | pause agentId paused => exact .same hjob
  | reconcile operationId operationState reconciliation => exact .same hjob
  | stop other =>
      exact .same (settling_of_withJob_of_ne hjob (fun _ hequal => by cases hequal))
  | restart executor => exact .same hjob

/-! ## What is recorded -/

/-- Whatever a settlement step comes upon that is recorded, its pass remembers. -/
def KnowsSettlements (state : Workers) : WorkerAction → Prop
  | .settle worker _ => ∀ pass row rest, state.jobs worker = .settling pass →
      pass.rows = row :: rest → pass.Knows state.db row
  | _ => True

/-- What every step keeps true of the tables and the portfolios of workers. -/
structure Projected (runtime : Runtime) (state : Workers) : Prop where
  kept : state.Kept runtime.digests Database.Agree
  agree : state.db.Agree
  passes : ∀ worker pass, state.jobs worker = .settling pass → pass.Follows state.db

/-- What is answered with a new order has recorded the order of its worker. -/
theorem Writes.order_of_recorded {digests : Digests}
    {reached : Workers × Except Raised WorkerEvent} {decision : Decision}
    {persisted : PersistenceResult} (h : Writes digests state action reached)
    (hanswer : reached.2 = .ok (.recorded decision persisted)) (hcreated : persisted.created = true) :
    ∃ worker call reservedId portfolio,
      state.jobs worker = .decided call reservedId portfolio decision ∧
      Database.RecordsOrder digests state.db decision.result.toOrderResultFields call.agentId
        reservedId reached.1.db := by
  cases h with
  | nothing _ hrecorded =>
      rw [hanswer] at hrecorded
      simp only [recordedKey, hcreated, if_true, reduceCtorEq] at hrecorded
  | beside _ hrecorded =>
      rw [hanswer] at hrecorded
      simp only [recordedKey, hcreated, if_true, reduceCtorEq] at hrecorded
  | order _ hjob hanswered _ hrecords =>
      rw [hanswer] at hanswered
      cases hanswered
      exact ⟨_, _, _, _, hjob, hrecords⟩
  | settlement _ _ _ hanswered =>
      rw [hanswer] at hanswered
      cases hanswered

/-- A new order with fills was decided on the portfolio that the tables show, and leaves tables
that show the portfolio it leaves. -/
theorem Projected.order (h : runtime.Projected state) {call : Submission} {reservedId : String}
    {portfolio : ContractPortfolio} {decision : Decision} {next : Database}
    (hjob : state.jobs worker = .decided call reservedId portfolio decision)
    (hrecords : Database.RecordsOrder runtime.digests state.db
      decision.result.toOrderResultFields call.agentId reservedId next)
    (hfills : decision.result.fills ≠ []) :
    state.db.Shows call.agentId portfolio ∧ ∃ after, decision.result.portfolioAfter = some after ∧
      next.Shows call.agentId after := by
  have hsound := h.kept.jobs worker
  rw [hjob] at hsound
  obtain ⟨-, hdecides, loaded, hagree, hloaded⟩ := hsound
  obtain ⟨-, hversion⟩ := version_of_recordsOrder hrecords hdecides.accounted hfills
  have hshows := (hloaded.showsUnlessMoved hagree).shows hversion
  refine ⟨hshows, ?_⟩
  rcases hrecords.books with ⟨hnone, -⟩ | ⟨-, before, after, hbefore, hafter, hmoves⟩
  · exact absurd hnone hfills
  · cases hdecides.accounted with
    | unfilled hnone => exact absurd hnone hfills
    | filled hbooked hbefore' hafter' hentries =>
        obtain rfl := Option.some.inj (hbefore.symm.trans hbefore')
        obtain rfl := Option.some.inj (hafter.symm.trans hafter')
        obtain ⟨loop, -, hbooked⟩ := applyOrderFills_spec hbooked
        exact ⟨after, hafter, hshows.order hbooked hentries hmoves⟩

/-- A new settlement was made on the portfolio that the tables show, and leaves tables that show
the portfolio it leaves. -/
theorem Projected.settlement (h : runtime.Projected state) {pass : SettlementPass}
    {portfolio after : ContractPortfolio} {row : EligibleRow} {position : ContractPosition}
    {result : OutcomeSide} {settlementTs settledAt : Datetime} {resolutionId : String}
    {record : SettlementRecord} {next : Database}
    (hjob : state.jobs worker = .settling pass) (hportfolio : pass.portfolio = some portfolio)
    (hbooked : SettlementBooked portfolio position result settlementTs resolutionId settledAt
      after record) (hposition : portfolio.position row.key = some position)
    (hrecords : Database.RecordsSettlement runtime.digests state.db record pass.agentId row.key
      row.observation.id portfolio after next) :
    state.db.Shows pass.agentId portfolio ∧ next.Shows pass.agentId after := by
  have hfollows := (h.passes worker pass hjob).portfolio portfolio hportfolio
  have hshows := hfollows.shows (version_of_recordsSettlement hrecords)
  exact ⟨hshows, hshows.settlement hbooked hposition hrecords⟩

/-- After a step the tables still show a portfolio of every agent. -/
theorem Projected.agree_step (h : runtime.Projected state) (action : WorkerAction) :
    (runtime.step state action).1.db.Agree := by
  have hstep := step_kept h.kept h.agree action
  intro agentId hsome
  by_cases hmoved : movedAgent (runtime.step state action).2 = some agentId
  · cases step_writes h.kept action with
    | nothing _ _ hnone =>
        rw [hnone] at hmoved
        cases hmoved
    | beside _ _ hnone =>
        rw [hnone] at hmoved
        cases hmoved
    | order _ hjob hanswered hcreated hrecords =>
        rw [hanswered] at hmoved
        simp only [movedAgent, Option.ite_none_right_eq_some, Option.some.injEq] at hmoved
        obtain ⟨⟨-, hfills⟩, rfl⟩ := hmoved
        obtain ⟨-, after, -, hshows⟩ := h.order hjob hrecords hfills
        rw [h.kept.agentId_of_decided hjob]
        exact ⟨after, hshows⟩
    | settlement _ hjob hloaded hanswered hcreated hsettles =>
        cases hsettles with
        | replayed hcreated' =>
            rw [hcreated] at hcreated'
            cases hcreated'
        | recorded _ hbooked hposition howned _ hrecords =>
            rw [hanswered] at hmoved
            simp only [movedAgent, hcreated, if_true, Option.some.injEq] at hmoved
            obtain ⟨-, hshows⟩ := h.settlement hjob hloaded hbooked hposition hrecords
            rw [← hmoved, hbooked.entry_agentId, howned]
            exact ⟨_, hshows⟩
  · obtain ⟨portfolio, -, hshows⟩ := h.agree.others hstep.transition hmoved hsome
    exact ⟨portfolio, hshows⟩

/-- After a step that knows the settlements it comes upon, the passes still have portfolios
that the tables show unless they have moved on. -/
theorem Projected.passes_step (h : runtime.Projected state) (hknows : KnowsSettlements state action)
    {pass : SettlementPass}
    (hjob : (runtime.step state action).1.jobs worker = .settling pass) :
    pass.Follows (runtime.step state action).1.db := by
  have hstep := step_kept h.kept h.agree action
  cases step_passFrom h.kept action hjob with
  | same hsame => exact (h.passes worker pass hsame).transition hstep.transition
  | opened hportfolio hengine =>
      constructor
      · intro portfolio hsome
        rw [hportfolio] at hsome
        cases hsome
      · intro key settled hstored
        rw [hengine] at hstored
        cases hstored
  | loaded hold hload hunchanged hpass =>
      have hfollows := (h.passes worker _ hold).transition hstep.transition
      subst hpass
      refine ⟨?_, hfollows.remembered⟩
      rintro _ ⟨⟩
      rw [hunchanged]
      exact (h.agree.shows_of_load hload).unlessMoved
  | @settled old portfolio after row rest clock engine record persisted haction hold hloaded hrows
      hanswered hengine hsettles hpass =>
      have hfollows := (h.passes worker old hold).transition hstep.transition
      have hafter : (runtime.step state action).1.db.ShowsUnlessMoved old.agentId after := by
        cases hsettles with
        | replayed _ hunchanged hexisting hrecalls =>
            rw [haction] at hknows
            obtain ⟨key, hstored⟩ := (hknows old row rest hold hrows).remembers hexisting hrecalls
            exact hfollows.remembered key _ hstored
        | recorded _ hbooked hposition _ _ hrecords =>
            exact (h.settlement hold hloaded hbooked hposition hrecords).2.unlessMoved
      subst hpass
      constructor
      · rintro _ ⟨⟩
        exact hafter
      · intro key settled hstored
        rcases hengine with rfl | ⟨learned, rfl⟩
        · exact hfollows.remembered key settled hstored
        · by_cases hkey : key = learned
          · subst hkey
            have hlearned := old.engine.stored_remember_self key (after, record)
            obtain rfl := Option.some.inj (hlearned.symm.trans hstored)
            exact hafter
          · have hkept := old.engine.stored_remember_of_ne hkey (after, record)
            exact hfollows.remembered key settled (hkept.symm.trans hstored)

theorem Projected.step (h : runtime.Projected state) (hknows : KnowsSettlements state action) :
    runtime.Projected (runtime.step state action).1 where
  kept := (step_kept h.kept h.agree action).kept
  agree := h.agree_step action
  passes _ _ hjob := h.passes_step hknows hjob

/-! ## What is loaded -/

/-- What a step makes of the portfolios that are loaded after it. -/
structure StepProjected (state : Workers) (action : WorkerAction)
    (reached : Workers × Except Raised WorkerEvent) : Prop where
  /-- The portfolio of every agent can be loaded. -/
  loads : ∀ agentId, (reached.1.db.portfolioVersion agentId).isSome = true →
    ∃ loaded, reached.1.db.loadContractPortfolio agentId = .ok loaded
  /-- The ledger has the cost of the rows. -/
  balanced : ∀ agentId, (reached.1.db.portfolioVersion agentId).isSome = true →
    reached.1.db.ledgerMismatch agentId = 0
  /-- A new order with fills is followed by the portfolio that it leaves. -/
  filled : ∀ decision persisted, reached.2 = .ok (.recorded decision persisted) →
    persisted.created = true → decision.result.fills ≠ [] →
      ∃ after loaded, decision.result.portfolioAfter = some after ∧
        reached.1.db.loadContractPortfolio decision.result.request.agentId = .ok loaded ∧
        loaded.Matches after
  /-- A new order without fills is followed by the portfolio it was decided on, when that is of
  the stored version. -/
  unfilled : ∀ decision persisted, reached.2 = .ok (.recorded decision persisted) →
    persisted.created = true → decision.result.fills = [] →
      ∃ after, decision.result.portfolioAfter = some after ∧
        (state.db.portfolioVersion decision.result.request.agentId = some after.version →
          ∃ loaded, reached.1.db.loadContractPortfolio decision.result.request.agentId =
              .ok loaded ∧ loaded.Matches after)
  /-- A new settlement is followed by the portfolio that its pass goes on with. -/
  settled : ∀ worker clock record persisted, action = .settle worker clock →
    reached.2 = .ok (.settled record persisted) → persisted.created = true →
      ∃ pass after loaded, reached.1.jobs worker = .settling pass ∧ pass.portfolio = some after ∧
        reached.1.db.loadContractPortfolio pass.agentId = .ok loaded ∧ loaded.Matches after
  /-- The agents whose books are not moved keep what is loaded. -/
  others : ∀ agentId, movedAgent reached.2 ≠ some agentId → ∀ loaded,
    state.db.loadContractPortfolio agentId = .ok loaded →
      ∃ reloaded, reached.1.db.loadContractPortfolio agentId = .ok reloaded ∧
        reloaded.Matches loaded

theorem Projected.stepProjected (h : runtime.Projected state) (action : WorkerAction) :
    StepProjected state action (runtime.step state action) := by
  have hstep := step_kept h.kept h.agree action
  have hwrites := step_writes h.kept action
  have hagree := h.agree_step action
  constructor
  case loads =>
    intro agentId hsome
    obtain ⟨portfolio, hshows⟩ := hagree agentId hsome
    exact hshows.load_isOk
  case balanced =>
    intro agentId hsome
    obtain ⟨portfolio, hshows⟩ := hagree agentId hsome
    exact hshows.ledgerMismatch_eq_zero
  case filled =>
    intro decision persisted hanswer hcreated hfills
    obtain ⟨worker, call, reservedId, portfolio, hjob, hrecords⟩ :=
      hwrites.order_of_recorded hanswer hcreated
    obtain ⟨-, after, hafter, hshows⟩ := h.order hjob hrecords hfills
    obtain ⟨loaded, hloaded, hmatches⟩ := hshows.load
    rw [h.kept.agentId_of_decided hjob]
    exact ⟨after, loaded, hafter, hloaded, hmatches⟩
  case unfilled =>
    intro decision persisted hanswer hcreated hfills
    obtain ⟨worker, call, reservedId, portfolio, hjob, hrecords⟩ :=
      hwrites.order_of_recorded hanswer hcreated
    have howned := h.kept.agentId_of_decided hjob
    have hsound := h.kept.jobs worker
    rw [hjob] at hsound
    obtain ⟨-, hdecides, loaded, hearlier, hloaded⟩ := hsound
    have hafter : decision.result.portfolioAfter = some portfolio := by
      cases hdecides.accounted with
      | unfilled _ _ hafter => exact hafter
      | filled hbooked =>
          obtain ⟨_, -, hbooked⟩ := applyOrderFills_spec hbooked
          exact absurd hfills hbooked.fills_ne_nil
    refine ⟨portfolio, hafter, ?_⟩
    rw [howned]
    intro hversion
    have hmoved : movedAgent (runtime.step state action).2 ≠ some call.agentId := by
      rw [hanswer]
      simp only [movedAgent, hfills, ne_eq, not_true_eq_false, and_false, if_false, reduceCtorEq,
        not_false_eq_true]
    have hshows := (hloaded.showsUnlessMoved hearlier).shows hversion
    obtain ⟨hsame, hbooks⟩ := hstep.transition.others call.agentId hmoved
    exact (hshows.of_books hsame hbooks).load
  case settled =>
    intro worker clock record persisted haction hanswer hcreated
    cases hwrites with
    | nothing _ _ hmoved =>
        rw [hanswer] at hmoved
        simp only [movedAgent, hcreated, if_true, reduceCtorEq] at hmoved
    | beside _ _ hmoved =>
        rw [hanswer] at hmoved
        simp only [movedAgent, hcreated, if_true, reduceCtorEq] at hmoved
    | order _ _ hanswered =>
        rw [hanswer] at hanswered
        cases hanswered
    | settlement haction' hjob hloaded _ hcreated' hsettles hgoesOn =>
        rw [haction] at haction'
        cases haction'
        obtain ⟨pass, hpass, hagent, hportfolio⟩ := hgoesOn
        cases hsettles with
        | replayed hcreated'' =>
            rw [hcreated'] at hcreated''
            cases hcreated''
        | recorded _ hbooked hposition _ _ hrecords =>
            obtain ⟨-, hshows⟩ := h.settlement hjob hloaded hbooked hposition hrecords
            obtain ⟨loaded, hload, hmatches⟩ := hshows.load
            rw [← hagent] at hload
            exact ⟨pass, _, loaded, hpass, hportfolio, hload, hmatches⟩
  case others =>
    intro agentId hmoved loaded hload
    obtain ⟨hsame, hbooks⟩ := hstep.transition.others agentId hmoved
    exact ((h.agree.shows_of_load hload).of_books hsame hbooks).load

/-! ## Runs -/

theorem Projected.atRest {start : Workers} (h : start.AtRest) (hagree : start.db.Agree) :
    runtime.Projected start where
  kept := h.kept
  agree := hagree
  passes worker pass hjob := by
    rw [h.jobs worker] at hjob
    cases hjob

theorem projected {start : Workers} (h : start.AtRest) (hagree : start.db.Agree)
    {actions : List WorkerAction}
    (hknows : Runs.Along runtime.step KnowsSettlements start actions) :
    runtime.Projected (Runs.final runtime.step start actions) :=
  Runs.final_of_along runtime.step (fun _ _ hprojected haction => hprojected.step haction)
    (.atRest h hagree) hknows

end Runtime

/-! ## Agents that have their capital -/

/-- The postings of an agent's capital, `_ensure_initial_capital`. -/
def initialCapitalPostings (initialCashMicros : ℤ) : List PostingRow := [
  ⟨"cash", initialCashMicros, none, none, none⟩,
  ⟨"owner_equity", -initialCashMicros, none, none, none⟩]

/-- Workers that have nothing to do, over tables in which nobody has traded: an agent has its
capital in the ledger and no position. -/
structure Workers.Bootstrapped (start : Workers) : Prop extends start.AtRest where
  capital : ∀ agentId version, start.db.portfolioVersion agentId = some version →
    agentId ≠ "" ∧ 0 ≤ version ∧ ∃ initialCashMicros, 0 < initialCashMicros ∧
      start.db.ledgerPostings agentId = initialCapitalPostings initialCashMicros
  positions : start.db.positions = []

/-- The tables of agents that have their capital show it. -/
theorem Workers.Bootstrapped.agree {start : Workers} (h : start.Bootstrapped) :
    start.db.Agree := by
  intro agentId hsome
  obtain ⟨version, hversion⟩ := Option.isSome_iff_exists.mp hsome
  obtain ⟨hnamed, hversion', cash, hcash, hpostings⟩ := h.capital agentId version hversion
  have hvalid : ContractPortfolioFields.postInit
      { agentId := agentId, cashMicros := cash, version := version } = .ok () :=
    ContractPortfolio.postInit_eq_ok_iff.mpr ⟨hnamed, hcash.le, hversion', .nil⟩
  have hnone (key : PositionKey) : start.db.position agentId key = none := by
    rw [Database.position, h.positions]
    rfl
  refine ⟨⟨_, hvalid⟩, rfl, hversion, ?_, ?_, ?_, ?_⟩
  · rw [hpostings]
    exact add_zero cash
  · intro key
    rw [Database.holding, hnone, ContractPortfolio.account_holding]
    rfl
  · intro dimensions
    have hcached : start.db.cachedBasis agentId dimensions = 0 := by
      unfold Database.cachedBasis
      split
      · rw [hnone]
        rfl
      · rfl
    rw [hcached, hpostings]
    rfl
  · intro position hmem
    cases hmem

namespace Runtime

end Runtime

namespace Sample

theorem workers_bootstrapped : workers.Bootstrapped where
  toAtRest := workers_atRest
  capital agentId version hversion := by
    obtain ⟨row, hrow, rfl⟩ := Option.map_eq_some_iff.mp hversion
    have hmem := KeyedList.mem_of_lookup_eq_some hrow
    have hagent : row.id = agentId := KeyedList.key_of_lookup_eq_some hrow
    obtain rfl := List.mem_singleton.mp hmem
    subst hagent
    exact ⟨by decide, le_refl _, 1000000000, by decide, rfl⟩
  positions := rfl

/-- A purchase, and a final observation that its position wins. -/
def observedPurchase : List WorkerAction := [
  .submit 0 (call smallPurchase "key" key_valid), .load 0 moment,
  .execute 0 0 (environment (freshContext deepBook rfl)), .persist 0, .observe resolutionRow,
  .openPass 1 "agent" ["resolution"] moment, .load 1 moment]

set_option maxRecDepth 10000 in
/-- A purchase is settled once. -/
theorem observedPurchase_knows :
    Runs.Along runtime.step Runtime.KnowsSettlements workers
      (observedPurchase ++ [.settle 1 moment]) := by
  have hnone : (Runs.final runtime.step workers observedPurchase).db.settlements = [] := by
    decide +kernel
  apply (Runs.along_append _ _ _ _).mpr
  refine ⟨⟨trivial, trivial, trivial, trivial, trivial, trivial, trivial, trivial⟩, ?_, trivial⟩
  intro pass row rest hjob hrows instant settlementTs hinstant hread
  rintro ⟨settlement, hmem, -⟩
  rw [hnone] at hmem
  cases hmem

end Sample

/-- The pass of a worker that settles. -/
def Job.pass : Job → Option SettlementPass
  | .idle => none
  | .reserved _ _ => none
  | .loaded _ _ _ => none
  | .decided _ _ _ _ => none
  | .settling pass => some pass

theorem Job.pass_eq_some {job : Job} {pass : SettlementPass} :
    job.pass = some pass ↔ job = .settling pass := by
  cases job with
  | settling other => exact ⟨fun h => by cases h; rfl, fun h => by cases h; rfl⟩
  | idle => simp [Job.pass]
  | reserved call reservation => simp [Job.pass]
  | loaded call reservedId portfolio => simp [Job.pass]
  | decided call reservedId portfolio decision => simp [Job.pass]

namespace Sample

/-- A sale of what the agent does not have waits until a purchase is recorded. -/
def lateRejection : List WorkerAction := [
  .submit 0 (call sale "key" key_valid), .submit 1 (call smallPurchase "other" other_valid),
  .load 0 moment, .load 1 moment,
  .execute 0 0 (environment (freshContext deepBook rfl)),
  .execute 1 1 (environment (freshContext deepBook rfl)), .persist 1]

def nextDay : Datetime := { moment with day := 2, date_valid := by decide }

/-- The row of a small purchase. -/
def purchasedRow (marketId : MarketKey) : PositionRow where
  agentId := "agent"
  marketId := marketId
  outcomeSide := .yes
  contractUnits := 100
  grossCostBasisMicros := 410000
  entryFeesMicros := 20000
  realizedPnlMicros := 0
  portfolioVersion := 2
  updatedAt := moment.instant

/-- The ledger entry of a small purchase. -/
def purchaseEntry (marketId : MarketKey) (id : String) : LedgerEntryRow where
  id := "ledger-order-" ++ id
  agentId := "agent"
  eventType := "paper_order_fill"
  sourceTable := "order_operations"
  sourceId := id
  idempotencyKey := "order-accounting:" ++ id
  postings := [⟨"cash", -430000, none, none, none⟩,
    ⟨"position_cost", 410000, some marketId, some .yes, some 100⟩,
    ⟨"fees", 20000, none, none, none⟩]

/-- Workers over the tables of an agent that has made a small purchase on two markets. -/
def holders : Workers where
  db := { untraded with
    agents := [⟨"agent", 2, false⟩]
    markets := [(market, []), (otherMarket, [])]
    ledgerEntries := [initialCapital, purchaseEntry market "first",
      purchaseEntry otherMarket "second"]
    positions := [purchasedRow market, purchasedRow otherMarket]
    positions_unique := by decide }
  brokers _ := .empty
  jobs _ := .idle

theorem same_otherMarket : otherMarket = otherMarket := rfl

def otherContext : MarketContext where
  market := { context.market with
    key := otherMarket
    snapshotId := "other market"
    status_lifecycle := active_isLifecycle
    reason_nonblank := no_text_isBlank
    feePolicy_complete := no_feeStatus }
  orderBook := { book with
    marketKey := otherMarket
    snapshotId := "other book" }
  same_market := same_otherMarket

def otherResolutionRow : ResolutionRow :=
  { resolutionRow with
    id := "other"
    marketId := otherMarket
    observedAt := nextDay.instant
    settlementTs := some nextDay.instant
    cutoff := nextDay.instant }

/-- A small purchase of an agent that holds both markets. -/
def purchaseAgain (worker : ℕ) (key : String)
    (h : Text.isBlank key = false ∧ key.toList.length ≤ 512) : List WorkerAction := [
  .submit worker { call smallPurchase key h with
    contexts := [(market, context), (otherMarket, otherContext)] },
  .load worker moment, .execute worker 0 (environment (freshContext deepBook rfl)),
  .persist worker]

/-- A pass looks up two positions; another one settles the first of them, and it is bought
again before the pass loads its portfolio.  The pass finds the first one settled, and then
another purchase takes the version that the pass has gone on to. -/
def rebought : List WorkerAction :=
  [.observe resolutionRow, .observe otherResolutionRow,
    .openPass 0 "agent" ["resolution", "other"] nextDay,
    .openPass 1 "agent" ["resolution"] nextDay, .load 1 nextDay, .settle 1 nextDay] ++
  purchaseAgain 2 "key" key_valid ++ [.load 0 nextDay, .settle 0 nextDay] ++
  purchaseAgain 3 "other" other_valid

end Sample

set_option maxRecDepth 10000 in
/-- A rejection that is recorded from an earlier version is not what is loaded. -/
theorem lateRejection_not_projected :
    ∃ decision persisted after loaded,
      (Sample.runtime.step (Runs.final Sample.runtime.step Sample.workers Sample.lateRejection)
        (.persist 0)).2 = .ok (.recorded decision persisted) ∧ persisted.created = true ∧
      decision.result.portfolioAfter = some after ∧
      (Runs.final Sample.runtime.step Sample.workers
        (Sample.lateRejection ++ [.persist 0])).db.loadContractPortfolio "agent" = .ok loaded ∧
      ¬ loaded.Matches after := by
  obtain ⟨event, hevent, htest⟩ := Checks.exists_ok_of_any
    (Sample.runtime.step (Runs.final Sample.runtime.step Sample.workers Sample.lateRejection)
      (.persist 0)).2
    (fun event => match event with
      | .proceeded => false
      | .reserved _ => false
      | .answered _ => false
      | .recorded decision persisted =>
          persisted.created && decision.result.portfolioAfter.any fun after => after.version = 0
      | .settled _ _ => false) (by decide +kernel)
  obtain ⟨loaded, hloaded, hversion⟩ := Checks.exists_ok_of_any
    ((Runs.final Sample.runtime.step Sample.workers
      (Sample.lateRejection ++ [.persist 0])).db.loadContractPortfolio "agent")
    (fun loaded => loaded.version = 1) (by decide +kernel)
  cases event with
  | recorded decision persisted =>
      rw [Bool.and_eq_true, Option.any_eq_true] at htest
      obtain ⟨hcreated, after, hafter, hzero⟩ := htest
      refine ⟨decision, persisted, after, loaded, hevent, hcreated, hafter, hloaded, ?_⟩
      intro hmatches
      have hequal := hmatches.version
      rw [of_decide_eq_true hversion, of_decide_eq_true hzero] at hequal
      cases hequal
  | proceeded => cases htest
  | reserved reservation => cases htest
  | answered result => cases htest
  | settled record persisted => cases htest

set_option maxRecDepth 10000 in
/-- A pass that came upon a settlement of another goes on from books that nobody has. -/
theorem rebought_not_projected :
    ∃ record persisted pass after loaded,
      (Sample.runtime.step (Runs.final Sample.runtime.step Sample.holders Sample.rebought)
        (.settle 0 Sample.nextDay)).2 = .ok (.settled record persisted) ∧
      persisted.created = true ∧
      (Runs.final Sample.runtime.step Sample.holders
        (Sample.rebought ++ [.settle 0 Sample.nextDay])).jobs 0 = .settling pass ∧
      pass.portfolio = some after ∧
      (Runs.final Sample.runtime.step Sample.holders
        (Sample.rebought ++ [.settle 0 Sample.nextDay])).db.loadContractPortfolio "agent" =
          .ok loaded ∧ ¬ loaded.Matches after := by
  rw [Runs.final_concat]
  have htest : (fun reached : Workers × Except Raised WorkerEvent =>
      reached.2.toOption.any fun event => match event with
        | .proceeded => false
        | .reserved _ => false
        | .answered _ => false
        | .recorded _ _ => false
        | .settled _ persisted =>
            persisted.created &&
              (reached.1.jobs 0).pass.any (fun pass =>
                pass.portfolio.any fun after => after.cashMicros = 1001710000) &&
              (reached.1.db.loadContractPortfolio "agent").toOption.any fun loaded =>
                loaded.cashMicros = 1000280000)
      (Sample.runtime.step (Runs.final Sample.runtime.step Sample.holders Sample.rebought)
        (.settle 0 Sample.nextDay)) = true := by
    decide +kernel
  obtain ⟨event, hevent, htest⟩ := Checks.exists_ok_of_any _ _ htest
  cases event with
  | settled record persisted =>
      rw [Bool.and_eq_true, Bool.and_eq_true] at htest
      obtain ⟨⟨hcreated, hpass⟩, hloads⟩ := htest
      obtain ⟨pass, hpass, hafter⟩ := (Option.any_eq_true _ _).mp hpass
      obtain ⟨after, hafter, hother⟩ := (Option.any_eq_true _ _).mp hafter
      obtain ⟨loaded, hloaded, hcash⟩ := Checks.exists_ok_of_any _ _ hloads
      refine ⟨record, persisted, pass, after, loaded, hevent, hcreated,
        Job.pass_eq_some.mp hpass, hafter, hloaded, ?_⟩
      intro hmatches
      have hequal := hmatches.cash
      rw [of_decide_eq_true hcash, of_decide_eq_true hother] at hequal
      cases hequal
  | proceeded => cases htest
  | reserved reservation => cases htest
  | answered result => cases htest
  | recorded decision persisted => cases htest

end VTrade
