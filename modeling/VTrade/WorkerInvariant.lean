/-
# What the workers keep true

A key is reserved for execution once, since intents stay, and only the worker that
reserved it decides on it and records it.  A portfolio that is loaded has the books of
its version: whoever moves the books moves the version too.  What a settlement pass
remembers is recorded.
-/

import VTrade.SettlementOutcome
import VTrade.Transitions
import VTrade.Workers

namespace VTrade

/-! ## What an answer says -/

/-- The key that a step has recorded an operation for. -/
def recordedKey : Except Raised WorkerEvent → Option (String × String)
  | .ok (.recorded decision persisted) =>
      if persisted.created then some decision.result.requestKey else none
  | _ => none

/-- The agent whose books a step has moved. -/
def movedAgent : Except Raised WorkerEvent → Option String
  | .ok (.recorded decision persisted) =>
      if persisted.created ∧ decision.result.fills ≠ [] then some decision.result.request.agentId
      else none
  | .ok (.settled record persisted) =>
      if persisted.created then some record.ledgerEntry.agentId else none
  | _ => none

/-- The key that a step has reserved. -/
def reservedKey : WorkerAction × Except Raised WorkerEvent → Option (String × String)
  | (.submit _ call, .ok (.reserved reservation)) =>
      if reservation.created then some call.key else none
  | _ => none

/-! ## The tables -/

namespace Database

/-- A portfolio of an agent that was loaded from earlier tables: as long as its version
is the stored one, the books are those it was loaded from. -/
structure LoadedFrom (loaded db : Database) (agentId : String) (portfolio : ContractPortfolio) :
    Prop where
  load : loaded.loadContractPortfolio agentId = .ok portfolio
  stored : ∃ version, db.portfolioVersion agentId = some version ∧ portfolio.version ≤ version ∧
    (version = portfolio.version → db.books agentId = loaded.books agentId)

/-- Every intent that is not open has an operation. -/
def IntentsRecorded (db : Database) : Prop :=
  ∀ row ∈ db.intents, (row.status = .opened ∧ row.operationId = none) ∨
    (db.operation row.agentId row.idempotencyKey).isSome = true

/-- The settlements are recorded under the keys that the engine gives them. -/
def SettlementsKeyed (db : Database) : Prop :=
  ∀ row ∈ db.settlements, ∃ observation settlementTs,
    db.resolution row.resolutionId = some observation ∧
      observation.settlementTs = some row.settlementTs ∧
      Datetime.utc row.settlementTs = some settlementTs ∧
      row.idempotencyKey =
        settlementIdempotencyKey row.positionId.1 row.positionId.2.1 settlementTs

variable {db next : Database} {recorded : Option (String × String)} {moved : Option String}

theorem LoadedFrom.self {agentId : String} {portfolio : ContractPortfolio}
    (h : db.loadContractPortfolio agentId = .ok portfolio) :
    db.LoadedFrom db agentId portfolio :=
  ⟨h, portfolio.version, version_of_load h, le_refl _, fun _ => rfl⟩

/-- Whoever moves the books moves the version. -/
theorem LoadedFrom.transition {loaded : Database} {agentId : String}
    {portfolio : ContractPortfolio} (h : loaded.LoadedFrom db agentId portfolio)
    (htransition : Transition recorded moved db next) :
    loaded.LoadedFrom next agentId portfolio := by
  obtain ⟨version, hversion, hle, hbooks⟩ := h.stored
  refine ⟨h.load, ?_⟩
  by_cases hmoved : moved = some agentId
  · obtain ⟨version', hversion', hnext⟩ := htransition.version agentId hmoved
    obtain rfl : version = version' := Option.some.inj (hversion.symm.trans hversion')
    refine ⟨version + 1, hnext, by omega, ?_⟩
    intro hequal
    omega
  · obtain ⟨hsame, hbooks'⟩ := htransition.others agentId hmoved
    refine ⟨version, hsame.trans hversion, hle, ?_⟩
    intro hequal
    exact hbooks'.trans (hbooks hequal)

/-- A step that leaves the intents leaves every final one with its operation. -/
theorem IntentsRecorded.transition (h : db.IntentsRecorded)
    (htransition : Transition recorded moved db next) (hintents : next.intents = db.intents) :
    next.IntentsRecorded := by
  intro row hmem
  rw [hintents] at hmem
  rcases h row hmem with hopen | hsome
  · exact Or.inl hopen
  · exact Or.inr (htransition.operations (row.agentId, row.idempotencyKey) hsome)

/-- A new intent is open. -/
theorem IntentsRecorded.reserve (h : db.IntentsRecorded) {digests : Digests}
    {request : OrderRequest} {agentId agentCycleId : String}
    {reservation : OrderIntentReservation}
    (hreserve : db.prepareOrderIntent digests request agentId agentCycleId =
      .ok (next, reservation)) : next.IntentsRecorded := by
  rcases prepareOrderIntent_spec hreserve with hnothing | hnew
  · rw [hnothing.unchanged]
    exact h
  · obtain ⟨frozenCutoff, -, -, rfl⟩ := hnew.submitted
    intro row hmem
    rcases List.mem_append.mp hmem with hold | hnew
    · exact h row hold
    · obtain rfl := List.mem_singleton.mp hnew
      exact Or.inl ⟨rfl, rfl⟩

/-- An intent is made final together with its operation. -/
theorem IntentsRecorded.order (h : db.IntentsRecorded) {digests : Digests}
    {result : OrderResultFields} {agentId operationId : String}
    (hrecords : RecordsOrder digests db result agentId operationId next)
    (htransition : Transition recorded moved db next) : next.IntentsRecorded := by
  intro row hmem
  rw [hrecords.intents] at hmem
  obtain ⟨old, hold, rfl⟩ := List.mem_map.mp hmem
  have hkept (h : (db.operation old.agentId old.idempotencyKey).isSome = true) :
      (next.operation old.agentId old.idempotencyKey).isSome = true :=
    htransition.operations (old.agentId, old.idempotencyKey) h
  split
  next hfinal =>
    refine Or.inr (KeyedList.isSome_lookup_iff.mpr ?_)
    refine ⟨operationRow digests result operationId, ?_, hfinal.1.symm⟩
    rw [hrecords.operations]
    exact List.mem_append_right _ (List.mem_singleton_self _)
  next =>
    rcases h old hold with hopen | hsome
    · exact Or.inl hopen
    · exact Or.inr (hkept hsome)

theorem SettlementsKeyed.transition (h : db.SettlementsKeyed)
    (htransition : Transition recorded moved db next)
    (hsettlements : next.settlements = db.settlements) : next.SettlementsKeyed := by
  intro row hmem
  rw [hsettlements] at hmem
  obtain ⟨observation, settlementTs, hobservation, hrest⟩ := h row hmem
  exact ⟨observation, settlementTs, htransition.resolutions _ _ hobservation, hrest⟩

end Database

/-! ## The workers -/

/-- An order that its worker alone may record. -/
structure Submission.Live (call : Submission) (db : Database) : Prop where
  owned : call.request.agentId = call.agentId
  reserved : (db.intent call.key.1 call.key.2).isSome = true
  unrecorded : db.operation call.key.1 call.key.2 = none

theorem Submission.Live.transition {call : Submission} {db next : Database}
    {recorded : Option (String × String)} {moved : Option String} (h : call.Live db)
    (htransition : Database.Transition recorded moved db next)
    (hrecorded : recorded ≠ some call.key) : call.Live next :=
  ⟨h.owned, htransition.intents _ h.reserved, htransition.unrecorded _ hrecorded h.unrecorded⟩

/-- What a settlement pass has looked up is still there, and what its engine remembers is
recorded. -/
structure SettlementPass.Sound (pass : SettlementPass) (db : Database) : Prop where
  rows : ∀ row ∈ pass.rows, db.resolution row.observation.id = some row.observation
  remembered : ∀ key settled, pass.engine.stored key = some settled →
    ∃ row ∈ db.settlements, row.idempotencyKey = settled.2.ledgerEntry.idempotencyKey

namespace Job

/-- The order that a worker may still record. -/
def key : Job → Option (String × String)
  | .reserved call reservation => if reservation.created then some call.key else none
  | .loaded call _ _ | .decided call _ _ _ => some call.key
  | .idle | .settling _ => none

/-- What holds of what a worker is doing, with the tables that were there before. -/
def Sound (digests : Digests) (earlier : Database → Prop) (db : Database)
    (brokers : ℕ → BrokerState) : Job → Prop
  | .idle => True
  | .reserved call reservation =>
      (reservation.created = true ∧ call.Live db ∧
        ∀ executor, (brokers executor).result call.key = none) ∨
      (reservation.created = false ∧ ∀ portfolio clock,
        (call.earlyResult digests reservation portfolio clock).isSome = true)
  | .loaded call _ portfolio =>
      call.Live db ∧ (∀ executor, (brokers executor).result call.key = none) ∧
        ∃ loaded, earlier loaded ∧ loaded.LoadedFrom db call.agentId portfolio
  | .decided call _ portfolio decision =>
      call.Live db ∧ decision.Decides call portfolio ∧
        ∃ loaded, earlier loaded ∧ loaded.LoadedFrom db call.agentId portfolio
  | .settling pass => pass.Sound db

variable {digests : Digests} {earlier : Database → Prop} {db next : Database}
  {brokers brokers' : ℕ → BrokerState} {job : Job} {recorded : Option (String × String)}
  {moved : Option String}

/-- A key that a worker may record has an intent. -/
theorem Sound.intent_isSome (h : job.Sound digests earlier db brokers) {key : String × String}
    (hkey : job.key = some key) : (db.intent key.1 key.2).isSome = true := by
  cases job with
  | idle => cases hkey
  | settling pass => cases hkey
  | reserved call reservation =>
      rcases h with ⟨hcreated, hlive, -⟩ | ⟨hcreated, -⟩
      · rw [Job.key, if_pos hcreated] at hkey
        cases hkey
        exact hlive.reserved
      · rw [Job.key, hcreated] at hkey
        cases hkey
  | loaded call reservedId portfolio =>
      cases hkey
      exact h.1.reserved
  | decided call reservedId portfolio decision =>
      cases hkey
      exact h.1.reserved

/-- What a worker is doing stays sound while others record other keys, and their brokers
learn of other keys only. -/
theorem Sound.transition (h : job.Sound digests earlier db brokers)
    (htransition : Database.Transition recorded moved db next)
    (hrecorded : ∀ key, job.key = some key → recorded ≠ some key)
    (hbrokers : ∀ executor key, job.key = some key → (brokers executor).result key = none →
      (brokers' executor).result key = none) : job.Sound digests earlier next brokers' := by
  cases job with
  | idle => trivial
  | reserved call reservation =>
      rcases h with ⟨hcreated, hlive, hnone⟩ | hanswered
      · have hkey : (Job.reserved call reservation).key = some call.key := if_pos hcreated
        refine Or.inl ⟨hcreated, hlive.transition htransition (hrecorded _ hkey), ?_⟩
        intro executor
        exact hbrokers executor _ hkey (hnone executor)
      · exact Or.inr hanswered
  | loaded call reservedId portfolio =>
      obtain ⟨hlive, hnone, loaded, hearlier, hloaded⟩ := h
      refine ⟨hlive.transition htransition (hrecorded _ rfl), ?_, loaded, hearlier,
        hloaded.transition htransition⟩
      intro executor
      exact hbrokers executor _ rfl (hnone executor)
  | decided call reservedId portfolio decision =>
      obtain ⟨hlive, hdecides, loaded, hearlier, hloaded⟩ := h
      exact ⟨hlive.transition htransition (hrecorded _ rfl), hdecides, loaded, hearlier,
        hloaded.transition htransition⟩
  | settling pass =>
      refine ⟨fun row hmem => htransition.resolutions _ _ (h.rows row hmem), ?_⟩
      intro key settled hstored
      obtain ⟨row, hmem, hrow⟩ := h.remembered key settled hstored
      exact ⟨row, htransition.settlements row hmem, hrow⟩

theorem Sound.mono {earlier' : Database → Prop} (h : job.Sound digests earlier db brokers)
    (hearlier : ∀ db, earlier db → earlier' db) : job.Sound digests earlier' db brokers := by
  cases job with
  | idle => trivial
  | reserved call reservation => exact h
  | loaded call reservedId portfolio =>
      obtain ⟨hlive, hnone, loaded, hloaded⟩ := h
      exact ⟨hlive, hnone, loaded, hearlier _ hloaded.1, hloaded.2⟩
  | decided call reservedId portfolio decision =>
      obtain ⟨hlive, hdecides, loaded, hloaded⟩ := h
      exact ⟨hlive, hdecides, loaded, hearlier _ hloaded.1, hloaded.2⟩
  | settling pass => exact h

end Job

/-- What every step keeps true of the workers, with the tables that were there before. -/
structure Workers.Kept (digests : Digests) (earlier : Database → Prop) (state : Workers) :
    Prop where
  intents : state.db.IntentsRecorded
  settlements : state.db.SettlementsKeyed
  known : ∀ executor key, ((state.brokers executor).result key).isSome = true →
    (state.db.intent key.1 key.2).isSome = true
  jobs : ∀ worker, (state.jobs worker).Sound digests earlier state.db state.brokers
  exclusive : ∀ first second, first ≠ second → ∀ key, (state.jobs first).key = some key →
    (state.jobs second).key ≠ some key

/-- Workers that have nothing to do, over tables that are written as they write them. -/
structure Workers.AtRest (state : Workers) : Prop where
  jobs : ∀ worker, state.jobs worker = .idle
  brokers : ∀ executor, state.brokers executor = .empty
  intents : state.db.IntentsRecorded
  settlements : state.db.SettlementsKeyed

namespace Workers

variable {digests : Digests} {earlier : Database → Prop} {state : Workers} {worker : ℕ}

theorem AtRest.kept (h : state.AtRest) : state.Kept digests earlier where
  intents := h.intents
  settlements := h.settlements
  known executor key hsome := by
    rw [h.brokers executor] at hsome
    cases hsome
  jobs worker := by
    rw [h.jobs worker]
    trivial
  exclusive first second _ key hkey := by
    rw [h.jobs first] at hkey
    cases hkey

theorem Kept.mono {earlier' : Database → Prop} (h : state.Kept digests earlier)
    (hearlier : ∀ db, earlier db → earlier' db) : state.Kept digests earlier' :=
  { h with jobs := fun worker => (h.jobs worker).mono hearlier }

/-- A step of one worker, which records at most its own key, and from whose brokers at most
its own key is learned. -/
theorem Kept.advance (h : state.Kept digests earlier) {db : Database}
    {brokers : ℕ → BrokerState} {job : Job} {recorded : Option (String × String)}
    {moved : Option String} (htransition : Database.Transition recorded moved state.db db)
    (hrecorded : ∀ key, recorded = some key → (state.jobs worker).key = some key)
    (hintents : db.IntentsRecorded) (hsettlements : db.SettlementsKeyed)
    (hlearned : ∀ executor key, (state.jobs worker).key ≠ some key →
      (brokers executor).result key = (state.brokers executor).result key)
    (hjob : job.Sound digests earlier db brokers)
    (hkey : ∀ key, job.key = some key → (state.jobs worker).key = some key ∨
      state.db.intent key.1 key.2 = none) :
    Kept digests earlier
      { db := db, brokers := brokers, jobs := Function.update state.jobs worker job } := by
  have hother : ∀ other, other ≠ worker → ∀ key, (state.jobs other).key = some key →
      (state.jobs worker).key ≠ some key := fun other hne key => h.exclusive other worker hne key
  have hnew : ∀ other, other ≠ worker → ∀ key, job.key = some key →
      (state.jobs other).key ≠ some key := by
    intro other hne key hself hsame
    rcases hkey key hself with hold | hnone
    · exact hother other hne key hsame hold
    · have hsome := (h.jobs other).intent_isSome hsame
      rw [hnone] at hsome
      cases hsome
  constructor
  · exact hintents
  · exact hsettlements
  · intro executor key hsome
    by_cases hown : (state.jobs worker).key = some key
    · exact htransition.intents key ((h.jobs worker).intent_isSome hown)
    · rw [hlearned executor key hown] at hsome
      exact htransition.intents key (h.known executor key hsome)
  · intro other
    by_cases hne : other = worker
    · subst hne
      simpa only [Function.update_self] using hjob
    · simp only [Function.update_of_ne hne]
      refine (h.jobs other).transition htransition ?_ ?_
      · intro key hsame hequal
        exact hother other hne key hsame (hrecorded key hequal)
      · intro executor key hsame hnone
        rw [hlearned executor key (hother other hne key hsame)]
        exact hnone
  · intro first second hne key hfirst
    by_cases hfirst' : first = worker
    · subst hfirst'
      simp only [Function.update_self] at hfirst
      simp only [Function.update_of_ne (Ne.symm hne)]
      exact hnew second (Ne.symm hne) key hfirst
    · simp only [Function.update_of_ne hfirst'] at hfirst
      by_cases hsecond : second = worker
      · subst hsecond
        simp only [Function.update_self]
        intro hself
        exact hnew first hfirst' key hself hfirst
      · simp only [Function.update_of_ne hsecond]
        exact h.exclusive first second hne key hfirst

/-- A step that leaves the workers at what they are doing. -/
theorem Kept.aside (h : state.Kept digests earlier) {db : Database} {brokers : ℕ → BrokerState}
    {moved : Option String} (htransition : Database.Transition none moved state.db db)
    (hintents : db.intents = state.db.intents)
    (hsettlements : db.settlements = state.db.settlements)
    (hforgets : ∀ executor, brokers executor = state.brokers executor ∨
      brokers executor = .empty) :
    Kept digests earlier { db := db, brokers := brokers, jobs := state.jobs } where
  intents := h.intents.transition htransition hintents
  settlements := h.settlements.transition htransition hsettlements
  known executor key hsome := by
    dsimp only at hsome
    rcases hforgets executor with hsame | hempty
    · rw [hsame] at hsome
      exact htransition.intents key (h.known executor key hsome)
    · rw [hempty] at hsome
      cases hsome
  jobs worker := by
    refine (h.jobs worker).transition htransition (fun key _ hsome => by cases hsome) ?_
    intro executor key _ hnone
    dsimp only
    rcases hforgets executor with hsame | hempty
    · rw [hsame]
      exact hnone
    · rw [hempty]
      rfl
  exclusive := h.exclusive

/-- A worker that puts a key down. -/
theorem Kept.done (h : state.Kept digests earlier) : (state.done worker).Kept digests earlier :=
  h.advance (.refl state.db) (fun _ hsome => by cases hsome) h.intents h.settlements
    (fun _ _ _ => rfl) trivial (fun _ hsome => by cases hsome)

end Workers

end VTrade
