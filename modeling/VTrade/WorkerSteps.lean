/-
# Step by step

What each step of the workers does, said once: what it reserves, what it records, whose
books it moves, and that it keeps the invariant.
-/

import VTrade.Lib.Runs
import VTrade.WorkerInvariant

namespace VTrade

/-! ## The engine of a pass -/

/-- What a settlement pass makes of a position: what its engine remembers, or a settlement
that is booked now, at the settlement time of the observation. -/
structure SettlementPass.Books (pass : SettlementPass) (portfolio : ContractPortfolio)
    (row : EligibleRow) (engine : BinarySettlementEngine) (after : ContractPortfolio)
    (record : SettlementRecord) (position : ContractPosition) (instant : Instant)
    (settlementTs : Datetime) : Prop where
  position_eq : portfolio.position row.key = some position
  units : position.contractUnits = row.contractUnits
  observed : row.observation.settlementTs = some instant
  read : Datetime.utc instant = some settlementTs
  booked : (pass.engine.stored
        (settlementKey portfolio.agentId position.marketRef settlementTs) = some (after, record) ∧
      engine = pass.engine) ∨
    (pass.engine.stored (settlementKey portfolio.agentId position.marketRef settlementTs) = none ∧
      ∃ result resolutionId settledAt, SettlementBooked portfolio position result settlementTs
        resolutionId settledAt after record ∧
      engine = pass.engine.remember
        (settlementKey portfolio.agentId position.marketRef settlementTs) (after, record))

theorem ResolutionRow.observe_settlementTs {row : ResolutionRow}
    {observation : ResolutionObservation} (h : row.observe = .ok observation) :
    ∃ instant settlementTs, row.settlementTs = some instant ∧
      Datetime.utc instant = some settlementTs ∧
      observation.settlementTs = some settlementTs := by
  unfold ResolutionRow.observe at h
  split at h
  · cases h
  next instant hinstant =>
    split at h
    next observedAt settlementTs hobserved hread =>
      cases h
      exact ⟨instant, settlementTs, hinstant, readTimestamp_eq_ok hread, rfl⟩
    next => cases h
    next => cases h

theorem SettlementPass.book_spec {pass : SettlementPass} {portfolio after : ContractPortfolio}
    {row : EligibleRow} {clock : Datetime} {engine : BinarySettlementEngine}
    {record : SettlementRecord}
    (h : pass.book portfolio row clock = .ok (engine, after, record)) :
    ∃ position instant settlementTs,
      pass.Books portfolio row engine after record position instant settlementTs := by
  unfold SettlementPass.book at h
  split at h
  · cases h
  next position hposition =>
    obtain ⟨hunits, h⟩ := Checks.ite_error_eq_ok.mp h
    obtain ⟨-, h⟩ := Checks.ite_error_eq_ok.mp h
    obtain ⟨observation, hobserve, h⟩ := Checks.bind_eq_ok.mp h
    obtain ⟨instant, settlementTs, hinstant, hread, hobserved⟩ :=
      ResolutionRow.observe_settlementTs hobserve
    dsimp only at h
    split at h
    next settled hsettled =>
      cases h
      obtain ⟨result, settlementTs', -, hts, -, -, hbooked⟩ :=
        BinarySettlementEngine.settle_spec _ hsettled
      obtain rfl : settlementTs = settlementTs' := Option.some.inj (hobserved.symm.trans hts)
      refine ⟨position, instant, settlementTs, hposition, not_not.mp hunits, hinstant, hread, ?_⟩
      rcases hbooked with hstored | ⟨hnone, hbooked, hengine⟩
      · exact Or.inl hstored
      · exact Or.inr ⟨hnone, result, _, _, bookSettlement_spec hbooked, hengine⟩
    next => cases h

/-- A new reservation leaves its worker with a key that nobody else has. -/
theorem Submission.Live.ofReservation {digests : Digests} {db next : Database} {call : Submission}
    {reservation : OrderIntentReservation}
    (h : Database.ReservesNew digests db call.request call.agentId call.cycleId next
      reservation) : call.Live next := by
  obtain ⟨frozenCutoff, -, -, rfl⟩ := h.submitted
  have howned := h.owned
  constructor
  · exact howned
  · refine KeyedList.isSome_lookup_iff.mpr ⟨intentRow digests call.request frozenCutoff, ?_, rfl⟩
    exact List.mem_append_right _ (List.mem_singleton_self _)
  · rw [Submission.key, howned]
    exact h.unexecuted

/-- How a pass comes by a settlement that is recorded already: its engine remembers it, or
does not, and has booked it anew. -/
inductive SettlementPass.Recalls (pass : SettlementPass) (row : EligibleRow)
    (after : ContractPortfolio) (record : SettlementRecord) : Prop
  | remembered {key : SettlementKey} (stored : pass.engine.stored key = some (after, record))
  | rebooked {instant : Instant} {settlementTs : Datetime}
      (observed : row.observation.settlementTs = some instant)
      (read : Datetime.utc instant = some settlementTs)
      (unknown : pass.engine.stored (settlementKey pass.agentId row.key.1 settlementTs) = none)
      (keyed : record.ledgerEntry.idempotencyKey =
        settlementIdempotencyKey pass.agentId row.key.1 settlementTs)

/-- A settlement that a pass has found recorded, or has recorded. -/
inductive SettlementPass.Settles (pass : SettlementPass) (digests : Digests) (db : Database)
    (portfolio : ContractPortfolio) (row : EligibleRow) (after : ContractPortfolio)
    (record : SettlementRecord) (persisted : PersistenceResult) (next : Database) : Prop
  | replayed (created : persisted.created = false) (unchanged : next = db)
      (existing : ∃ settlement ∈ db.settlements,
        settlement.idempotencyKey = record.ledgerEntry.idempotencyKey)
      (recalls : pass.Recalls row after record)
  | recorded (created : persisted.created = true) {position : ContractPosition}
      {result : OutcomeSide} {settlementTs : Datetime} {resolutionId : String}
      {settledAt : Datetime}
      (booked : SettlementBooked portfolio position result settlementTs resolutionId settledAt
        after record)
      (position_eq : portfolio.position row.key = some position)
      (owned : portfolio.agentId = pass.agentId)
      (keyed : ∃ instant, row.observation.settlementTs = some instant ∧
        Datetime.utc instant = some settlementTs)
      (records : Database.RecordsSettlement digests db record pass.agentId row.key
        row.observation.id portfolio after next)

/-- The settlement that the tables have of a position and an observation has the key that
the engine gives it. -/
theorem Database.SettlementsKeyed.idempotencyKey {db : Database} (h : db.SettlementsKeyed)
    {existing : SettlementRow} (hmem : existing ∈ db.settlements) {row : EligibleRow}
    {agentId : String} {instant : Instant} {settlementTs : Datetime}
    (hresolution : db.resolution row.observation.id = some row.observation)
    (hinstant : row.observation.settlementTs = some instant)
    (hread : Datetime.utc instant = some settlementTs)
    (hposition : existing.positionId = (agentId, row.key))
    (hobservation : existing.resolutionId = row.observation.id) :
    existing.idempotencyKey = settlementIdempotencyKey agentId row.key.1 settlementTs := by
  obtain ⟨observation, settlementTs', hfound, hts, hread', hkey⟩ := h existing hmem
  rw [hobservation, hresolution] at hfound
  obtain rfl := Option.some.inj hfound
  obtain rfl := Option.some.inj (hinstant.symm.trans hts)
  obtain rfl := Option.some.inj (hread.symm.trans hread')
  rw [hkey, hposition]

/-- A new settlement has the key that the engine gives it. -/
theorem Database.SettlementsKeyed.settle {db next : Database} (h : db.SettlementsKeyed)
    {digests : Digests}
    {pass : SettlementPass} {portfolio after : ContractPortfolio} {row : EligibleRow}
    {record : SettlementRecord} {persisted : PersistenceResult} (hsound : pass.Sound db)
    (hrow : row ∈ pass.rows)
    (hsettles : pass.Settles digests db portfolio row after record persisted next) :
    next.SettlementsKeyed := by
  cases hsettles with
  | replayed _ hunchanged =>
      rw [hunchanged]
      exact h
  | @recorded _ position _ settlementTs _ _ hbooked hposition howned hkeyed hrecords =>
      obtain ⟨instant, hinstant, hread⟩ := hkeyed
      have hkey : position.key = row.key := KeyedList.key_of_lookup_eq_some hposition
      intro settlement hmem
      rw [hrecords.settlements] at hmem
      have hresolution (id : String) : next.resolution id = db.resolution id := by
        rw [Database.resolution, hrecords.resolutions]
        rfl
      rw [hresolution]
      rcases List.mem_append.mp hmem with hold | hnew
      · exact h settlement hold
      · obtain rfl := List.mem_singleton.mp hnew
        obtain ⟨observation, result, hfound, hrests⟩ :=
          Database.restsOn_of_guardSettlement hrecords.guarded
        have hsame : row.observation = observation :=
          Option.some.inj ((hsound.rows row hrow).symm.trans hfound)
        have hts := hrests.settlementTs_eq
        rw [← hsame, hinstant] at hts
        refine ⟨observation, settlementTs, hfound, hrests.settlementTs_eq, ?_, ?_⟩
        · rw [← Option.some.inj hts]
          exact hread
        · change record.ledgerEntry.idempotencyKey = _
          rw [hbooked.entry_key, howned,
            show position.marketRef = row.key.1 from congrArg Prod.fst hkey]
          rfl

/-- A pass goes on with what its engine has learned, once that is recorded. -/
theorem SettlementPass.Sound.goesOn {pass : SettlementPass} {db next : Database}
    (h : pass.Sound db) {row : EligibleRow} {rest : List EligibleRow}
    (hrows : pass.rows = row :: rest) {recorded : Option (String × String)}
    {moved : Option String} (htransition : Database.Transition recorded moved db next)
    {engine : BinarySettlementEngine} {after : ContractPortfolio} {record : SettlementRecord}
    {settled : List PersistenceResult}
    (hengine : engine = pass.engine ∨ ∃ key, engine = pass.engine.remember key (after, record))
    (hrecorded : ∃ settlement ∈ next.settlements,
      settlement.idempotencyKey = record.ledgerEntry.idempotencyKey) :
    SettlementPass.Sound { pass with
      rows := rest
      portfolio := some after
      engine := engine
      settled := settled } next := by
  have hold : ∀ key settled, pass.engine.stored key = some settled →
      ∃ row ∈ next.settlements, row.idempotencyKey = settled.2.ledgerEntry.idempotencyKey := by
    intro key settled hstored
    obtain ⟨row, hmem, hrow⟩ := h.remembered key settled hstored
    exact ⟨row, htransition.settlements row hmem, hrow⟩
  constructor
  · intro other hmem
    apply htransition.resolutions
    apply h.rows
    rw [hrows]
    exact List.mem_cons_of_mem _ hmem
  · intro key settled hstored
    rcases hengine with hsame | ⟨learned, hlearned⟩
    · rw [hsame] at hstored
      exact hold key settled hstored
    · rw [hlearned] at hstored
      by_cases hkey : key = learned
      · subst hkey
        rw [BinarySettlementEngine.stored_remember_self] at hstored
        obtain rfl := Option.some.inj hstored
        exact hrecorded
      · rw [BinarySettlementEngine.stored_remember_of_ne _ hkey] at hstored
        exact hold key settled hstored

namespace Runtime

/-- What every step of the workers does. -/
structure StepKept (runtime : Runtime) (earlier : Database → Prop) (state : Workers)
    (action : WorkerAction) (reached : Workers × Except Raised WorkerEvent) : Prop where
  kept : reached.1.Kept runtime.digests earlier
  transition : Database.Transition (recordedKey reached.2) (movedAgent reached.2) state.db
    reached.1.db
  /-- What is reserved had no intent. -/
  reserves : ∀ key, reservedKey (action, reached.2) = some key →
    state.db.intent key.1 key.2 = none ∧ (reached.1.db.intent key.1 key.2).isSome = true
  /-- What is recorded had no operation. -/
  records : ∀ key, recordedKey reached.2 = some key →
    state.db.operation key.1 key.2 = none ∧ (reached.1.db.operation key.1 key.2).isSome = true

variable {runtime : Runtime} {earlier : Database → Prop} {state : Workers} {worker : ℕ}
  {action : WorkerAction}

/-- A step that says nothing of keys and agents. -/
theorem StepKept.silent {reached : Workers × Except Raised WorkerEvent}
    (hkept : reached.1.Kept runtime.digests earlier)
    (htransition : Database.Transition none none state.db reached.1.db)
    (hreserved : reservedKey (action, reached.2) = none) (hrecorded : recordedKey reached.2 = none)
    (hmoved : movedAgent reached.2 = none) :
    StepKept runtime earlier state action reached where
  kept := hkept
  transition := by rwa [hrecorded, hmoved]
  reserves key hkey := by
    rw [hreserved] at hkey
    cases hkey
  records key hkey := by
    rw [hrecorded] at hkey
    cases hkey

theorem reservedKey_error (error : Raised) : reservedKey (action, .error error) = none := by
  cases action <;> rfl

theorem reservedKey_proceeded : reservedKey (action, .ok .proceeded) = none := by
  cases action <;> rfl

/-- A step that does nothing. -/
theorem StepKept.idle (h : state.Kept runtime.digests earlier) :
    StepKept runtime earlier state action (state, .ok .proceeded) :=
  .silent h (.refl state.db) reservedKey_proceeded rfl rfl

/-- A call that raises and leaves the tables. -/
theorem StepKept.raised (h : state.Kept runtime.digests earlier) (error : Raised) :
    StepKept runtime earlier state action (state, .error error) :=
  .silent h (.refl state.db) (reservedKey_error error) rfl rfl

/-! ## Submitting -/

/-- A reservation that is not new and is not answered with a recorded order is answered with
a result of its own. -/
theorem earlyResult_isSome {digests : Digests} {db next : Database} {call : Submission}
    {reservation : OrderIntentReservation} (hintents : db.IntentsRecorded)
    (h : Database.ReservesNothing db call.agentId call.request.idempotencyKey next reservation)
    (hexisting : reservation.existingResult.isSome ≠ true) (portfolio : ContractPortfolio)
    (clock : Datetime) :
    (call.earlyResult digests reservation portfolio clock).isSome = true := by
  unfold Submission.earlyResult
  rcases h.reason with hexisting' | hconflict | hblocked | ⟨intent, hintent, hnone, hflight⟩
  · exact absurd hexisting' hexisting
  · simp only [hconflict, if_true, Option.isSome_some]
  · simp only [hblocked, if_true]
    split <;> rfl
  · have hkey : intent.key = (call.agentId, call.request.idempotencyKey) :=
      KeyedList.key_of_lookup_eq_some hintent
    have hopen : intent.status = .opened ∧ intent.operationId = none := by
      rcases hintents intent (KeyedList.mem_of_lookup_eq_some hintent) with hopen | hsome
      · exact hopen
      · rw [show intent.agentId = call.agentId from congrArg Prod.fst hkey,
          show intent.idempotencyKey = call.request.idempotencyKey from congrArg Prod.snd hkey,
          hnone] at hsome
        cases hsome
    rw [decide_eq_true (And.symm hopen)] at hflight
    simp only [hflight, if_true]
    split
    · rfl
    · split <;> rfl

theorem submit_kept (h : state.Kept runtime.digests earlier) (call : Submission) :
    StepKept runtime earlier state (.submit worker call) (runtime.submit state worker call) := by
  unfold submit
  split
  case h_2 => exact .idle h
  next hidle =>
  split
  · exact .raised h _
  split
  · exact .raised h _
  next db reservation hreserve =>
  have htransition := Database.Transition.reserve hreserve
  have hintents := h.intents.reserve hreserve
  have hnokey : (state.jobs worker).key = none := by
    rw [hidle]
    rfl
  rcases Database.prepareOrderIntent_spec hreserve with hnothing | hnew
  · have hcreated := hnothing.created
    have hunreserved : reservedKey (.submit worker call, .ok (.reserved reservation)) = none := by
      simp only [reservedKey, hcreated, Bool.false_eq_true, if_false]
    obtain rfl := hnothing.unchanged
    dsimp only
    split
    · exact .silent h (.refl state.db) hunreserved rfl rfl
    next hexisting =>
      refine .silent ?_ (.refl state.db) hunreserved rfl rfl
      refine h.advance (.refl state.db) (fun _ hsome => by cases hsome) hintents h.settlements
        (fun _ _ _ => rfl) ?_ ?_
      · exact Or.inr ⟨hcreated, earlyResult_isSome hintents hnothing hexisting⟩
      · intro key hkey
        rw [Job.key, hcreated] at hkey
        cases hkey
  · have hlive := Submission.Live.ofReservation hnew
    have howned := hnew.owned
    have hnone : state.db.intent call.key.1 call.key.2 = none := by
      rw [Submission.key, howned]
      exact hnew.unreserved
    have hexisting := hnew.existingResult
    simp only [hexisting, Option.isSome_none, Bool.false_eq_true, if_false]
    constructor
    · refine h.advance htransition (fun _ hsome => by cases hsome) hintents
        (h.settlements.transition htransition ?_) (fun _ _ _ => rfl) ?_ ?_
      · obtain ⟨frozenCutoff, -, -, rfl⟩ := hnew.submitted
        rfl
      · refine Or.inl ⟨hnew.created, hlive, ?_⟩
        intro executor
        rw [← Option.not_isSome_iff_eq_none]
        intro hsome
        have hknown := h.known executor call.key hsome
        rw [hnone] at hknown
        cases hknown
      · intro key hkey
        rw [Job.key, if_pos hnew.created] at hkey
        cases hkey
        exact Or.inr hnone
    · exact htransition
    · intro key hkey
      simp only [reservedKey, hnew.created, if_true, Option.some.injEq] at hkey
      subst hkey
      exact ⟨hnone, hlive.reserved⟩
    · intro key hkey
      cases hkey

/-! ## Loading -/

theorem load_kept (h : state.Kept runtime.digests earlier) (hnow : earlier state.db)
    (clock : Datetime) :
    StepKept runtime earlier state (.load worker clock) (runtime.load state worker clock) := by
  have hsound := h.jobs worker
  unfold load
  split
  next call reservation hjob =>
    rw [hjob] at hsound
    split
    · exact .silent h.done (.refl state.db) rfl rfl rfl
    next portfolio hload =>
    rcases hsound with ⟨hcreated, hlive, hnone⟩ | ⟨hcreated, hanswered⟩
    · split
      · exact .silent h.done (.refl state.db) rfl rfl rfl
      · exact .silent h.done (.refl state.db) rfl rfl rfl
      · refine .silent ?_ (.refl state.db) rfl rfl rfl
        refine h.advance (.refl state.db) (fun _ hsome => by cases hsome) h.intents h.settlements
          (fun _ _ _ => rfl) ?_ ?_
        · exact ⟨hlive, hnone, state.db, hnow, .self hload⟩
        · intro key hkey
          cases hkey
          rw [hjob]
          exact Or.inl (if_pos hcreated)
    · have hsome := hanswered portfolio clock
      split
      · exact .silent h.done (.refl state.db) rfl rfl rfl
      · exact .silent h.done (.refl state.db) rfl rfl rfl
      next hnone =>
        rw [hnone] at hsome
        cases hsome
  next pass hjob =>
    rw [hjob] at hsound
    split
    · refine .silent ?_ (.refl state.db) rfl rfl rfl
      exact h.advance (.refl state.db) (fun _ hsome => by cases hsome) h.intents h.settlements
        (fun _ _ _ => rfl) ⟨hsound.rows, hsound.remembered⟩ (fun _ hkey => by cases hkey)
    · exact .silent h.done (.refl state.db) rfl rfl rfl
    · exact .idle h
  next => exact .idle h

/-! ## Deciding -/

theorem execute_kept (h : state.Kept runtime.digests earlier) (executor : ℕ)
    (environment : ExecutionEnvironment) :
    StepKept runtime earlier state (.execute worker executor environment)
      (runtime.execute state worker executor environment) := by
  have hsound := h.jobs worker
  unfold execute
  split
  next call reservedId portfolio hjob =>
    rw [hjob] at hsound
    obtain ⟨hlive, hnone, loaded, hearlier, hloaded⟩ := hsound
    have hdecides (decision : Decision) := @ProductionSemanticOrderExecutor.decide_decides
      runtime.executor runtime.digests (state.brokers executor) call portfolio environment
      reservedId decision (hnone executor)
    have hlearned : ∀ other key, (state.jobs worker).key ≠ some key →
        (Function.update state.brokers executor (runtime.executor.decide runtime.digests
          (state.brokers executor) call portfolio environment reservedId).1 other).result key =
          (state.brokers other).result key := by
      intro other key hkey
      by_cases hother : other = executor
      · subst hother
        rw [Function.update_self]
        apply ProductionSemanticOrderExecutor.result_decide
        · intro hequal
          apply hkey
          rw [hjob, hequal]
          rfl
        · exact hnone other
      · rw [Function.update_of_ne hother]
    generalize runtime.executor.decide runtime.digests (state.brokers executor) call portfolio
      environment reservedId = decided at hdecides hlearned
    obtain ⟨broker, outcome⟩ := decided
    dsimp only at hdecides hlearned ⊢
    split
    · refine .silent ?_ (.refl state.db) rfl rfl rfl
      exact h.advance (.refl state.db) (fun _ hsome => by cases hsome) h.intents h.settlements
        hlearned trivial (fun _ hkey => by cases hkey)
    next decision =>
      refine .silent ?_ (.refl state.db) rfl rfl rfl
      refine h.advance (.refl state.db) (fun _ hsome => by cases hsome) h.intents h.settlements
        hlearned ⟨hlive, hdecides decision rfl, loaded, hearlier, hloaded⟩ ?_
      intro key hkey
      cases hkey
      rw [hjob]
      exact Or.inl rfl
  next => exact .idle h

/-! ## Recording -/

/-- An order is refused and nothing is written, or it is recorded, and was decided on the
portfolio that its worker has. -/
theorem persist_spec (h : state.Kept runtime.digests earlier) {call : Submission}
    {reservedId : String} {portfolio : ContractPortfolio} {decision : Decision}
    (hjob : state.jobs worker = .decided call reservedId portfolio decision) :
    (∃ error, runtime.persist state worker = (state.done worker, .error error)) ∨
      ∃ db persisted, runtime.persist state worker =
          ({ state with db := db }.done worker, .ok (.recorded decision persisted)) ∧
        persisted.created = true ∧
        Database.RecordsOrder runtime.digests state.db decision.result.toOrderResultFields
          call.agentId reservedId db := by
  have hsound := h.jobs worker
  rw [hjob] at hsound
  obtain ⟨hlive, hdecides, -⟩ := hsound
  unfold persist
  rw [hjob]
  dsimp only
  cases hpersist : state.db.persistOrderResult runtime.vocabulary runtime.digests decision.result
      call.agentId call.cycleId (some reservedId) decision.evidence with
  | error error => exact Or.inl ⟨error, rfl⟩
  | ok written =>
      obtain ⟨db, persisted⟩ := written
      obtain ⟨-, ⟨-, -, hsome⟩ | ⟨hcreated, hrecords⟩⟩ := Database.persistOrderResult_spec hpersist
      · have hnone := hlive.unrecorded
        rw [Submission.key, hlive.owned] at hnone
        rw [hdecides.request, hnone] at hsome
        cases hsome
      · exact Or.inr ⟨db, persisted, rfl, hcreated, hrecords⟩

theorem persist_kept (h : state.Kept runtime.digests earlier) :
    StepKept runtime earlier state (.persist worker) (runtime.persist state worker) := by
  cases hjob : state.jobs worker with
  | decided call reservedId portfolio decision =>
      have hsound := h.jobs worker
      rw [hjob] at hsound
      obtain ⟨hlive, hdecides, -⟩ := hsound
      rcases persist_spec h hjob with ⟨error, hequal⟩ | ⟨db, persisted, hequal, hcreated, hrecords⟩
      · rw [hequal]
        exact .silent h.done (.refl state.db) rfl rfl rfl
      have howned : decision.result.request.agentId = call.agentId := by
        rw [hdecides.request, hlive.owned]
      have hkey : decision.result.requestKey = call.key := by
        rw [OrderResultFields.requestKey, hdecides.request]
        rfl
      have htransition := Database.Transition.order hrecords howned
        (fun before after hfills hbefore hafter => 
          (hdecides.accounted.version hfills hbefore hafter).2)
      have hrecorded : recordedKey (.ok (.recorded decision persisted)) = some call.key := by
        simp only [recordedKey, hcreated, if_true, hkey]
      have hmoved : movedAgent (.ok (.recorded decision persisted)) =
          if decision.result.fills = [] then none else some call.agentId := by
        by_cases hfills : decision.result.fills = []
        · simp only [movedAgent, hfills, ne_eq, not_true_eq_false, and_false, if_false, if_true]
        · simp only [movedAgent, hcreated, hfills, ne_eq, not_false_eq_true, and_self, if_true,
            if_false, howned]
      have hcall : (call.agentId, decision.result.request.idempotencyKey) = call.key := by
        rw [Submission.key, hdecides.request, hlive.owned]
      rw [hcall] at htransition
      rw [hequal]
      constructor
      · refine h.advance htransition ?_ (h.intents.order hrecords htransition)
          (h.settlements.transition htransition hrecords.settlements) (fun _ _ _ => rfl) trivial
          (fun _ hsome => by cases hsome)
        intro key hsome
        cases hsome
        rw [hjob]
        rfl
      · rw [hrecorded, hmoved]
        exact htransition
      · intro key hsome
        cases hsome
      · intro key hsome
        rw [hrecorded] at hsome
        cases hsome
        refine ⟨hlive.unrecorded, KeyedList.isSome_lookup_iff.mpr
          ⟨operationRow runtime.digests decision.result.toOrderResultFields reservedId, ?_, hkey⟩⟩
        change _ ∈ db.operations
        rw [hrecords.operations]
        exact List.mem_append_right _ (List.mem_singleton_self _)
  | idle => simpa only [persist, hjob] using StepKept.idle h
  | reserved call reservation => simpa only [persist, hjob] using StepKept.idle h
  | loaded call reservedId portfolio => simpa only [persist, hjob] using StepKept.idle h
  | settling pass => simpa only [persist, hjob] using StepKept.idle h

/-! ## Settling -/

/-- A position is refused and nothing is written, or it is found settled or is settled. -/
theorem settle_spec (h : state.Kept runtime.digests earlier) {pass : SettlementPass}
    {portfolio : ContractPortfolio} {row : EligibleRow} {rest : List EligibleRow}
    (hjob : state.jobs worker = .settling pass) (hportfolio : pass.portfolio = some portfolio)
    (hrows : pass.rows = row :: rest) (clock : Datetime) :
    (∃ error, runtime.settle state worker clock = (state.done worker, .error error)) ∨
      ∃ engine after record db persisted,
        runtime.settle state worker clock = ({ state with db := db }.withJob worker
          (.settling { pass with
            rows := rest
            portfolio := some after
            engine := engine
            settled := pass.settled ++ [persisted] }), .ok (.settled record persisted)) ∧
        (engine = pass.engine ∨ ∃ key, engine = pass.engine.remember key (after, record)) ∧
        pass.Settles runtime.digests state.db portfolio row after record persisted db := by
  have hsound : pass.Sound state.db := by
    have hsound := h.jobs worker
    rw [hjob] at hsound
    exact hsound
  unfold settle
  rw [hjob]
  dsimp only
  rw [hportfolio, hrows]
  dsimp only
  cases hbook : pass.book portfolio row clock with
  | error error => exact Or.inl ⟨error, rfl⟩
  | ok booked =>
  obtain ⟨engine, after, record⟩ := booked
  obtain ⟨position, instant, settlementTs, hbooks⟩ := SettlementPass.book_spec hbook
  dsimp only
  cases hpersist : state.db.persistSettlementRecord runtime.vocabulary runtime.digests record
      pass.agentId row.key row.observation.id portfolio after with
  | error error => exact Or.inl ⟨error, rfl⟩
  | ok written =>
  obtain ⟨db, persisted⟩ := written
  obtain ⟨howned, -, hwritten⟩ := Database.persistSettlementRecord_spec hpersist
  have hengine : engine = pass.engine ∨
      ∃ key, engine = pass.engine.remember key (after, record) := by
    rcases hbooks.booked with ⟨-, hengine⟩ | ⟨-, _, _, _, -, hengine⟩
    · exact Or.inl hengine
    · exact Or.inr ⟨_, hengine⟩
  refine Or.inr ⟨engine, after, record, db, persisted, rfl, hengine, ?_⟩
  have hkey : position.key = row.key := KeyedList.key_of_lookup_eq_some hbooks.position_eq
  have hmarket : position.marketRef = row.key.1 := congrArg Prod.fst hkey
  rcases hwritten with ⟨hcreated, hunchanged, existing, hexisting⟩ | ⟨hcreated, hrecords⟩
  · rcases hbooks.booked with ⟨hstored, -⟩ | ⟨hnone, result, resolutionId, settledAt, hbooked, -⟩
    · exact .replayed hcreated hunchanged (hsound.remembered _ _ hstored) (.remembered hstored)
    · have hentry : record.ledgerEntry.idempotencyKey =
          settlementIdempotencyKey pass.agentId row.key.1 settlementTs := by
        rw [hbooked.entry_key, howned, hmarket]
      rw [howned, hmarket] at hnone
      refine .replayed hcreated hunchanged ?_
        (.rebooked hbooks.observed hbooks.read hnone hentry)
      have hmem := List.mem_of_find?_eq_some hexisting
      refine ⟨existing, hmem, ?_⟩
      have hfound := List.find?_some hexisting
      rcases of_decide_eq_true hfound with hsame | ⟨hposition, hobservation⟩
      · exact hsame
      · have hrow : row ∈ pass.rows := by
          rw [hrows]
          exact List.mem_cons_self
        rw [hentry, h.settlements.idempotencyKey hmem (hsound.rows row hrow) hbooks.observed
          hbooks.read hposition hobservation]
  · rcases hbooks.booked with ⟨hstored, -⟩ | ⟨-, result, resolutionId, settledAt, hbooked, -⟩
    · obtain ⟨existing, hmem, hsame⟩ := hsound.remembered _ _ hstored
      have hnone := List.find?_eq_none.mp hrecords.unrecorded existing hmem
      exact absurd (decide_eq_true (Or.inl hsame)) hnone
    · exact .recorded hcreated hbooked hbooks.position_eq howned
        ⟨instant, hbooks.observed, hbooks.read⟩ hrecords

theorem settle_kept (h : state.Kept runtime.digests earlier) (clock : Datetime) :
    StepKept runtime earlier state (.settle worker clock) (runtime.settle state worker clock) := by
  cases hjob : state.jobs worker with
  | settling pass =>
      have hsound : pass.Sound state.db := by
        have hsound := h.jobs worker
        rw [hjob] at hsound
        exact hsound
      cases hportfolio : pass.portfolio with
      | none => simpa only [settle, hjob, hportfolio] using StepKept.idle h
      | some portfolio =>
      cases hrows : pass.rows with
      | nil =>
          simp only [settle, hjob, hportfolio, hrows]
          exact .silent h.done (.refl state.db) rfl rfl rfl
      | cons row rest =>
      rcases settle_spec h hjob hportfolio hrows clock with ⟨error, hequal⟩ |
        ⟨engine, after, record, db, persisted, hequal, hengine, hsettles⟩
      · rw [hequal]
        exact .silent h.done (.refl state.db) rfl rfl rfl
      have hmem : row ∈ pass.rows := by
        rw [hrows]
        exact List.mem_cons_self
      have hkeyed := h.settlements.settle hsound hmem hsettles
      rw [hequal]
      cases hsettles with
      | replayed hcreated hunchanged hexisting =>
          have hmoved : movedAgent (.ok (.settled record persisted)) = none := by
            simp only [movedAgent, hcreated, Bool.false_eq_true, if_false]
          rw [hunchanged]
          refine .silent ?_ (.refl state.db) rfl rfl hmoved
          refine h.advance (.refl state.db) (fun _ hsome => by cases hsome) h.intents
            h.settlements (fun _ _ _ => rfl) ?_ (fun _ hsome => by cases hsome)
          exact hsound.goesOn hrows (.refl state.db) hengine hexisting
      | @recorded hcreated _ _ _ _ _ hbooked hposition howned hread hrecords =>
          have htransition := Database.Transition.settlement hrecords hbooked.version
          have hmoved : movedAgent (.ok (.settled record persisted)) = some pass.agentId := by
            simp only [movedAgent, hcreated, if_true, hbooked.entry_agentId, howned]
          constructor
          · refine h.advance htransition (fun _ hsome => by cases hsome)
              (h.intents.transition htransition hrecords.intents) hkeyed (fun _ _ _ => rfl) ?_
              (fun _ hsome => by cases hsome)
            refine hsound.goesOn hrows htransition hengine
              ⟨settlementRow runtime.digests record pass.agentId row.key row.observation.id, ?_,
                rfl⟩
            rw [hrecords.settlements]
            exact List.mem_append_right _ (List.mem_singleton_self _)
          · rw [hmoved]
            exact htransition
          · intro key hsome
            cases hsome
          · intro key hsome
            cases hsome
  | idle => simpa only [settle, hjob] using StepKept.idle h
  | reserved call reservation => simpa only [settle, hjob] using StepKept.idle h
  | loaded call reservedId portfolio => simpa only [settle, hjob] using StepKept.idle h
  | decided call reservedId portfolio decision => simpa only [settle, hjob] using StepKept.idle h

/-! ## The other steps -/

/-- The observations of the rows that a pass looks up are those of the tables. -/
theorem resolution_of_mem_eligible {db : Database} {agentId : String}
    {resolutionIds : List String} {cutoff : Instant} {row : EligibleRow}
    (h : row ∈ db.eligible agentId resolutionIds cutoff) :
    db.resolution row.observation.id = some row.observation := by
  obtain ⟨observation, hmem, hrow⟩ := List.mem_flatMap.mp h
  obtain ⟨position, -, rfl⟩ := List.mem_map.mp hrow
  rw [List.mem_insertionSort, List.mem_filter, List.mem_filterMap] at hmem
  obtain ⟨⟨id, -, hfound⟩, -⟩ := hmem
  have hid := List.find?_some hfound
  obtain rfl : observation.id = id := of_decide_eq_true hid
  exact hfound

theorem openPass_kept (h : state.Kept runtime.digests earlier) (agentId : String)
    (resolutionIds : List String) (cutoff : Datetime) :
    StepKept runtime earlier state (.openPass worker agentId resolutionIds cutoff)
      (openPass state worker agentId resolutionIds cutoff) := by
  unfold openPass
  split
  · refine .silent ?_ (.refl state.db) rfl rfl rfl
    refine h.advance (.refl state.db) (fun _ hsome => by cases hsome) h.intents h.settlements
      (fun _ _ _ => rfl) ?_ (fun _ hsome => by cases hsome)
    constructor
    · intro row hmem
      exact resolution_of_mem_eligible hmem
    · intro key settled hstored
      cases hstored
  · exact .idle h

/-- What each step of the workers does. -/
theorem step_kept (h : state.Kept runtime.digests earlier) (hnow : earlier state.db)
    (action : WorkerAction) :
    StepKept runtime earlier state action (runtime.step state action) := by
  cases action with
  | submit worker call => exact submit_kept h call
  | load worker clock => exact load_kept h hnow clock
  | execute worker executor environment => exact execute_kept h executor environment
  | persist worker => exact persist_kept h
  | openPass worker agentId resolutionIds cutoff =>
      exact openPass_kept h agentId resolutionIds cutoff
  | settle worker clock => exact settle_kept h clock
  | observe row =>
      unfold step
      dsimp only
      cases hobserve : state.db.persistResolution row with
      | error error => exact .raised h error
      | ok db =>
          have htransition := Database.Transition.observe hobserve
          obtain ⟨hintents, hsettlements, -⟩ := Database.persistResolution_tables hobserve
          exact .silent (h.aside htransition hintents hsettlements fun _ => Or.inl rfl)
            htransition rfl rfl rfl
  | pause agentId paused =>
      have htransition := @Database.Transition.pause state.db agentId paused
      exact .silent (h.aside htransition rfl rfl fun _ => Or.inl rfl) htransition rfl rfl rfl
  | reconcile operationId operationState reconciliation =>
      have htransition := @Database.Transition.reconcile state.db operationId operationState
        reconciliation
      exact .silent (h.aside htransition rfl rfl fun _ => Or.inl rfl) htransition rfl rfl rfl
  | stop worker => exact .silent h.done (.refl state.db) rfl rfl rfl
  | restart executor =>
      refine .silent (h.aside (.refl state.db) rfl rfl fun other => ?_) (.refl state.db) rfl rfl rfl
      by_cases hother : other = executor
      · exact Or.inr (by rw [hother, Function.update_self])
      · exact Or.inl (Function.update_of_ne hother _ _)

/-! ## What a step writes -/

/-- What a step of the workers writes: nothing, nothing to the books, an order or a
settlement. -/
inductive Writes (digests : Digests) (state : Workers) (action : WorkerAction)
    (reached : Workers × Except Raised WorkerEvent) : Prop
  | nothing (unchanged : reached.1.db = state.db) (recorded : recordedKey reached.2 = none)
      (moved : movedAgent reached.2 = none)
  | beside {event : WorkerEvent} (answered : reached.2 = .ok event)
      (recorded : recordedKey reached.2 = none) (moved : movedAgent reached.2 = none)
      (fills : reached.1.db.fills = state.db.fills)
      (ledgerEntries : reached.1.db.ledgerEntries = state.db.ledgerEntries)
      (positions : reached.1.db.positions = state.db.positions)
      (feeAllocations : reached.1.db.feeAllocations = state.db.feeAllocations)
  | order {worker : ℕ} {call : Submission} {reservedId : String} {portfolio : ContractPortfolio}
      {decision : Decision} {persisted : PersistenceResult} (action_eq : action = .persist worker)
      (job : state.jobs worker = .decided call reservedId portfolio decision)
      (answered : reached.2 = .ok (.recorded decision persisted))
      (created : persisted.created = true)
      (records : Database.RecordsOrder digests state.db decision.result.toOrderResultFields
        call.agentId reservedId reached.1.db)
  | settlement {worker : ℕ} {clock : Datetime} {pass : SettlementPass}
      {portfolio after : ContractPortfolio} {row : EligibleRow} {record : SettlementRecord}
      {persisted : PersistenceResult} (action_eq : action = .settle worker clock)
      (job : state.jobs worker = .settling pass) (loaded : pass.portfolio = some portfolio)
      (answered : reached.2 = .ok (.settled record persisted))
      (created : persisted.created = true)
      (settles : pass.Settles digests state.db portfolio row after record persisted reached.1.db)
      (goesOn : ∃ next, reached.1.jobs worker = .settling next ∧ next.agentId = pass.agentId ∧
        next.portfolio = some after)

theorem Writes.idle : Writes runtime.digests state action (state, .ok .proceeded) :=
  .nothing rfl rfl rfl

theorem submit_writes (call : Submission) :
    Writes runtime.digests state (.submit worker call) (runtime.submit state worker call) := by
  unfold submit
  split
  case h_2 => exact .idle
  split
  · exact .nothing rfl rfl rfl
  split
  · exact .nothing rfl rfl rfl
  next db reservation hreserve =>
  have htables : db.fills = state.db.fills ∧ db.ledgerEntries = state.db.ledgerEntries ∧
      db.positions = state.db.positions ∧ db.feeAllocations = state.db.feeAllocations := by
    rcases Database.prepareOrderIntent_spec hreserve with hnothing | hnew
    · rw [hnothing.unchanged]
      exact ⟨rfl, rfl, rfl, rfl⟩
    · obtain ⟨frozenCutoff, -, -, rfl⟩ := hnew.submitted
      exact ⟨rfl, rfl, rfl, rfl⟩
  obtain ⟨hfills, hledgerEntries, hpositions, hallocations⟩ := htables
  dsimp only
  split
  · exact .beside rfl rfl rfl hfills hledgerEntries hpositions hallocations
  · exact .beside rfl rfl rfl hfills hledgerEntries hpositions hallocations

theorem load_writes (clock : Datetime) :
    Writes runtime.digests state (.load worker clock) (runtime.load state worker clock) := by
  unfold load
  split
  · split
    · exact .nothing rfl rfl rfl
    · split
      · exact .nothing rfl rfl rfl
      · exact .nothing rfl rfl rfl
      · exact .nothing rfl rfl rfl
  · split
    · exact .nothing rfl rfl rfl
    · exact .nothing rfl rfl rfl
    · exact .idle
  · exact .idle

theorem execute_writes (executor : ℕ) (environment : ExecutionEnvironment) :
    Writes runtime.digests state (.execute worker executor environment)
      (runtime.execute state worker executor environment) := by
  unfold execute
  split
  · dsimp only
    split
    · exact .nothing rfl rfl rfl
    · exact .nothing rfl rfl rfl
  · exact .idle

theorem persist_writes (h : state.Kept runtime.digests earlier) :
    Writes runtime.digests state (.persist worker) (runtime.persist state worker) := by
  cases hjob : state.jobs worker with
  | decided call reservedId portfolio decision =>
      rcases persist_spec h hjob with ⟨error, hequal⟩ | ⟨db, persisted, hequal, hcreated, hrecords⟩
      · rw [hequal]
        exact .nothing rfl rfl rfl
      · rw [hequal]
        exact .order rfl hjob rfl hcreated hrecords
  | idle => simpa only [persist, hjob] using Writes.idle
  | reserved call reservation => simpa only [persist, hjob] using Writes.idle
  | loaded call reservedId portfolio => simpa only [persist, hjob] using Writes.idle
  | settling pass => simpa only [persist, hjob] using Writes.idle

theorem settle_writes (h : state.Kept runtime.digests earlier) (clock : Datetime) :
    Writes runtime.digests state (.settle worker clock) (runtime.settle state worker clock) := by
  cases hjob : state.jobs worker with
  | settling pass =>
      cases hportfolio : pass.portfolio with
      | none => simpa only [settle, hjob, hportfolio] using Writes.idle
      | some portfolio =>
      cases hrows : pass.rows with
      | nil =>
          simp only [settle, hjob, hportfolio, hrows]
          exact .nothing rfl rfl rfl
      | cons row rest =>
      rcases settle_spec h hjob hportfolio hrows clock with ⟨error, hequal⟩ |
        ⟨engine, after, record, db, persisted, hequal, -, hsettles⟩
      · rw [hequal]
        exact .nothing rfl rfl rfl
      rw [hequal]
      cases hcreated : persisted.created with
      | true =>
          exact .settlement rfl hjob hportfolio rfl hcreated hsettles
            ⟨_, Function.update_self worker _ state.jobs, rfl, rfl⟩
      | false =>
          cases hsettles with
          | replayed _ hunchanged =>
              refine .nothing hunchanged rfl ?_
              simp only [movedAgent, hcreated, Bool.false_eq_true, if_false]
          | recorded hcreated' =>
              rw [hcreated] at hcreated'
              cases hcreated'
  | idle => simpa only [settle, hjob] using Writes.idle
  | reserved call reservation => simpa only [settle, hjob] using Writes.idle
  | loaded call reservedId portfolio => simpa only [settle, hjob] using Writes.idle
  | decided call reservedId portfolio decision => simpa only [settle, hjob] using Writes.idle

/-- What each step of the workers writes. -/
theorem step_writes (h : state.Kept runtime.digests earlier) (action : WorkerAction) :
    Writes runtime.digests state action (runtime.step state action) := by
  cases action with
  | submit worker call => exact submit_writes call
  | load worker clock => exact load_writes clock
  | execute worker executor environment => exact execute_writes executor environment
  | persist worker => exact persist_writes h
  | openPass worker agentId resolutionIds cutoff =>
      unfold step openPass
      dsimp only
      split
      · exact .nothing rfl rfl rfl
      · exact .idle
  | settle worker clock => exact settle_writes h clock
  | observe row =>
      unfold step
      dsimp only
      cases hobserve : state.db.persistResolution row with
      | error error => exact .nothing rfl rfl rfl
      | ok db =>
          obtain ⟨-, -, hfills, hledgerEntries, hpositions, hallocations⟩ :=
            Database.persistResolution_tables hobserve
          exact .beside rfl rfl rfl hfills hledgerEntries hpositions hallocations
  | pause agentId paused => exact .beside rfl rfl rfl rfl rfl rfl rfl
  | reconcile operationId operationState reconciliation =>
      exact .beside rfl rfl rfl rfl rfl rfl rfl
  | stop worker => exact .nothing rfl rfl rfl
  | restart executor => exact .nothing rfl rfl rfl

end Runtime

end VTrade
