/-
# Runs of freezes

A run of publications, some of which fail, with whatever other transactions write in between.  The
tables reflect the publications that went through, in their order.

A market that leaves the catalogue is frozen as the catalogue first had it, whatever its resolution
is observed to be in the same freeze.  And a limit price is checked against the ranges that were
first published for its market, not against the grid that the order was executed on.
-/

import VTrade.FreezeHistory
import VTrade.FillRecording

namespace VTrade

/-! ## The publications of a run -/

/-- Tables without a publication. -/
def FreezeTables.start (db : Database) : FreezeTables :=
  ⟨{ db with markets := [] }, [], [], [], []⟩

/-- The publication of an event that went through. -/
def FreezeEvent.published : FreezeEvent → Except Raised Unit → Option Publication
  | .publish publication, .ok () => some publication
  | .publish _, .error _ => none
  | .elsewhere _, _ => none

namespace FreezeHistory

/-- The publications of a run that went through. -/
def published (seen : List (FreezeEvent × Except Raised Unit)) : List Publication :=
  seen.filterMap fun entry => entry.1.published entry.2

/-- The tables are what the publications have left. -/
structure Reflects (history : List Publication) (tables : FreezeTables) : Prop where
  known : ∀ key, tables.knownStatus key = firstStatus history key
  ranges : ∀ key (place : ℕ), (tables.db.priceRanges key)[place]? = firstRange history key place
  states : ∀ (publication : Publication) key, tables.stateStatus (publication.stateId key) =
    frozenStatus publication.agentCycleId key [] history

variable {history : List Publication} {tables next : FreezeTables} {publication : Publication}

theorem reflects_start (db : Database) : Reflects [] (.start db) := ⟨fun _ => rfl, fun _ _ => rfl,
  fun _ _ => rfl⟩

theorem Reflects.publish (h : Reflects history tables)
    (hpersist : tables.persist publication = .ok next) :
    Reflects (history ++ [publication]) next := by
  have hpublished := FreezeTables.persist_published hpersist
  refine ⟨?_, ?_, ?_⟩
  · intro key
    rw [hpublished.markets, h.known, firstStatus_concat]
  · intro key place
    rw [hpublished.ranges, h.ranges, firstRange_concat]
  · intro other key
    rw [hpublished.states, h.states, h.known, frozenStatus_concat, List.nil_append]

/-- What only other transactions write is of no account. -/
theorem Reflects.elsewhere (h : Reflects history tables) (db : Database) :
    Reflects history { tables with db := { db with
      markets := tables.db.markets
      resolutions := tables.db.resolutions } } :=
  ⟨h.known, h.ranges, h.states⟩

theorem published_concat (seen : List (FreezeEvent × Except Raised Unit)) (event : FreezeEvent)
    (answer : Except Raised Unit) :
    published (seen ++ [(event, answer)]) = published seen ++ (event.published answer).toList := by
  unfold published
  rw [List.filterMap_append, List.filterMap_cons]
  cases event.published answer with
  | none => rfl
  | some publication => rfl

theorem Reflects.step {seen : List (FreezeEvent × Except Raised Unit)}
    (h : Reflects (published seen) tables) (event : FreezeEvent) :
    Reflects (published (seen ++ [(event, (tables.step event).2)])) (tables.step event).1 := by
  rw [published_concat]
  cases event with
  | elsewhere db =>
      rw [FreezeTables.step, FreezeEvent.published, Option.toList_none, List.append_nil]
      exact h.elsewhere db
  | publish publication =>
      rw [FreezeTables.step]
      cases hpersist : tables.persist publication with
      | error error =>
          dsimp only
          rw [FreezeEvent.published, Option.toList_none, List.append_nil]
          exact h
      | ok next =>
          dsimp only
          rw [FreezeEvent.published, Option.toList_some]
          exact h.publish hpersist

/-- A publication that goes through is one of those of its run. -/
theorem mem_published {start : FreezeTables} (before after : List FreezeEvent)
    (h : ((Runs.final FreezeTables.step start before).step (.publish publication)).2 = .ok ()) :
    publication ∈
      published (Runs.trace FreezeTables.step start (before ++ .publish publication :: after)) := by
  unfold published
  rw [Runs.trace_append, Runs.trace, List.filterMap_append, List.filterMap_cons, h]
  exact List.mem_append_right _ List.mem_cons_self

/-- After a run the tables are what its publications have left. -/
theorem reflects_run (db : Database) (events : List FreezeEvent) :
    Reflects (published (Runs.trace FreezeTables.step (.start db) events))
      (Runs.final FreezeTables.step (.start db) events) :=
  Runs.final_invariant FreezeTables.step (fun seen tables => Reflects (published seen) tables)
    (reflects_start db) (fun _ _ event h => h.step event) events

end FreezeHistory

/-! ## The states of members -/

namespace Publication

variable (publication : Publication)

/-- A member that is there for its resolution only. -/
def ResolutionOnly (key : MarketKey) : Prop :=
  key ∈ publication.freeze.resolutionKeys ∧ publication.listing key = none

/-- A status is one that the freeze has observed of the market. -/
def Observes (key : MarketKey) (status : Option MarketStatus) : Prop :=
  ∃ observation ∈ publication.freeze.resolutions,
    observation.marketKey = key ∧ status = some observation.status

end Publication

/-- The members that are there for their resolution only are frozen as they were observed. -/
def FreezeTables.FrozenAsObserved (tables : FreezeTables) (publication : Publication) : Prop :=
  ∀ key, publication.ResolutionOnly key →
    publication.Observes key (tables.stateStatus (publication.stateId key))

/-- After a run, what is frozen of such members has been observed in the same freeze exactly when
each publication has observed the status that its cycle freezes: the one first listed before. -/
theorem frozenAsObserved_iff (db : Database) (events : List FreezeEvent) :
    (∀ publication ∈ FreezeHistory.published (Runs.trace FreezeTables.step (.start db) events),
      (Runs.final FreezeTables.step (.start db) events).FrozenAsObserved publication) ↔
    ∀ publication ∈ FreezeHistory.published (Runs.trace FreezeTables.step (.start db) events),
      ∀ key, publication.ResolutionOnly key → publication.Observes key
        (FreezeHistory.frozenStatus publication.agentCycleId key []
          (FreezeHistory.published (Runs.trace FreezeTables.step (.start db) events))) := by
  have hreflects := FreezeHistory.reflects_run db events
  apply forall₂_congr
  intro publication _
  unfold FreezeTables.FrozenAsObserved
  apply forall₂_congr
  intro key _
  rw [hreflects.states publication key]

/-! ## Limit prices -/

namespace Database

variable {db : Database} {result : OrderResultFields} {agentCycleId : String}

/-- The times of an order pass the guard of the operations. -/
def Timely (db : Database) (result : OrderResultFields) (agentCycleId : String) : Prop :=
  let frozenCutoff := result.request.frozenCutoff.getD result.submittedAt
  let cycleCutoff := (KeyedList.lookup CycleRow.id agentCycleId db.cycles).bind
    CycleRow.dataCutoff
  ¬ (cycleCutoff.all (· < frozenCutoff) ∨ result.updatedAt < frozenCutoff ∨
    result.submittedAt < frozenCutoff ∨ result.updatedAt < result.submittedAt)

instance : Decidable (db.Timely result agentCycleId) := inferInstanceAs (Decidable (¬ _))

/-- What the guard of the operations asks of a limit price. -/
theorem guardOperation_eq_ok_iff (h : db.Timely result agentCycleId) :
    db.guardOperation result agentCycleId = .ok () ↔
      ∀ price ∈ result.request.limitPriceMicros, ∃ (place : ℕ) (range : PriceRange),
        (db.priceRanges result.request.marketRef)[place]? = some range ∧
          range.contains price = true := by
  unfold guardOperation
  rw [Checks.raiseFirst_eq_ok_iff]
  simp only [List.forall_mem_cons, List.not_mem_nil, false_implies, implies_true, and_true]
  rw [decide_eq_false_iff_not]
  unfold Timely at h
  dsimp only at h ⊢
  rw [and_iff_right h]
  cases hprice : result.request.limitPriceMicros with
  | none => simp
  | some price =>
      simp only [Option.any_some, decide_not, Bool.not_eq_false', decide_eq_true_eq,
        List.any_eq_true, Option.mem_def, Option.some.injEq, forall_eq']
      constructor
      · rintro ⟨range, hmem, hcontains⟩
        obtain ⟨place, hplace⟩ := List.getElem?_of_mem hmem
        exact ⟨place, range, hplace, hcontains⟩
      · rintro ⟨place, range, hplace, hcontains⟩
        exact ⟨range, List.mem_of_getElem? hplace, hcontains⟩

end Database

/-- An order that the broker accepts on the current grid of its market passes the guard of the
database exactly when its limit price is on a range that was the first to be published for the
market at its place. -/
theorem guardOperation_after_iff (db : Database) (events : List FreezeEvent)
    {broker : BinaryPaperBroker} {result : OrderResultFields} {context : MarketContext}
    {now : Datetime} {agentCycleId : String}
    (hvalid : broker.validateContext result.request context now = .ok ())
    (htimely : (Runs.final FreezeTables.step (.start db) events).db.Timely result agentCycleId) :
    (Runs.final FreezeTables.step (.start db) events).db.guardOperation result agentCycleId =
        .ok () ↔
      ∀ price ∈ result.request.limitPriceMicros, ∃ (place : ℕ) (range : PriceRange),
        FreezeHistory.firstRange (FreezeHistory.published
            (Runs.trace FreezeTables.step (.start db) events)) context.market.key place =
          some range ∧ range.contains price = true := by
  have hmarket : context.market.key = result.request.marketRef := by
    unfold BinaryPaperBroker.validateContext at hvalid
    exact not_not.mp (Checks.ite_error_eq_ok.mp hvalid).1
  have hreflects := FreezeHistory.reflects_run db events
  rw [Database.guardOperation_eq_ok_iff htimely, hmarket]
  simp only [hreflects.ranges]

namespace Sample

/-! ## A market that changes -/

def artifactRow : RawArtifactRow := ⟨digest, 1, "artifact", none, moment.instant⟩

/-- The tables before any freeze, with two cycles. -/
def unfrozen : Database :=
  { untraded with
    cycles := [⟨"cycle", "agent", some moment.instant⟩, ⟨"later", "agent", some moment.instant⟩]
    evidence := ⟨[artifactRow], [], [], [], List.nodup_nil⟩ }

/-- The market of the samples with another grid. -/
def listedMarket (grid : PriceGrid) : FrozenMarket :=
  { context.market with
    priceGrid := grid
    details := ""
    observedAt := moment.instant
    audit := artifact }

theorem observation_nonblank : Text.isBlank "observation" = false := by decide

/-- The market has been determined. -/
def determinedResolution : ResolutionEvidence where
  marketKey := market
  status := .determined
  result := none
  observedAt := moment.instant
  settlementTs := none
  blocked := false
  snapshotId := "observation"
  settlementTs_aware := nofun
  incomplete_blocked := nofun
  snapshotId_nonblank := observation_nonblank
  sourceTimestamp := none
  audit := artifact

theorem determinedResolution_observed : ∀ observation ∈ [determinedResolution],
    observation.observedAt ≤ moment.instant ∧
      ∀ observed ∈ observation.audit.observedAt, observed ≤ moment.instant := by
  simp [determinedResolution, artifact]

theorem unresolved_observed : ∀ observation ∈ ([] : List ResolutionEvidence),
    observation.observedAt ≤ moment.instant ∧
      ∀ observed ∈ observation.audit.observedAt, observed ≤ moment.instant := by
  simp

/-- A freeze whose catalogue has these markets, and in which the market is held. -/
def heldFreeze (markets : List FrozenMarket) (resolutions : List ResolutionEvidence)
    (h : ∀ observation ∈ resolutions, observation.observedAt ≤ moment.instant ∧
      ∀ observed ∈ observation.audit.observedAt, observed ≤ moment.instant) :
    KalshiMarketFreeze where
  pages := [⟨markets, artifact⟩]
  historicalCutoff := moment.instant
  contexts := []
  resolutionMarketKeys := [market]
  resolutions := resolutions
  dataCutoff := moment.instant
  resolutions_observed := h

def publicationOf (agentCycleId : String) (huuid : ':' ∉ agentCycleId.toList)
    (freeze : KalshiMarketFreeze) : Publication where
  freeze := freeze
  agentCycleId := agentCycleId
  rawArtifacts := [digest]
  publishedAt := moment.instant
  elsewhere := .ok ()
  agentCycleId_uuid := huuid

theorem cycle_uuid : ':' ∉ "cycle".toList := by decide

theorem later_uuid : ':' ∉ "later".toList := by decide

def centPrices : PriceGrid := ⟨[cents], cents_ne_nil, cents_chain⟩

theorem halfCent_pos : (0 : ℤ) < 5000 := by decide

theorem halfCents_aligned : ((1000000 : ℤ) - 0) % 5000 = 0 := by decide

def halfCents : PriceRange := ⟨0, 1000000, 5000, cents_within, halfCent_pos, halfCents_aligned⟩

theorem halfCents_ne_nil : [halfCents] ≠ [] := List.cons_ne_nil _ _

theorem halfCents_chain :
    [halfCents].IsChain fun previous current => previous.stop ≤ current.start :=
  List.isChain_singleton _

/-- The prices of half cents. -/
def halfCentPrices : PriceGrid := ⟨[halfCents], halfCents_ne_nil, halfCents_chain⟩

/-- The market is listed with the prices of a grid. -/
def listedAs (agentCycleId : String) (huuid : ':' ∉ agentCycleId.toList) (grid : PriceGrid) :
    FreezeEvent :=
  .publish (publicationOf agentCycleId huuid
    (heldFreeze [listedMarket grid] [] unresolved_observed))

/-- The market has left the catalogue, and is determined. -/
def departure : Publication :=
  publicationOf "later" later_uuid
    (heldFreeze [] [determinedResolution] determinedResolution_observed)

end Sample

set_option maxRecDepth 10000 in
/-- A market that was active is still frozen as active in the freeze that has observed it to be
determined. -/
theorem frozenAsObserved_stale :
    ¬ ∀ (db : Database) (events : List FreezeEvent), ∀ publication ∈ FreezeHistory.published
        (Runs.trace FreezeTables.step (.start db) events),
      (Runs.final FreezeTables.step (.start db) events).FrozenAsObserved publication := by
  intro h
  have hmem : Sample.departure ∈ FreezeHistory.published (Runs.trace FreezeTables.step
      (.start Sample.unfrozen) [Sample.listedAs "cycle" Sample.cycle_uuid Sample.centPrices,
        .publish Sample.departure]) :=
    FreezeHistory.mem_published [Sample.listedAs "cycle" Sample.cycle_uuid Sample.centPrices] []
      (by decide +kernel)
  obtain ⟨observation, hobserved, -, hstatus⟩ := h _ _ _ hmem Sample.market
    ⟨by decide +kernel, rfl⟩
  have hone : observation = Sample.determinedResolution := List.mem_singleton.mp hobserved
  rw [hone] at hstatus
  revert hstatus
  decide +kernel

namespace Sample

theorem halfCent_limit : ∀ price ∈ some (415000 : ℤ), 0 ≤ price ∧ price ≤ 1000000 := by simp

/-- A purchase that is limited to a price of half cents. -/
def limitedPurchase : OrderRequest :=
  { smallPurchase with
    limitPriceMicros := some 415000
    limit_range := halfCent_limit }

/-- The market once its prices are half cents. -/
def halfCentContext : MarketContext where
  market := { context.market with
    priceGrid := halfCentPrices
    status_lifecycle := active_isLifecycle
    reason_nonblank := no_text_isBlank
    feePolicy_complete := no_feeStatus }
  orderBook := book
  same_market := same_sampleMarket

def limitedArguments : ExecutionArguments :=
  { arguments portfolio false with context := some halfCentContext }

/-- The prices of the market were whole cents before they were half cents. -/
def finerPrices : List FreezeEvent :=
  [listedAs "cycle" cycle_uuid centPrices, listedAs "later" later_uuid halfCentPrices]

/-- The tables after both grids have been published. -/
def refined : FreezeTables := Runs.final FreezeTables.step (.start unfrozen) finerPrices

end Sample

/-- An order that is filled at half cents is refused by the database, whose first grid for the
market was of whole cents. -/
theorem guardOperation_refuses_filled :
    ¬ ∀ (db : Database) (events : List FreezeEvent) (broker : BinaryPaperBroker)
      (result : OrderResultFields) (context : MarketContext) (now : Datetime)
      (agentCycleId : String), broker.validateContext result.request context now = .ok () →
        (Runs.final FreezeTables.step (.start db) events).db.Timely result agentCycleId →
          (Runs.final FreezeTables.step (.start db) events).db.guardOperation result
            agentCycleId = .ok () := by
  intro h
  obtain ⟨result, -, htest⟩ := Checks.exists_ok_of_any
    (Sample.broker.execute Sample.digests .empty Sample.limitedPurchase Sample.limitedArguments).2
    (fun result => decide (result.state = .filled ∧
      Sample.broker.validateContext result.request Sample.halfCentContext Sample.moment = .ok () ∧
      Sample.refined.db.Timely result.toOrderResultFields "later" ∧
      Sample.refined.db.guardOperation result.toOrderResultFields "later" ≠ .ok ()))
    (by decide +kernel)
  obtain ⟨-, hvalid, htimely, hrefused⟩ := of_decide_eq_true htest
  exact hrefused (h Sample.unfrozen Sample.finerPrices _ _ _ _ _ hvalid htimely)

theorem guardOperation_after_finerPrices :
    ∃ result, (Sample.broker.execute Sample.digests .empty Sample.limitedPurchase
        Sample.limitedArguments).2 = .ok result ∧
      (Sample.refined.db.guardOperation result.toOrderResultFields "later" = .ok () ↔
        ∀ price ∈ result.request.limitPriceMicros, ∃ (place : ℕ) (range : PriceRange),
          FreezeHistory.firstRange (FreezeHistory.published (Runs.trace FreezeTables.step
              (.start Sample.unfrozen) Sample.finerPrices))
            Sample.halfCentContext.market.key place = some range ∧ range.contains price = true) := by
  obtain ⟨result, hresult, htest⟩ := Checks.exists_ok_of_any
    (Sample.broker.execute Sample.digests .empty Sample.limitedPurchase Sample.limitedArguments).2
    (fun result => decide (
      Sample.broker.validateContext result.request Sample.halfCentContext Sample.moment = .ok () ∧
      Sample.refined.db.Timely result.toOrderResultFields "later"))
    (by decide +kernel)
  obtain ⟨hvalid, htimely⟩ := of_decide_eq_true htest
  exact ⟨result, hresult, guardOperation_after_iff Sample.unfrozen Sample.finerPrices hvalid
    htimely⟩

end VTrade
