/-
# Publishing a freeze

The repository publishes a freeze in one transaction.  Markets and the ranges of their price
grids are inserted once and never change.  The freeze of a cycle has its markets as members,
each with the state that is frozen for it: the one the freeze lists, or for a market that is
there for its resolution only, what the table of markets has.  The observations of the
resolutions come last.

A market that is known keeps its row whatever the venue says of it later, and so does every
range of its grid at its place.
-/

import VTrade.MarketFreeze
import VTrade.Resolution
import VTrade.Lib.Runs

namespace VTrade

structure MarketRow where
  marketId : MarketKey
  lifecycleStatus : MarketStatus
  eligible : Bool
  tradeable : Bool
  observedAt : Instant
  rawArtifact : Sha256
  deriving DecidableEq

structure MarketFreezeRow where
  id : String
  agentCycleId : String
  dataCutoff : Instant
  historicalCutoff : Instant
  catalogueArtifact : Sha256
  deriving DecidableEq

inductive MembershipType
  | discovery
  | resolution
  deriving DecidableEq

structure FreezeMembershipRow where
  freezeId : String
  marketId : MarketKey
  membershipType : MembershipType
  deriving DecidableEq

structure FrozenMarketStateRow where
  id : String
  freezeId : String
  marketId : MarketKey
  lifecycleStatus : MarketStatus
  eligible : Bool
  tradeable : Bool
  observedAt : Instant
  cutoff : Instant
  rawArtifact : Sha256
  deriving DecidableEq

/-- The tables that a freeze is published in, next to those of the books. -/
structure FreezeTables where
  db : Database
  markets : List MarketRow
  freezes : List MarketFreezeRow
  memberships : List FreezeMembershipRow
  states : List FrozenMarketStateRow
  deriving DecidableEq

/-- What `persist` is called with. -/
structure Publication where
  freeze : KalshiMarketFreeze
  agentCycleId : String
  /-- The artifacts that were persisted before. -/
  rawArtifacts : List Sha256
  publishedAt : Instant
  /-- What the rows of the other tables, the lease and the deadline come to. -/
  elsewhere : Except Raised Unit
  agentCycleId_uuid : ':' ∉ agentCycleId.toList

namespace KalshiMarketFreeze

variable (freeze : KalshiMarketFreeze)

/-- A market of a page, which has to agree with what the pages before say of it. -/
def collectMarket (markets : List FrozenMarket) (item : FrozenMarket) :
    Except Raised (List FrozenMarket) :=
  if (KeyedList.lookup (fun market => market.key) item.key markets).any (· ≠ item) then
    .error (.valueError "one market identity has conflicting freeze observations")
  else .ok (KeyedList.upsert (fun market => market.key) item markets)

/-- The markets of the pages and of the contexts, which come with their fee policies. -/
def markets : Except Raised (List FrozenMarket) := do
  let listed ← (freeze.pages.flatMap FrozenPage.markets).foldlM collectMarket []
  .ok (freeze.contexts.foldl (fun markets context =>
    KeyedList.upsert (fun market => market.key) context.toFrozenMarket markets) listed)

/-- `sorted(keys, key=canonical)` of a set. -/
def sortedKeys (keys : List MarketKey) : List MarketKey :=
  (KeyedList.firsts id keys).insertionSort fun first second => first.canonical ≤ second.canonical

def discoveryKeys : List MarketKey := freeze.contexts.map fun context => context.key

def resolutionKeys : List MarketKey :=
  freeze.resolutionMarketKeys ++ freeze.resolutions.map fun observation => observation.marketKey

/-- The markets of the freeze whose state is frozen. -/
def members : List MarketKey := sortedKeys (freeze.discoveryKeys ++ freeze.resolutionKeys)

end KalshiMarketFreeze

namespace Publication

variable (publication : Publication)

def freezeId : String := "vtrade:market-freeze:" ++ publication.agentCycleId

/-- The identifier of the state of a member. -/
def stateId (key : MarketKey) : String :=
  "vtrade:frozen-market-state:" ++ publication.freezeId ++ ":" ++ key.canonical

/-- `_artifact_id`. -/
def artifactId (artifact : RawArtifact) : Except Raised Sha256 :=
  if artifact.sha256 ∈ publication.rawArtifacts then .ok artifact.sha256
  else .error (.valueError ("raw artifact was not persisted: " ++ artifact.sha256.hex))

/-- The state of a member: what the freeze lists, or else what is known of the market. -/
def stateRow (markets : List FrozenMarket) (existing : List MarketRow) (key : MarketKey) :
    Except Raised FrozenMarketStateRow :=
  match KeyedList.lookup (fun market => market.key) key markets with
  | some market => do
      let artifact ← publication.artifactId market.audit
      .ok {
        id := publication.stateId key
        freezeId := publication.freezeId
        marketId := key
        lifecycleStatus := market.status
        eligible := market.eligible
        tradeable := market.tradeable
        observedAt := market.observedAt
        cutoff := publication.freeze.dataCutoff
        rawArtifact := artifact }
  | none =>
      match KeyedList.lookup MarketRow.marketId key existing with
      | none => .error (.valueError "freeze state market identity disappeared")
      | some row => .ok {
          id := publication.stateId key
          freezeId := publication.freezeId
          marketId := key
          lifecycleStatus := row.lifecycleStatus
          eligible := row.eligible
          tradeable := row.tradeable
          observedAt := row.observedAt
          cutoff := publication.freeze.dataCutoff
          rawArtifact := row.rawArtifact }

/-- The row of an observation. -/
def resolutionRow (observation : ResolutionEvidence) (artifact : Sha256) : ResolutionRow where
  id := "vtrade:resolution:" ++ observation.snapshotId
  marketId := observation.marketKey
  lifecycleStatus := observation.status
  result := observation.result
  observedAt := observation.observedAt
  sourceTimestamp := observation.sourceTimestamp.map fun value => value.1.instant
  settlementTs := observation.settlementTs.map Datetime.instant
  cutoff := publication.freeze.dataCutoff
  rawArtifactId := artifact.hex
  blocked := observation.blocked

def membershipRows : List FreezeMembershipRow :=
  (KalshiMarketFreeze.sortedKeys publication.freeze.discoveryKeys).map
      (fun key => ⟨publication.freezeId, key, .discovery⟩) ++
    (KalshiMarketFreeze.sortedKeys publication.freeze.resolutionKeys).map
      fun key => ⟨publication.freezeId, key, .resolution⟩

end Publication

/-! ## The tables -/

/-- A range at its place: `ON CONFLICT DO NOTHING`, where the places are taken in order. -/
def storeRange (stored : List PriceRange) (placed : PriceRange × ℕ) : List PriceRange :=
  if placed.2 < stored.length then stored else stored ++ [placed.1]

/-- The ranges of a grid, after those that are stored. -/
def storeGrid (stored : List PriceRange) (grid : PriceGrid) : List PriceRange :=
  grid.ranges.zipIdx.foldl storeRange stored

/-- `vtrade_assert_grid_is_ordered`. -/
def gridOrdered (ranges : List PriceRange) : Bool :=
  ranges.Pairwise fun first second => first.stop ≤ second.start

namespace Database

variable (db : Database)

/-- The rows of `market_price_grid_ranges` of a market. -/
def priceRanges (marketId : MarketKey) : List PriceRange :=
  (KeyedList.lookup Prod.fst marketId db.markets).elim [] Prod.snd

def storePriceGrid (marketId : MarketKey) (grid : PriceGrid) : Database :=
  { db with
    markets := KeyedList.upsert Prod.fst (marketId, storeGrid (db.priceRanges marketId) grid)
      db.markets }

/-- What `vtrade_assert_published_freeze` does to the cutoff of the cycle. -/
def finalizeCutoff (agentCycleId : String) (dataCutoff : Instant) : Except Raised Database :=
  match KeyedList.lookup CycleRow.id agentCycleId db.cycles with
  | none => .error (.databaseError "published freeze could not finalize its agent-cycle cutoff")
  | some row =>
      match row.dataCutoff with
      | none => .ok { db with
          cycles := KeyedList.upsert CycleRow.id { row with dataCutoff := some dataCutoff } db.cycles }
      | some cutoff =>
          if cutoff = dataCutoff then .ok db
          else .error (.databaseError "published freeze must match its finalized agent-cycle cutoff")

end Database

namespace FreezeTables

variable (tables : FreezeTables) (publication : Publication)

/-- `_persist_market`. -/
def persistMarket (market : FrozenMarket) : Except Raised FreezeTables := do
  let artifact ← publication.artifactId market.audit
  if 512 < market.key.marketRef.length then
    .error (.databaseError "markets_market_ref_check")
  else .ok { tables with
    markets := KeyedList.insertNew MarketRow.marketId {
      marketId := market.key
      lifecycleStatus := market.status
      eligible := market.eligible
      tradeable := market.tradeable
      observedAt := market.observedAt
      rawArtifact := artifact } tables.markets
    db := tables.db.storePriceGrid market.key market.priceGrid }

/-- The row of a market that the freeze does not list. -/
def existingMarket (key : MarketKey) : Except Raised MarketRow :=
  match KeyedList.lookup MarketRow.marketId key tables.markets with
  | none => .error (.valueError
      ("resolution market is neither in the catalogue nor persisted: " ++ key.marketRef))
  | some row => .ok row

def freezeOf (agentCycleId : String) : Option MarketFreezeRow :=
  KeyedList.lookup MarketFreezeRow.agentCycleId agentCycleId tables.freezes

/-- The row of the freeze, which a cycle has once. -/
def insertFreeze (catalogueArtifact : Sha256) : Except Raised FreezeTables :=
  let row : MarketFreezeRow := {
    id := publication.freezeId
    agentCycleId := publication.agentCycleId
    dataCutoff := publication.freeze.dataCutoff
    historicalCutoff := publication.freeze.historicalCutoff
    catalogueArtifact := catalogueArtifact }
  match tables.freezeOf publication.agentCycleId with
  | none => .ok { tables with freezes := tables.freezes ++ [row] }
  | some stored =>
      if stored = row then .ok tables
      else .error (.valueError "Kalshi freeze idempotency evidence conflicts")

/-- Insert the state of a member unless it is there: `vtrade_guard_freeze_child_cutoff` and the
checks come first. -/
def insertState (row : FrozenMarketStateRow) : Except Raised FreezeTables := do
  Checks.raiseFirst [
    ((KeyedList.lookup MarketFreezeRow.id row.freezeId tables.freezes).all
        (fun freeze => row.cutoff ≠ freeze.dataCutoff),
      .databaseError "freeze child record does not use the immutable freeze cutoff"),
    ((tables.db.evidence.artifact row.rawArtifact).all (fun artifact => row.cutoff < artifact.observedAt),
      .databaseError "freeze child record references evidence newer than its cutoff"),
    (row.cutoff < row.observedAt, .databaseError "frozen_market_states_check")]
  .ok { tables with states := KeyedList.insertNew FrozenMarketStateRow.id row tables.states }

/-- The state of one member. -/
def persistState (markets : List FrozenMarket) (existing : List MarketRow) (key : MarketKey) :
    Except Raised FreezeTables := do
  tables.insertState (← publication.stateRow markets existing key)

/-- One observation of a resolution. -/
def persistResolution (observation : ResolutionEvidence) : Except Raised FreezeTables := do
  let artifact ← publication.artifactId observation.audit
  let db ← tables.db.publishResolution (publication.resolutionRow observation artifact)
  .ok { tables with db := db }

/-- The checks that wait for the end of the transaction. -/
def commit (before : FreezeTables) (markets : List FrozenMarket) (catalogueArtifact : Sha256) :
    Except Raised FreezeTables := do
  Checks.raiseFirst [
    (markets.any fun market =>
        tables.db.priceRanges market.key ≠ before.db.priceRanges market.key ∧
          gridOrdered (tables.db.priceRanges market.key) = false,
      .databaseError "market has overlapping price-grid ranges")]
  if (before.freezeOf publication.agentCycleId).isSome then .ok tables
  else do
    let db ← tables.db.finalizeCutoff publication.agentCycleId publication.freeze.dataCutoff
    Checks.raiseFirst [
      ((db.evidence.artifact catalogueArtifact).all
          (fun artifact => publication.freeze.dataCutoff < artifact.observedAt),
        .databaseError "published freeze references evidence newer than its cutoff"),
      (¬ tables.memberships.any fun row => row.freezeId = publication.freezeId,
        .databaseError "published freeze has no discovery or resolution membership")]
    .ok { tables with db := db }

/-- The statements of `persist`, in their order. -/
def publish (firstPage : FrozenPage) (markets : List FrozenMarket) : Except Raised FreezeTables := do
  let catalogueArtifact ← publication.artifactId firstPage.audit
  let listed ← markets.foldlM (fun tables market => tables.persistMarket publication market) tables
  let missing := KalshiMarketFreeze.sortedKeys (publication.freeze.resolutionKeys.filter fun key =>
    (KeyedList.lookup (fun market : FrozenMarket => market.key) key markets).isNone)
  let existing ← missing.mapM listed.existingMarket
  let frozen ← listed.insertFreeze publication catalogueArtifact
  let members := { frozen with
    memberships := publication.membershipRows.foldl (fun rows row =>
      KeyedList.insertNew id row rows) frozen.memberships }
  let states ← publication.freeze.members.foldlM (fun tables key =>
    tables.persistState publication markets existing key) members
  let observed ← publication.freeze.resolutions.foldlM (fun tables observation =>
    tables.persistResolution publication observation) states
  publication.elsewhere
  observed.commit publication tables markets catalogueArtifact

/-- `persist`. -/
def persist : Except Raised FreezeTables := do
  match publication.freeze.pages with
  | [] => .error (.valueError "Kalshi freeze requires at least one catalogue page")
  | firstPage :: _ =>
      if publication.publishedAt < publication.freeze.dataCutoff then
        .error (.valueError "Kalshi freeze cannot be published before its data cutoff")
      else do
        tables.publish publication firstPage (← publication.freeze.markets)

end FreezeTables

/-! ## Histories -/

/-- What happens to the tables: a freeze is published, or other transactions write what only they
write. -/
inductive FreezeEvent
  | publish (publication : Publication)
  | elsewhere (db : Database)

/-- A transaction that fails leaves the tables as they were. -/
def FreezeTables.step (tables : FreezeTables) : FreezeEvent → FreezeTables × Except Raised Unit
  | .publish publication =>
      match tables.persist publication with
      | .ok next => (next, .ok ())
      | .error error => (tables, .error error)
  | .elsewhere db =>
      ({ tables with db := { db with
          markets := tables.db.markets
          resolutions := tables.db.resolutions } }, .ok ())

end VTrade
