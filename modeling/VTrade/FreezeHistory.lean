/-
# What a history of freezes leaves behind

The tables of markets, of ranges and of frozen states are functions of the publications that
went through, in their order.  A market has the row of the first publication that lists it; at
each place of its grid is the range that was the first to be published there; and a member has
the state that the first publication of its cycle with this member gave it.

One lemma for each statement of the transaction says what it writes; they are put together for a
whole publication, and by induction for a history.
-/

import VTrade.FreezePersistence
import Mathlib.Data.List.Induction

namespace VTrade

/-- The row of a market that is listed. -/
def FrozenMarket.row (market : FrozenMarket) : MarketRow where
  marketId := market.key
  lifecycleStatus := market.status
  eligible := market.eligible
  tradeable := market.tradeable
  observedAt := market.observedAt
  rawArtifact := market.audit.sha256

/-! ## What the publications say -/

namespace Publication

variable (publication : Publication)

/-- The market as the publication lists it. -/
def listing (key : MarketKey) : Option FrozenMarket :=
  publication.freeze.markets.toOption.bind fun markets =>
    KeyedList.lookup (fun market => market.key) key markets

/-- The status that is frozen for a member, given the status that the table of markets has. -/
def freezes (known : Option MarketStatus) (key : MarketKey) : Option MarketStatus :=
  if key ∈ publication.freeze.members then
    ((publication.listing key).map fun market => market.status).or known
  else none

end Publication

namespace FreezeHistory

/-- The market as the first of the publications that has it lists it. -/
def firstListing (history : List Publication) (key : MarketKey) : Option FrozenMarket :=
  history.findSome? fun publication => publication.listing key

/-- The range that was the first to be published for a market at a place of its grid. -/
def firstRange (history : List Publication) (key : MarketKey) (place : ℕ) : Option PriceRange :=
  history.findSome? fun publication =>
    (publication.listing key).bind fun market => market.priceGrid.ranges[place]?

/-- The status that was first listed for a market. -/
def firstStatus (history : List Publication) (key : MarketKey) : Option MarketStatus :=
  (firstListing history key).map fun market => market.status

/-- The status in the freeze of a cycle: that of the first of its publications which has the
market for a member, after the publications before. -/
def frozenStatus (agentCycleId : String) (key : MarketKey) :
    List Publication → List Publication → Option MarketStatus
  | _, [] => none
  | seen, publication :: rest =>
      (if publication.agentCycleId = agentCycleId then
        publication.freezes (firstStatus seen key) key
      else none).or (frozenStatus agentCycleId key (seen ++ [publication]) rest)

theorem firstListing_concat (history : List Publication) (publication : Publication)
    (key : MarketKey) : firstListing (history ++ [publication]) key =
      (firstListing history key).or (publication.listing key) := by
  unfold firstListing
  rw [List.findSome?_append]
  simp

theorem firstStatus_concat (history : List Publication) (publication : Publication)
    (key : MarketKey) : firstStatus (history ++ [publication]) key =
      (firstStatus history key).or
        ((publication.listing key).map fun market => market.status) := by
  unfold firstStatus
  rw [firstListing_concat, Option.map_or]

theorem firstRange_concat (history : List Publication) (publication : Publication)
    (key : MarketKey) (place : ℕ) : firstRange (history ++ [publication]) key place =
      (firstRange history key place).or
        ((publication.listing key).bind fun market => market.priceGrid.ranges[place]?) := by
  unfold firstRange
  rw [List.findSome?_append]
  simp

theorem frozenStatus_concat (agentCycleId : String) (key : MarketKey)
    (seen history : List Publication) (publication : Publication) :
    frozenStatus agentCycleId key seen (history ++ [publication]) =
      (frozenStatus agentCycleId key seen history).or
        (if publication.agentCycleId = agentCycleId then
          publication.freezes (firstStatus (seen ++ history) key) key
        else none) := by
  induction history generalizing seen with
  | nil => simp [frozenStatus]
  | cons first rest ih =>
      rw [List.cons_append, frozenStatus, frozenStatus, ih, Option.or_assoc, List.append_assoc,
        List.singleton_append]

end FreezeHistory

/-! ## Grids -/

theorem foldl_storeRange (ranges : List PriceRange) (stored : List PriceRange) (place : ℕ)
    (hplace : place ≤ stored.length) :
    (ranges.zipIdx place).foldl storeRange stored =
      stored ++ ranges.drop (stored.length - place) := by
  induction ranges generalizing stored place with
  | nil => simp
  | cons range rest ih =>
      rw [List.zipIdx_cons, List.foldl_cons, storeRange]
      split
      next hless =>
        have hleft : stored.length - place = stored.length - (place + 1) + 1 := by omega
        rw [ih stored (place + 1) hless, hleft, List.drop_succ_cons]
      next hnot =>
        have heq : stored.length = place := by omega
        rw [ih (stored ++ [range]) (place + 1) (by simp [heq]), heq, Nat.sub_self, List.drop_zero,
          List.length_append, heq, List.length_singleton, Nat.sub_self, List.drop_zero,
          List.append_assoc, List.singleton_append]

/-- The stored ranges stay where they are; a grid only adds places after them. -/
theorem getElem?_storeGrid (stored : List PriceRange) (grid : PriceGrid) (place : ℕ) :
    (storeGrid stored grid)[place]? = stored[place]?.or grid.ranges[place]? := by
  rw [storeGrid, foldl_storeRange _ _ _ (Nat.zero_le _), Nat.sub_zero]
  by_cases hplace : place < stored.length
  · rw [List.getElem?_append_left hplace, List.getElem?_eq_getElem hplace, Option.some_or]
  · rw [List.getElem?_append_right (Nat.le_of_not_lt hplace), List.getElem?_drop,
      Nat.add_sub_cancel' (Nat.le_of_not_lt hplace),
      List.getElem?_eq_none (Nat.le_of_not_lt hplace), Option.none_or]

namespace Database

variable (db : Database)

theorem priceRanges_storePriceGrid_self (key : MarketKey) (grid : PriceGrid) :
    (db.storePriceGrid key grid).priceRanges key = storeGrid (db.priceRanges key) grid := by
  conv_lhs => rw [priceRanges, storePriceGrid]
  rw [show key = Prod.fst (key, storeGrid (db.priceRanges key) grid) from rfl,
    KeyedList.lookup_upsert_self]
  rfl

theorem priceRanges_storePriceGrid_of_ne {key other : MarketKey} (h : key ≠ other)
    (grid : PriceGrid) : (db.storePriceGrid other grid).priceRanges key = db.priceRanges key := by
  rw [priceRanges, storePriceGrid, KeyedList.lookup_upsert_of_ne h]
  rfl

/-- After the grids of several markets, a market has its own next to what it had. -/
theorem getElem?_priceRanges_foldl {markets : List FrozenMarket}
    (unique : (markets.map fun market => market.key).Nodup) (key : MarketKey) (place : ℕ) :
    ((markets.foldl (fun db market => db.storePriceGrid market.key market.priceGrid)
        db).priceRanges key)[place]? =
      (db.priceRanges key)[place]?.or
        ((KeyedList.lookup (fun market => market.key) key markets).bind
          fun market => market.priceGrid.ranges[place]?) := by
  induction markets generalizing db with
  | nil => simp
  | cons market rest ih =>
      rw [List.map_cons, List.nodup_cons] at unique
      rw [List.foldl_cons, ih _ unique.2]
      by_cases hkey : market.key = key
      · subst hkey
        have hrest : KeyedList.lookup (fun market : FrozenMarket => market.key) market.key rest =
            none :=
          KeyedList.lookup_eq_none_iff.mpr fun other hother heq =>
            unique.1 (List.mem_map.mpr ⟨other, hother, heq⟩)
        rw [priceRanges_storePriceGrid_self, getElem?_storeGrid, hrest, Option.bind_none,
          Option.or_none, KeyedList.lookup_cons, if_pos rfl, Option.bind_some]
      · rw [priceRanges_storePriceGrid_of_ne db (Ne.symm hkey), KeyedList.lookup_cons,
          if_neg hkey]

theorem markets_publishResolution {row : ResolutionRow} {next : Database}
    (h : db.publishResolution row = .ok next) : next.markets = db.markets := by
  unfold publishResolution at h
  split at h
  · obtain ⟨-, -, h⟩ := Checks.bind_eq_ok.mp h
    cases h
    rfl
  · obtain ⟨-, rfl⟩ := insertResolution_cases h
    rfl

theorem markets_finalizeCutoff {agentCycleId : String} {dataCutoff : Instant} {next : Database}
    (h : db.finalizeCutoff agentCycleId dataCutoff = .ok next) :
    next.markets = db.markets ∧ next.resolutions = db.resolutions := by
  unfold finalizeCutoff at h
  split at h
  · cases h
  · split at h
    · cases h
      exact ⟨rfl, rfl⟩
    · split at h
      · cases h
        exact ⟨rfl, rfl⟩
      · cases h

end Database

/-! ## The markets of a freeze -/

namespace KalshiMarketFreeze

theorem markets_unique {freeze : KalshiMarketFreeze} {markets : List FrozenMarket}
    (h : freeze.markets = .ok markets) : (markets.map fun market => market.key).Nodup := by
  obtain ⟨listed, hlisted, hmarkets⟩ := Checks.bind_eq_ok.mp h
  cases hmarkets
  have hpages : (listed.map fun market => market.key).Nodup := by
    have hrun := Checks.foldlM_invariant
      (fun _ markets => (markets.map fun market : FrozenMarket => market.key).Nodup) []
      (fun _ markets item next _ hunique hstep => by
        obtain ⟨-, hstep⟩ := Checks.ite_error_eq_ok.mp hstep
        cases hstep
        exact KeyedList.nodup_upsert hunique item) hlisted
    exact hrun List.nodup_nil
  clear h hlisted
  induction freeze.contexts generalizing listed with
  | nil => exact hpages
  | cons context rest ih =>
      rw [List.foldl_cons]
      exact ih _ (KeyedList.nodup_upsert hpages _)

end KalshiMarketFreeze

/-! ## What a publication writes -/

namespace Publication

variable {publication : Publication}

theorem artifactId_eq_ok {artifact : RawArtifact} {sha256 : Sha256}
    (h : publication.artifactId artifact = .ok sha256) : sha256 = artifact.sha256 := by
  unfold artifactId at h
  split at h
  · cases h
    rfl
  · cases h

/-- The states of different cycles and of different members have different identifiers. -/
theorem stateId_inj {other : Publication} {key key' : MarketKey}
    (h : publication.stateId key = other.stateId key') :
    publication.agentCycleId = other.agentCycleId ∧ key = key' := by
  unfold stateId freezeId at h
  simp only [String.append_assoc, String.append_right_inj] at h
  have hlist := congrArg String.toList h
  rw [String.toList_append, String.toList_append, String.toList_append,
    String.toList_append] at hlist
  obtain ⟨hcycle, hkey⟩ := Text.cons_append_inj_of_not_mem publication.agentCycleId_uuid
    other.agentCycleId_uuid hlist
  exact ⟨String.toList_injective hcycle,
    MarketKey.canonical_injective (String.toList_injective hkey)⟩

/-- What the state of a member is taken from. -/
theorem stateRow_spec {markets : List FrozenMarket} {existing : List MarketRow} {key : MarketKey}
    {row : FrozenMarketStateRow} (h : publication.stateRow markets existing key = .ok row) :
    row.id = publication.stateId key ∧ some row.lifecycleStatus =
      ((KeyedList.lookup (fun market => market.key) key markets).map
        fun market => market.status).or
      ((KeyedList.lookup MarketRow.marketId key existing).map MarketRow.lifecycleStatus) := by
  unfold stateRow at h
  split at h
  next market hmarket =>
    obtain ⟨artifact, -, h⟩ := Checks.bind_eq_ok.mp h
    cases h
    rw [hmarket]
    exact ⟨rfl, rfl⟩
  next hmarket =>
    split at h
    · cases h
    next known hknown =>
      cases h
      rw [hmarket, hknown]
      exact ⟨rfl, rfl⟩

end Publication

namespace FreezeTables

variable {tables next : FreezeTables} {publication : Publication}

theorem persistMarket_eq {market : FrozenMarket}
    (h : tables.persistMarket publication market = .ok next) :
    next = { tables with
      markets := KeyedList.insertNew MarketRow.marketId market.row tables.markets
      db := tables.db.storePriceGrid market.key market.priceGrid } := by
  obtain ⟨artifact, hartifact, h⟩ := Checks.bind_eq_ok.mp h
  obtain ⟨-, h⟩ := Checks.ite_error_eq_ok.mp h
  cases h
  rw [Publication.artifactId_eq_ok hartifact]
  rfl

theorem insertFreeze_eq {catalogueArtifact : Sha256}
    (h : tables.insertFreeze publication catalogueArtifact = .ok next) :
    ∃ freezes, next = { tables with freezes := freezes } := by
  unfold insertFreeze at h
  dsimp only at h
  split at h
  · cases h
    exact ⟨_, rfl⟩
  · split at h
    · cases h
      exact ⟨_, rfl⟩
    · cases h

theorem persistState_eq {markets : List FrozenMarket} {existing : List MarketRow} {key : MarketKey}
    (h : tables.persistState publication markets existing key = .ok next) :
    ∃ row, publication.stateRow markets existing key = .ok row ∧ next = { tables with
      states := KeyedList.insertNew FrozenMarketStateRow.id row tables.states } := by
  obtain ⟨row, hrow, h⟩ := Checks.bind_eq_ok.mp h
  obtain ⟨-, -, h⟩ := Checks.bind_eq_ok.mp h
  cases h
  exact ⟨row, hrow, rfl⟩

theorem persistResolution_eq {observation : ResolutionEvidence}
    (h : tables.persistResolution publication observation = .ok next) :
    tables.db.publishResolution
        (publication.resolutionRow observation observation.audit.sha256) = .ok next.db ∧
      next = { tables with db := next.db } := by
  obtain ⟨artifact, hartifact, h⟩ := Checks.bind_eq_ok.mp h
  obtain ⟨db, hdb, h⟩ := Checks.bind_eq_ok.mp h
  cases h
  rw [Publication.artifactId_eq_ok hartifact] at hdb
  exact ⟨hdb, rfl⟩

theorem commit_eq {before : FreezeTables} {markets : List FrozenMarket} {catalogueArtifact : Sha256}
    (h : tables.commit publication before markets catalogueArtifact = .ok next) :
    next = { tables with db := next.db } ∧ next.db.markets = tables.db.markets ∧
      next.db.resolutions = tables.db.resolutions := by
  obtain ⟨-, -, h⟩ := Checks.bind_eq_ok.mp h
  split at h
  · cases h
    exact ⟨rfl, rfl, rfl⟩
  · obtain ⟨db, hdb, h⟩ := Checks.bind_eq_ok.mp h
    obtain ⟨-, -, h⟩ := Checks.bind_eq_ok.mp h
    cases h
    obtain ⟨hmarkets, hresolutions⟩ := Database.markets_finalizeCutoff _ hdb
    exact ⟨rfl, hmarkets, hresolutions⟩

end FreezeTables

/-! ## A whole publication -/

namespace Database

/-- The ranges of a market depend on the table of markets only. -/
theorem priceRanges_congr {db other : Database} (h : db.markets = other.markets)
    (key : MarketKey) : db.priceRanges key = other.priceRanges key := by
  rw [priceRanges, h, priceRanges]

end Database

namespace FreezeTables

variable {tables next : FreezeTables} {publication : Publication}

/-- The status that the table of markets has. -/
def knownStatus (tables : FreezeTables) (key : MarketKey) : Option MarketStatus :=
  (KeyedList.lookup MarketRow.marketId key tables.markets).map MarketRow.lifecycleStatus

/-- The status that is frozen in the state of a member. -/
def stateStatus (tables : FreezeTables) (stateId : String) : Option MarketStatus :=
  (KeyedList.lookup FrozenMarketStateRow.id stateId tables.states).map
    FrozenMarketStateRow.lifecycleStatus

theorem persistMarkets_eq {markets : List FrozenMarket}
    (h : markets.foldlM (fun tables market => tables.persistMarket publication market) tables =
      .ok next) :
    next = { tables with
      markets := (markets.map FrozenMarket.row).foldl
        (fun kept row => KeyedList.insertNew MarketRow.marketId row kept) tables.markets
      db := markets.foldl (fun db market => db.storePriceGrid market.key market.priceGrid)
        tables.db } := by
  induction markets generalizing tables with
  | nil =>
      cases h
      rfl
  | cons market rest ih =>
      obtain ⟨middle, hfirst, hrest⟩ := Checks.foldlM_cons_eq_ok.mp h
      rw [ih hrest, persistMarket_eq hfirst]
      rfl

theorem persistStates_eq {markets : List FrozenMarket} {existing : List MarketRow}
    {keys : List MarketKey}
    (h : keys.foldlM (fun tables key => tables.persistState publication markets existing key)
      tables = .ok next) :
    ∃ rows, keys.mapM (publication.stateRow markets existing) = .ok rows ∧ next = { tables with
      states := rows.foldl (fun kept row => KeyedList.insertNew FrozenMarketStateRow.id row kept)
        tables.states } := by
  induction keys generalizing tables with
  | nil =>
      cases h
      exact ⟨[], rfl, rfl⟩
  | cons key rest ih =>
      obtain ⟨middle, hfirst, hrest⟩ := Checks.foldlM_cons_eq_ok.mp h
      obtain ⟨row, hrow, rfl⟩ := persistState_eq hfirst
      obtain ⟨rows, hrows, rfl⟩ := ih hrest
      refine ⟨row :: rows, ?_, rfl⟩
      rw [Checks.mapM_eq_ok_iff] at hrows ⊢
      exact .cons hrow hrows

theorem persistResolutions_eq {observations : List ResolutionEvidence}
    (h : observations.foldlM (fun tables observation =>
      tables.persistResolution publication observation) tables = .ok next) :
    next = { tables with db := next.db } ∧ next.db.markets = tables.db.markets := by
  induction observations generalizing tables with
  | nil =>
      cases h
      exact ⟨rfl, rfl⟩
  | cons observation rest ih =>
      obtain ⟨middle, hfirst, hrest⟩ := Checks.foldlM_cons_eq_ok.mp h
      obtain ⟨hdb, hmiddle⟩ := persistResolution_eq hfirst
      obtain ⟨hnext, hmarkets⟩ := ih hrest
      rw [hmiddle] at hnext
      exact ⟨hnext, hmarkets.trans (tables.db.markets_publishResolution hdb)⟩

theorem existingMarket_eq_ok {key : MarketKey} {row : MarketRow}
    (h : tables.existingMarket key = .ok row) :
    KeyedList.lookup MarketRow.marketId key tables.markets = some row := by
  unfold existingMarket at h
  split at h
  · cases h
  next hrow =>
    cases h
    exact hrow

/-- What the tables have after a publication that goes through. -/
structure Published (tables : FreezeTables) (publication : Publication) (next : FreezeTables) :
    Prop where
  markets : ∀ key, next.knownStatus key =
    (tables.knownStatus key).or ((publication.listing key).map fun market => market.status)
  ranges : ∀ key (place : ℕ), (next.db.priceRanges key)[place]? =
    (tables.db.priceRanges key)[place]?.or
      ((publication.listing key).bind fun market => market.priceGrid.ranges[place]?)
  states : ∀ (other : Publication) key, next.stateStatus (other.stateId key) =
    (tables.stateStatus (other.stateId key)).or
      (if publication.agentCycleId = other.agentCycleId then
        publication.freezes (tables.knownStatus key) key
      else none)

/-- The rows of the members, by their identifiers. -/
theorem lookup_stateRows {markets : List FrozenMarket} {existing : List MarketRow}
    {keys : List MarketKey} {rows : List FrozenMarketStateRow}
    (h : keys.mapM (publication.stateRow markets existing) = .ok rows) (other : Publication)
    (key : MarketKey) :
    (KeyedList.lookup FrozenMarketStateRow.id (other.stateId key) rows).map
        FrozenMarketStateRow.lifecycleStatus =
      if publication.agentCycleId = other.agentCycleId ∧ key ∈ keys then
        ((KeyedList.lookup (fun market : FrozenMarket => market.key) key markets).map
          fun market => market.status).or
        ((KeyedList.lookup MarketRow.marketId key existing).map MarketRow.lifecycleStatus)
      else none := by
  rw [Checks.mapM_eq_ok_iff] at h
  induction h with
  | nil => simp
  | cons hrow _ ih =>
      rename_i first row rest rows' _
      obtain ⟨hid, hstatus⟩ := Publication.stateRow_spec hrow
      rw [KeyedList.lookup_cons]
      by_cases hsame : row.id = other.stateId key
      · rw [if_pos hsame]
        obtain ⟨hcycle, rfl⟩ := Publication.stateId_inj (hid.symm.trans hsame)
        rw [if_pos ⟨hcycle, List.mem_cons_self⟩, Option.map_some]
        exact hstatus
      · rw [if_neg hsame, ih]
        by_cases hcycle : publication.agentCycleId = other.agentCycleId
        · have hne : key ≠ first := by
            rintro rfl
            apply hsame
            rw [hid]
            unfold Publication.stateId Publication.freezeId
            rw [hcycle]
          simp only [hcycle, true_and, List.mem_cons, hne, false_or]
        · rw [if_neg (fun h => hcycle h.1), if_neg (fun h => hcycle h.1)]

theorem persist_published (h : tables.persist publication = .ok next) :
    Published tables publication next := by
  unfold persist at h
  split at h
  · cases h
  obtain ⟨-, h⟩ := Checks.ite_error_eq_ok.mp h
  obtain ⟨markets, hmarkets, h⟩ := Checks.bind_eq_ok.mp h
  have hunique := KalshiMarketFreeze.markets_unique hmarkets
  have hlisting (key : MarketKey) : publication.listing key =
      KeyedList.lookup (fun market : FrozenMarket => market.key) key markets := by
    unfold Publication.listing
    rw [hmarkets]
    rfl
  unfold publish at h
  obtain ⟨catalogueArtifact, -, h⟩ := Checks.bind_eq_ok.mp h
  obtain ⟨listed, hlisted, h⟩ := Checks.bind_eq_ok.mp h
  obtain ⟨existing, hexisting, h⟩ := Checks.bind_eq_ok.mp h
  obtain ⟨frozen, hfrozen, h⟩ := Checks.bind_eq_ok.mp h
  obtain ⟨states, hstates, h⟩ := Checks.bind_eq_ok.mp h
  obtain ⟨observed, hobserved, h⟩ := Checks.bind_eq_ok.mp h
  obtain ⟨-, -, h⟩ := Checks.bind_eq_ok.mp h
  -- The statements, one after the other.
  have hlistedEq := persistMarkets_eq hlisted
  obtain ⟨freezes, hfrozenEq⟩ := insertFreeze_eq hfrozen
  obtain ⟨rows, hrows, hstatesEq⟩ := persistStates_eq hstates
  obtain ⟨hobservedEq, hobservedMarkets⟩ := persistResolutions_eq hobserved
  obtain ⟨hnextEq, hnextMarkets, -⟩ := commit_eq h
  have hknown (key : MarketKey) : listed.knownStatus key = (tables.knownStatus key).or
      ((publication.listing key).map fun market => market.status) := by
    have hrow : (KeyedList.lookup MarketRow.marketId key (markets.map FrozenMarket.row)).map
        MarketRow.lifecycleStatus = (publication.listing key).map fun market => market.status := by
      rw [KeyedList.lookup_map, hlisting, Option.map_map]
      rfl
    rw [← hrow, hlistedEq]
    unfold knownStatus
    dsimp only
    rw [KeyedList.lookup_foldl_insertNew, Option.map_or]
  refine ⟨?_, ?_, ?_⟩
  · intro key
    have hsame : next.markets = listed.markets := by
      rw [hnextEq, hobservedEq, hstatesEq, hfrozenEq]
    rw [← hknown, knownStatus, hsame, knownStatus]
  · intro key place
    have hsame : next.db.markets = listed.db.markets := by
      rw [hnextMarkets, hobservedMarkets, hstatesEq, hfrozenEq]
    rw [Database.priceRanges_congr hsame, hlistedEq]
    dsimp only
    rw [Database.getElem?_priceRanges_foldl _ hunique, hlisting]
  · intro other key
    have hsame : next.states = rows.foldl
        (fun kept row => KeyedList.insertNew FrozenMarketStateRow.id row kept) tables.states := by
      rw [hnextEq, hobservedEq, hstatesEq, hfrozenEq, hlistedEq]
    unfold stateStatus
    rw [hsame, KeyedList.lookup_foldl_insertNew, Option.map_or, lookup_stateRows hrows]
    congr 1
    unfold Publication.freezes
    rw [hlisting]
    by_cases hcycle : publication.agentCycleId = other.agentCycleId
    swap
    · rw [if_neg (fun h => hcycle h.1), if_neg hcycle]
    rw [if_pos hcycle]
    by_cases hmember : key ∈ publication.freeze.members
    swap
    · rw [if_neg (fun h => hmember h.2), if_neg hmember]
    rw [if_pos ⟨hcycle, hmember⟩, if_pos hmember]
    cases hfound : KeyedList.lookup (fun market : FrozenMarket => market.key) key markets with
    | some market => rfl
    | none =>
        rw [Option.map_none, Option.none_or, Option.none_or]
        -- The row was read for one of the markets that are not listed.
        obtain ⟨row, hrow⟩ := Checks.mapM_isOk_iff.mp ⟨rows, hrows⟩ key hmember
        unfold Publication.stateRow at hrow
        rw [hfound] at hrow
        dsimp only at hrow
        split at hrow
        · cases hrow
        next known hlookup =>
          obtain ⟨asked, -, hasked⟩ := Checks.exists_of_mapM_eq_ok hexisting
            (KeyedList.mem_of_lookup_eq_some hlookup)
          have hread := existingMarket_eq_ok hasked
          have hkey : asked = key :=
            (KeyedList.key_of_lookup_eq_some hread).symm.trans
              (KeyedList.key_of_lookup_eq_some hlookup)
          subst hkey
          have hlisted : listed.knownStatus asked = some known.lifecycleStatus := by
            rw [knownStatus, hread, Option.map_some]
          rw [hlookup, Option.map_some, ← hlisted, hknown, hlisting, hfound, Option.map_none,
            Option.or_none]

end FreezeTables

end VTrade
