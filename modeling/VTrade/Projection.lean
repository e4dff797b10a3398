/-
# What the tables show

A portfolio is in the tables three times over: as rows of positions, as postings of the
ledger, and as the version of its agent.  The tables show a portfolio when all three
agree with it at cost, which says nothing of what has been realized.

Tables that show a portfolio load as one with its cash, its version and its positions,
and the ledger does not differ from the rows.
-/

import VTrade.LedgerAcceptance
import VTrade.SettlementOutcome
import VTrade.Transitions

namespace VTrade

/-! ## Rows as holdings -/

/-- What a row of positions holds. -/
def PositionRow.holding (row : PositionRow) : Books.Holding where
  units := row.contractUnits
  basis := row.grossCostBasisMicros
  fees := row.entryFeesMicros
  realized := row.realizedPnlMicros

/-- The units, the cost and the entry fees of a position. -/
def ContractPosition.amounts (position : ContractPosition) : ℤ × ℤ × ℤ :=
  (position.contractUnits, position.grossCostBasisMicros, position.entryFeesMicros)

/-- Two portfolios with the same cash, the same version and the same amounts under every
market outcome. -/
structure ContractPortfolio.Matches (portfolio other : ContractPortfolio) : Prop where
  cash : portfolio.cashMicros = other.cashMicros
  version : portfolio.version = other.version
  positions : ∀ key, (portfolio.position key).map ContractPosition.amounts =
    (other.position key).map ContractPosition.amounts

namespace ContractPortfolio

variable {portfolio other third : ContractPortfolio}

theorem Matches.symm (h : portfolio.Matches other) : other.Matches portfolio :=
  ⟨h.cash.symm, h.version.symm, fun key => (h.positions key).symm⟩

theorem Matches.trans (h : portfolio.Matches other) (h' : other.Matches third) :
    portfolio.Matches third :=
  ⟨h.cash.trans h'.cash, h.version.trans h'.version,
    fun key => (h.positions key).trans (h'.positions key)⟩

/-- The position of an open portfolio has units. -/
theorem AllOpen.contractUnits_pos (h : portfolio.AllOpen) {key : PositionKey}
    {position : ContractPosition} (hposition : portfolio.position key = some position) :
    0 < position.contractUnits :=
  h position (KeyedList.mem_of_lookup_eq_some hposition)

/-- Open portfolios that hold the same at cost have the same positions. -/
theorem AllOpen.amounts_eq (h : portfolio.AllOpen) (h' : other.AllOpen) {key : PositionKey}
    (hholding : (portfolio.account.holding key).atCost = (other.account.holding key).atCost) :
    (portfolio.position key).map ContractPosition.amounts =
      (other.position key).map ContractPosition.amounts := by
  rw [account_holding, account_holding] at hholding
  cases hfirst : portfolio.position key with
  | none =>
      cases hsecond : other.position key with
      | none => rfl
      | some second =>
          have hpos := h'.contractUnits_pos hsecond
          rw [hfirst, hsecond] at hholding
          have hunits : (0 : ℤ) = second.contractUnits := congrArg Books.Holding.units hholding
          omega
  | some first =>
      have hpos := h.contractUnits_pos hfirst
      cases hsecond : other.position key with
      | none =>
          rw [hfirst, hsecond] at hholding
          have hunits : first.contractUnits = (0 : ℤ) := congrArg Books.Holding.units hholding
          omega
      | some second =>
          rw [hfirst, hsecond] at hholding
          obtain ⟨hunits, hbasis, hfees, -⟩ := Books.Holding.ext_iff.mp hholding
          change some first.amounts = some second.amounts
          rw [ContractPosition.amounts, ContractPosition.amounts]
          exact congrArg some (Prod.ext hunits (Prod.ext hbasis hfees))

end ContractPortfolio

namespace Database

variable {db next : Database} {agentId : String}

/-- What the tables hold for an agent under a market outcome. -/
def holding (db : Database) (agentId : String) (key : PositionKey) : Books.Holding :=
  (db.position agentId key).elim 0 PositionRow.holding

/-- The position of an agent is among the agent's rows. -/
theorem position_eq_lookup_books (db : Database) (agentId : String) (key : PositionKey) :
    db.position agentId key = KeyedList.lookup PositionRow.key (agentId, key) (db.books agentId).2 := by
  have hrows := KeyedList.lookup_filter db.positions_unique
    (fun row => decide (row.agentId = agentId)) (agentId, key)
  rw [books, hrows, position]
  apply Option.ext
  intro row
  rw [Option.filter_eq_some_iff]
  constructor
  · intro hrow
    have hkey : row.key = (agentId, key) := KeyedList.key_of_lookup_eq_some hrow
    exact ⟨hrow, decide_eq_true (congrArg Prod.fst hkey)⟩
  · exact And.left

theorem ledgerPostings_eq_of_books (h : next.books agentId = db.books agentId) :
    next.ledgerPostings agentId = db.ledgerPostings agentId :=
  congrArg (fun rows => rows.flatMap LedgerEntryRow.postings) (congrArg Prod.fst h)

theorem position_eq_of_books (h : next.books agentId = db.books agentId) (key : PositionKey) :
    next.position agentId key = db.position agentId key := by
  rw [position_eq_lookup_books, h, ← position_eq_lookup_books]

/-- A row of an agent's positions is the one that is found under its key. -/
theorem position_of_mem {row : PositionRow} (hmem : row ∈ db.positions)
    (hagent : row.agentId = agentId) :
    db.position agentId (row.marketId, row.outcomeSide) = some row := by
  subst hagent
  exact (KeyedList.lookup_eq_some_iff db.positions_unique).mpr ⟨hmem, rfl⟩

/-! ## Loading -/

/-- The open rows of an agent have one position each. -/
theorem openPositions_unique (db : Database) (agentId : String) :
    ((db.openPositions agentId).map PositionRow.marketOutcome).Nodup := by
  have hperm : (db.openPositions agentId).Perm
      (db.positions.filter fun row => row.agentId = agentId ∧ 0 < row.contractUnits) :=
    List.perm_insertionSort _ _
  rw [(hperm.map _).nodup_iff]
  apply List.Nodup.of_map (fun key => (agentId, key))
  rw [List.map_map]
  have hrows : ((db.positions.filter fun row => row.agentId = agentId ∧ 0 < row.contractUnits).map
      PositionRow.key).Nodup :=
    db.positions_unique.sublist (List.filter_sublist.map _)
  apply (List.map_congr_left ?_).symm ▸ hrows
  intro row hmem
  have hagent : row.agentId = agentId := (of_decide_eq_true (List.mem_filter.mp hmem).2).1
  exact congrArg (fun agent => (agent, row.marketOutcome)) hagent.symm

/-- The open row under a key is the row of the key, if that has units. -/
theorem lookup_openPositions (db : Database) (agentId : String) (key : PositionKey) :
    KeyedList.lookup PositionRow.marketOutcome key (db.openPositions agentId) =
      (db.position agentId key).filter fun row => 0 < row.contractUnits := by
  apply Option.ext
  intro row
  rw [KeyedList.lookup_eq_some_iff (db.openPositions_unique agentId), Option.filter_eq_some_iff,
    position, KeyedList.lookup_eq_some_iff db.positions_unique, openPositions,
    List.mem_insertionSort, List.mem_filter]
  constructor
  · rintro ⟨⟨hmem, hopen⟩, rfl⟩
    obtain ⟨rfl, hunits⟩ := of_decide_eq_true hopen
    exact ⟨⟨hmem, rfl⟩, decide_eq_true hunits⟩
  · rintro ⟨⟨hmem, hkey⟩, hunits⟩
    have hagent : row.agentId = agentId := congrArg Prod.fst hkey
    exact ⟨⟨hmem, decide_eq_true ⟨hagent, of_decide_eq_true hunits⟩⟩, congrArg Prod.snd hkey⟩

/-- What is read as the portfolio of an agent. -/
structure Loads (db : Database) (agentId : String) (portfolio : ContractPortfolio) : Prop where
  owner : portfolio.agentId = agentId
  cash : portfolio.cashMicros = cashAmount (db.ledgerPostings agentId)
  version : db.portfolioVersion agentId = some portfolio.version
  realized : portfolio.realizedPnlMicros = db.realizedPnlMicros agentId
  positions : ∀ key, (portfolio.position key).map ContractPosition.toContractPositionFields =
    ((db.position agentId key).filter fun row => 0 < row.contractUnits).map PositionRow.fields

/-- Positions that are read from the open rows have the fields of the rows. -/
theorem fields_of_mapM {positions : List ContractPosition}
    (h : (db.openPositions agentId).mapM (fun row => ContractPosition.make row.fields) =
      .ok positions) :
    positions.map ContractPosition.toContractPositionFields =
      (db.openPositions agentId).map PositionRow.fields := by
  apply (Checks.mapM_build_eq_ok_iff ContractPosition.make_eq_ok_iff).mp
  rw [List.mapM_map]
  exact h

/-- Positions that are read from the open rows are found under the keys of their rows. -/
theorem lookup_of_mapM {positions : List ContractPosition}
    (h : (db.openPositions agentId).mapM (fun row => ContractPosition.make row.fields) =
      .ok positions) (key : PositionKey) :
    (KeyedList.lookup ContractPosition.key key positions).map
        ContractPosition.toContractPositionFields =
      ((db.position agentId key).filter fun row => 0 < row.contractUnits).map
        PositionRow.fields := by
  let fieldsKey (fields : ContractPositionFields) : PositionKey :=
    (fields.marketRef, fields.outcome)
  have hread := @KeyedList.lookup_map _ _ _ fieldsKey _
    ContractPosition.toContractPositionFields key positions
  have hrows := @KeyedList.lookup_map _ _ _ fieldsKey _ PositionRow.fields key
    (db.openPositions agentId)
  rw [← lookup_openPositions]
  exact hread.symm.trans ((congrArg _ (fields_of_mapM h)).trans hrows)

theorem load_spec {portfolio : ContractPortfolio}
    (h : db.loadContractPortfolio agentId = .ok portfolio) : db.Loads agentId portfolio := by
  have hversion := version_of_load h
  unfold loadContractPortfolio at h
  split at h
  · cases h
  next account haccount =>
    obtain ⟨positions, hpositions, h⟩ := Checks.bind_eq_ok.mp h
    have hfields := ContractPortfolio.make_eq_ok_iff.mp h
    constructor
    · rw [hfields]
    · rw [hfields]
    · exact hversion
    · rw [hfields]
    · intro key
      rw [ContractPortfolio.position, hfields]
      exact lookup_of_mapM hpositions key

/-- A row under an open row's key carries amounts that are not negative. -/
theorem make_of_open {row : PositionRow} (hunits : 0 < row.contractUnits)
    (hbasis : 0 ≤ row.grossCostBasisMicros) (hfees : 0 ≤ row.entryFeesMicros) :
    ∃ position, ContractPosition.make row.fields = .ok position := by
  have hvalid : row.fields.postInit = .ok () :=
    ContractPosition.postInit_eq_ok_iff.mpr
      ⟨hunits.le, hbasis, hfees, fun hzero => absurd hzero hunits.ne'⟩
  exact ⟨_, ContractPosition.make_eq_ok hvalid⟩

/-! ## Tables and portfolios -/

/-- The tables show a portfolio: they have its owner, its version, its cash and what it
holds at cost, and the ledger has the cost that the rows have. -/
structure Shows (db : Database) (agentId : String) (portfolio : ContractPortfolio) : Prop where
  owner : portfolio.agentId = agentId
  version : db.portfolioVersion agentId = some portfolio.version
  cash : cashAmount (db.ledgerPostings agentId) = portfolio.cashMicros
  holdings : ∀ key,
    (db.holding agentId key).atCost = (portfolio.account.holding key).atCost
  cost : ∀ dimensions,
    costAmount (db.ledgerPostings agentId) dimensions = db.cachedBasis agentId dimensions
  allOpen : portfolio.AllOpen

namespace Shows

variable {portfolio loaded : ContractPortfolio}

/-- A row with units is that of a position. -/
theorem position_of_open (h : db.Shows agentId portfolio) {key : PositionKey} {row : PositionRow}
    (hrow : db.position agentId key = some row) :
    (row.contractUnits = 0 ∧ row.grossCostBasisMicros = 0 ∧ row.entryFeesMicros = 0 ∧
        portfolio.position key = none) ∨
      ∃ position, portfolio.position key = some position ∧ 0 < position.contractUnits ∧
        row.contractUnits = position.contractUnits ∧
        row.grossCostBasisMicros = position.grossCostBasisMicros ∧
        row.entryFeesMicros = position.entryFeesMicros := by
  have hholding := h.holdings key
  rw [holding, hrow, ContractPortfolio.account_holding] at hholding
  obtain ⟨hunits, hbasis, hfees, -⟩ := Books.Holding.ext_iff.mp hholding
  cases hposition : portfolio.position key with
  | none =>
      rw [hposition] at hunits hbasis hfees
      exact Or.inl ⟨hunits, hbasis, hfees, rfl⟩
  | some position =>
      rw [hposition] at hunits hbasis hfees
      exact Or.inr ⟨position, rfl, h.allOpen.contractUnits_pos hposition, hunits, hbasis, hfees⟩

/-- What is loaded holds what the portfolio holds, at cost. -/
theorem holding_of_load (h : db.Shows agentId portfolio) (hloads : db.Loads agentId loaded)
    (key : PositionKey) :
    (loaded.account.holding key).atCost = (portfolio.account.holding key).atCost := by
  have hread := hloads.positions key
  rw [ContractPortfolio.account_holding, ContractPortfolio.account_holding]
  cases hrow : db.position agentId key with
  | none =>
      have hholding := h.holdings key
      rw [holding, hrow, ContractPortfolio.account_holding] at hholding
      rw [hrow, Option.filter_none, Option.map_none, Option.map_eq_none_iff] at hread
      rw [hread]
      exact hholding
  | some row =>
      rw [hrow] at hread
      rcases h.position_of_open hrow with ⟨hunits, -, -, hnone⟩ |
        ⟨position, hposition, hpos, hunits, hbasis, hfees⟩
      · rw [Option.filter_some, if_neg (by simp [hunits]), Option.map_none,
          Option.map_eq_none_iff] at hread
        rw [hread, hnone]
      · rw [← hunits] at hpos
        rw [Option.filter_some, if_pos (decide_eq_true hpos), Option.map_some,
          Option.map_eq_some_iff] at hread
        obtain ⟨read, hread, hfields⟩ := hread
        rw [hread, hposition]
        ext
        · exact (congrArg ContractPositionFields.contractUnits hfields).trans hunits
        · exact (congrArg ContractPositionFields.grossCostBasisMicros hfields).trans hbasis
        · exact (congrArg ContractPositionFields.entryFeesMicros hfields).trans hfees
        · rfl

end Shows

/-- What is loaded has no position without units. -/
theorem Loads.allOpen {loaded : ContractPortfolio} (h : db.Loads agentId loaded) :
    loaded.AllOpen := by
  intro position hmem
  have hposition : loaded.position position.key = some position :=
    (KeyedList.lookup_eq_some_iff loaded.unique_keys).mpr ⟨hmem, rfl⟩
  have hread := h.positions position.key
  rw [hposition, Option.map_some, eq_comm, Option.map_eq_some_iff] at hread
  obtain ⟨row, hrow, hfields⟩ := hread
  have hunits := of_decide_eq_true (Option.filter_eq_some_iff.mp hrow).2
  rw [← hfields]
  exact hunits

/-- What is loaded from tables that show a portfolio is that portfolio at cost. -/
theorem Shows.matches_of_load {portfolio loaded : ContractPortfolio}
    (h : db.Shows agentId portfolio) (hloads : db.Loads agentId loaded) :
    loaded.Matches portfolio where
  cash := hloads.cash.trans h.cash
  version := Option.some.inj (hloads.version.symm.trans h.version)
  positions key := hloads.allOpen.amounts_eq h.allOpen (h.holding_of_load hloads key)

/-- Tables that show a portfolio show what is loaded from them. -/
theorem Shows.of_load {portfolio loaded : ContractPortfolio}
    (h : db.Shows agentId portfolio) (hloads : db.Loads agentId loaded) :
    db.Shows agentId loaded where
  owner := hloads.owner
  version := hloads.version
  cash := hloads.cash.symm
  holdings key := (h.holdings key).trans (h.holding_of_load hloads key).symm
  cost := h.cost
  allOpen := hloads.allOpen

/-- Tables that show a portfolio can be loaded. -/
theorem Shows.load_isOk {portfolio : ContractPortfolio} (h : db.Shows agentId portfolio) :
    ∃ loaded, db.loadContractPortfolio agentId = .ok loaded := by
  have hversion := h.version
  rw [portfolioVersion, Option.map_eq_some_iff] at hversion
  obtain ⟨account, haccount, hversion⟩ := hversion
  have hrows : ∀ row ∈ db.openPositions agentId,
      ∃ position, ContractPosition.make row.fields = .ok position := by
    intro row hmem
    rw [openPositions, List.mem_insertionSort, List.mem_filter] at hmem
    obtain ⟨hmem, hopen⟩ := hmem
    obtain ⟨hagent, hunits⟩ := of_decide_eq_true hopen
    rcases h.position_of_open (position_of_mem hmem hagent) with ⟨hzero, -⟩ |
      ⟨position, -, -, -, hbasis, hfees⟩
    · exact absurd hzero hunits.ne'
    · apply make_of_open hunits
      · exact hbasis ▸ position.grossCostBasisMicros_nonneg
      · exact hfees ▸ position.entryFeesMicros_nonneg
  obtain ⟨positions, hpositions⟩ := Checks.mapM_isOk_iff.mpr hrows
  have hkeys : (positions.map ContractPosition.key).Nodup := by
    have hmap := congrArg (List.map fun fields => (fields.marketRef, fields.outcome))
      (fields_of_mapM hpositions)
    rw [List.map_map, List.map_map] at hmap
    exact hmap ▸ db.openPositions_unique agentId
  have hvalid : ContractPortfolioFields.postInit {
      agentId := agentId
      cashMicros := cashAmount (db.ledgerPostings agentId)
      positions := positions
      version := account.portfolioVersion
      reconciliationBlocked := db.isBlocked agentId
      realizedPnlMicros := db.realizedPnlMicros agentId } = .ok () := by
    apply ContractPortfolio.postInit_eq_ok_iff.mpr
    refine ⟨h.owner ▸ portfolio.agentId_ne_empty, ?_, ?_, hkeys⟩
    · exact h.cash ▸ portfolio.cashMicros_nonneg
    · exact hversion ▸ portfolio.version_nonneg
  rw [loadContractPortfolio, haccount]
  exact ⟨_, Checks.bind_eq_ok.mpr ⟨positions, hpositions, ContractPortfolio.make_eq_ok hvalid⟩⟩

/-- Tables that show a portfolio load as one that matches it. -/
theorem Shows.load {portfolio : ContractPortfolio} (h : db.Shows agentId portfolio) :
    ∃ loaded, db.loadContractPortfolio agentId = .ok loaded ∧ loaded.Matches portfolio := by
  obtain ⟨loaded, hloaded⟩ := h.load_isOk
  exact ⟨loaded, hloaded, h.matches_of_load (load_spec hloaded)⟩

/-- Where the tables show a portfolio, the ledger has the cost of the rows. -/
theorem Shows.ledgerMismatch_eq_zero {portfolio : ContractPortfolio}
    (h : db.Shows agentId portfolio) : db.ledgerMismatch agentId = 0 := by
  have hledger : ∀ amount ∈ (((costRows (db.ledgerPostings agentId)).map
      PostingRow.dimensions).dedup.map fun dimensions =>
        |costAmount (db.ledgerPostings agentId) dimensions - db.cachedBasis agentId dimensions|),
      amount = 0 := by
    intro amount hmem
    obtain ⟨dimensions, -, rfl⟩ := List.mem_map.mp hmem
    rw [h.cost, sub_self, abs_zero]
  have hunposted : ∀ amount ∈ ((db.positions.filter fun row =>
      row.agentId = agentId ∧ (some row.marketId, some row.outcomeSide) ∉
        ((costRows (db.ledgerPostings agentId)).map PostingRow.dimensions).dedup).map
      fun row => |row.grossCostBasisMicros|), amount = 0 := by
    intro amount hmem
    obtain ⟨row, hrow, rfl⟩ := List.mem_map.mp hmem
    obtain ⟨hrow, hkept⟩ := List.mem_filter.mp hrow
    obtain ⟨hagent, hmissing⟩ := of_decide_eq_true hkept
    -- No posting has the dimensions of the row, so the ledger has no cost for it.
    have hnone : (costRows (db.ledgerPostings agentId)).filter
        (fun posting => posting.dimensions = (some row.marketId, some row.outcomeSide)) = [] := by
      rw [List.filter_eq_nil_iff]
      intro posting hposting hdimensions
      apply hmissing
      rw [List.mem_dedup, ← of_decide_eq_true hdimensions]
      exact List.mem_map_of_mem hposting
    have hcost := h.cost (some row.marketId, some row.outcomeSide)
    rw [costAmount, hnone] at hcost
    have hcached : db.cachedBasis agentId (some row.marketId, some row.outcomeSide) =
        row.grossCostBasisMicros := by
      rw [cachedBasis, position_of_mem hrow hagent]
      rfl
    rw [← hcached, ← hcost]
    rfl
  unfold ledgerMismatch
  dsimp only
  rw [List.sum_eq_zero hledger, List.sum_eq_zero hunposted, add_zero]

end Database

/-! ## Posting -/

section Posts

variable {entry : LedgerEntry} {movement : Books.Movement PositionKey} {expense : ℤ}

/-- The rows of an entry that states a movement bring in its cash. -/
theorem cashAmount_of_posts (h : entry.Posts (postingsOf movement expense))
    (key : Option PositionKey) : cashAmount (entry.postingRows key) = movement.cash := by
  rw [h.postingRows_eq, MovementPostings.fields, postingsOf]
  by_cases hfees : movement.fees + expense = 0 <;>
    by_cases hresult : movement.realized + expense = 0 <;>
    simp [cashAmount, hfees, hresult, postingRow, PostingFields.ofCash, PostingFields.ofCost,
      PostingFields.ofFees, PostingFields.ofResult, LedgerAccount.value]

/-- The rows of an entry that states a movement bring in its cost, under its key. -/
theorem costAmount_of_posts (h : entry.Posts (postingsOf movement expense))
    (dimensions : Dimensions) :
    costAmount (entry.postingRows (some movement.key)) dimensions =
      if dimensions = (some movement.key.1, some movement.key.2) then movement.basis else 0 := by
  have hrows : costRows (entry.postingRows (some movement.key)) =
      [postingRow (some movement.key) (.ofCost movement.key movement.basis movement.units)] := by
    rw [h.postingRows_eq, MovementPostings.fields, postingsOf]
    by_cases hfees : movement.fees + expense = 0 <;>
      by_cases hresult : movement.realized + expense = 0 <;>
      simp [costRows, hfees, hresult, postingRow, PostingFields.ofCash, PostingFields.ofCost,
        PostingFields.ofFees, PostingFields.ofResult, LedgerAccount.value]
  have hdimensions : (postingRow (some movement.key) (.ofCost movement.key movement.basis
      movement.units)).dimensions = (some movement.key.1, some movement.key.2) := rfl
  rw [costAmount, hrows, List.filter_singleton, hdimensions]
  by_cases hsame : dimensions = (some movement.key.1, some movement.key.2)
  · rw [if_pos hsame, decide_eq_true hsame.symm]
    exact add_zero _
  · rw [if_neg hsame, decide_eq_false (Ne.symm hsame)]
    rfl

end Posts

namespace Database

variable {db next : Database} {agentId : String}

/-- The cost in the rows is the basis of what the tables hold. -/
theorem cachedBasis_eq_holding (db : Database) (agentId : String) (key : PositionKey) :
    db.cachedBasis agentId (some key.1, some key.2) = (db.holding agentId key).basis := by
  rw [cachedBasis, holding]
  cases db.position agentId key with
  | none => rfl
  | some row => rfl

/-- Rows under no market outcome have no cost. -/
theorem cachedBasis_of_ne (db : Database) (agentId : String) {dimensions : Dimensions}
    (h : ∀ key : PositionKey, dimensions ≠ (some key.1, some key.2)) :
    db.cachedBasis agentId dimensions = 0 := by
  obtain ⟨marketId, outcomeSide⟩ := dimensions
  cases marketId with
  | none => rfl
  | some marketId =>
      cases outcomeSide with
      | none => rfl
      | some outcomeSide => exact absurd rfl (h (marketId, outcomeSide))

theorem ledgerPostings_append {row : LedgerEntryRow} (hagent : row.agentId = agentId)
    (h : next.ledgerEntries = db.ledgerEntries ++ [row]) :
    next.ledgerPostings agentId = db.ledgerPostings agentId ++ row.postings := by
  have hkept : [row].filter (fun row => row.agentId = agentId) = [row] := by
    simp [hagent]
  rw [ledgerPostings, h, List.filter_append, List.flatMap_append, hkept]
  exact congrArg _ (List.append_nil _)

theorem position_upsert_self {row : PositionRow}
    (h : next.positions = KeyedList.upsert PositionRow.key row db.positions) :
    next.position row.agentId row.marketOutcome = some row := by
  rw [position, h]
  exact KeyedList.lookup_upsert_self row db.positions

theorem position_upsert_of_ne {row : PositionRow} {key : PositionKey}
    (h : next.positions = KeyedList.upsert PositionRow.key row db.positions)
    (hkey : key ≠ row.marketOutcome) : next.position agentId key = db.position agentId key := by
  rw [position, h]
  apply KeyedList.lookup_upsert_of_ne
  intro hsame
  exact hkey (congrArg Prod.snd hsame)

namespace Shows

variable {before after : ContractPortfolio}

/-- Tables that leave an agent's books and version still show its portfolio. -/
theorem of_books (h : db.Shows agentId before)
    (hversion : next.portfolioVersion agentId = db.portfolioVersion agentId)
    (hbooks : next.books agentId = db.books agentId) : next.Shows agentId before where
  owner := h.owner
  version := hversion.trans h.version
  cash := by rw [ledgerPostings_eq_of_books hbooks, h.cash]
  holdings key := by rw [holding, position_eq_of_books hbooks, ← holding, h.holdings]
  cost dimensions := by
    have hcached : next.cachedBasis agentId dimensions = db.cachedBasis agentId dimensions := by
      unfold cachedBasis
      split
      · rw [position_eq_of_books hbooks]
      · rfl
    rw [ledgerPostings_eq_of_books hbooks, h.cost, hcached]
  allOpen := h.allOpen

/-- Tables that take the entry of a movement and the holding it leaves show the portfolio
that the movement is posted to. -/
theorem post (h : db.Shows agentId before) {entry : LedgerEntry}
    {movement : Books.Movement PositionKey} {expense : ℤ}
    (hposts : entry.Posts (postingsOf movement expense))
    (haccount : after.account = before.account.post movement) (howner : after.agentId = agentId)
    (hopen : after.AllOpen) (hversion : next.portfolioVersion agentId = some after.version)
    (hledger : next.ledgerPostings agentId =
      db.ledgerPostings agentId ++ entry.postingRows (some movement.key))
    (hholding : (next.holding agentId movement.key).atCost =
      (after.account.holding movement.key).atCost)
    (hothers : ∀ key ≠ movement.key, next.position agentId key = db.position agentId key) :
    next.Shows agentId after := by
  have hholdings : ∀ key,
      (next.holding agentId key).atCost = (after.account.holding key).atCost := by
    intro key
    by_cases hkey : key = movement.key
    · rw [hkey, hholding]
    · rw [haccount, Books.Account.holding_post_of_ne _ hkey, ← h.holdings, holding, holding,
        hothers key hkey]
  have hbasis : (next.holding agentId movement.key).basis =
      (db.holding agentId movement.key).basis + movement.basis := by
    have hposted := hholdings movement.key
    rw [haccount, Books.Account.holding_post_self, Books.Holding.atCost_closeOut,
      Books.Holding.atCost_add, ← h.holdings] at hposted
    exact congrArg Books.Holding.basis hposted
  refine ⟨howner, hversion, ?_, hholdings, ?_, hopen⟩
  · rw [hledger, cashAmount_append, h.cash, cashAmount_of_posts hposts]
    exact (congrArg Books.Account.cash haccount).symm
  · intro dimensions
    rw [hledger, costAmount_append, h.cost, costAmount_of_posts hposts]
    by_cases hsome : ∃ key : PositionKey, dimensions = (some key.1, some key.2)
    · obtain ⟨key, rfl⟩ := hsome
      rw [cachedBasis_eq_holding, cachedBasis_eq_holding]
      by_cases hkey : key = movement.key
      · rw [hkey, if_pos rfl, hbasis]
      · have hne : ((some key.1, some key.2) : Dimensions) ≠
            (some movement.key.1, some movement.key.2) := by
          intro hsame
          obtain ⟨hmarket, houtcome⟩ := Prod.mk.inj hsame
          exact hkey (Prod.ext (Option.some.inj hmarket) (Option.some.inj houtcome))
        rw [if_neg hne, add_zero, holding, holding, hothers key hkey]
    · rw [not_exists] at hsome
      rw [cachedBasis_of_ne _ _ hsome, cachedBasis_of_ne _ _ hsome, if_neg (hsome movement.key),
        add_zero]

/-- An order with fills leaves tables that show the portfolio it leaves. -/
theorem order (h : db.Shows agentId before) {result : OrderResultFields} {operationId : String}
    {occurredAt : Datetime} {entry : LedgerEntry} {loop : FillLoop}
    (hbooked : OrderBooked before result.request result.fills result.operationId occurredAt after
      entry loop) (hentries : result.ledgerEntries = [entry])
    (hmoves : MovesOrder db result agentId operationId before after next) :
    next.Shows agentId after := by
  obtain ⟨row, hrow, -, hagents⟩ := hmoves.agents
  have hversion := (portfolioVersion_upsert hrow hagents).1
  have hposition := position_upsert_self hmoves.positions
  have howner : after.agentId = agentId := by
    rw [hbooked.agentId, (LoopBooked.of_foldlM h.allOpen hbooked.run).agentId, h.owner]
  apply h.post hbooked.posts_movement (hbooked.account h.allOpen) howner
    (hbooked.allOpen h.allOpen) hversion
  · have hledger := hmoves.ledgerEntries
    rw [hentries] at hledger
    exact ledgerPostings_append rfl hledger
  · rw [holding, show next.position agentId (loop.movement result.request).key = _ from hposition,
      ContractPortfolio.account_holding]
    change (contractPositionRow after agentId result.request.positionKey
      result.updatedAt).holding.atCost = ((after.position result.request.positionKey).elim 0
        ContractPosition.holding).atCost
    cases hafter : after.position result.request.positionKey with
    | none => simp only [contractPositionRow, hafter]; rfl
    | some position => simp only [contractPositionRow, hafter]; rfl
  · intro key hkey
    exact position_upsert_of_ne hmoves.positions hkey

/-- A settlement leaves tables that show the portfolio it leaves. -/
theorem settlement (h : db.Shows agentId before) {digests : Digests} {key : PositionKey}
    {position : ContractPosition} {result : OutcomeSide} {settlementTs settledAt : Datetime}
    {resolutionId observationId : String} {record : SettlementRecord}
    (hbooked : SettlementBooked before position result settlementTs resolutionId settledAt after
      record) (hheld : before.position key = some position)
    (hrecords : RecordsSettlement digests db record agentId key observationId before after next) :
    next.Shows agentId after := by
  have hkey : position.key = key := KeyedList.key_of_lookup_eq_some hheld
  subst hkey
  obtain ⟨agentRow, hagentRow, -, hagents⟩ := hrecords.agents
  obtain ⟨row, hrow, hpositions⟩ := hrecords.positions
  have hrowKey : row.key = (agentId, position.key) := KeyedList.key_of_lookup_eq_some hrow
  have howner : after.agentId = agentId := by
    rw [hbooked.portfolio_eq]
    exact h.owner
  have hsettled := position_upsert_self hpositions
  apply h.post hbooked.posts_movement (hbooked.account hheld) howner (hbooked.allOpen h.allOpen)
    (portfolioVersion_upsert hagentRow hagents).1
  · have houtcome : record.outcome = position.outcome := by rw [hbooked.record_eq]
    have hledger := hrecords.ledgerEntries
    rw [houtcome] at hledger
    exact ledgerPostings_append rfl hledger
  · have hfound : next.position agentId position.key = some { row with
        contractUnits := 0
        grossCostBasisMicros := 0
        entryFeesMicros := 0
        realizedPnlMicros := row.realizedPnlMicros + record.realizedPnlMicros
        portfolioVersion := after.version
        updatedAt := record.settlementTs } := by
      have hagent : row.agentId = agentId := congrArg Prod.fst hrowKey
      have hmarketOutcome : row.marketOutcome = position.key := congrArg Prod.snd hrowKey
      rw [← hmarketOutcome, ← hagent]
      exact hsettled
    rw [ContractPortfolio.account_holding, show (settlementMovement position
      (settlementPayout position result)).key = position.key from rfl, hbooked.position_eq,
      if_pos rfl, holding, hfound]
    rfl
  · intro other hother
    apply position_upsert_of_ne hpositions
    intro hsame
    exact hother (hsame.trans (congrArg Prod.snd hrowKey))

end Shows

end Database

end VTrade
