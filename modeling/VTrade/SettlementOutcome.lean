/-
# What a settlement does

A settlement that is booked posts one movement: the payout comes in, and the
units, the cost and the entry fees of the position go.  It can only be booked
when the position wins and does not just break even, because the cash posting
and the result posting may not be zero.

A call of the engine either books or returns what it remembers of the agent, the
market and the settlement time.  The other outcome of the market is remembered
under the same key, so a second position of a settled market is never removed.
-/

import VTrade.Accounting
import VTrade.Settlement

namespace VTrade

/-! ## Booking -/

/-- What a settlement moves. -/
def settlementMovement (position : ContractPosition) (payout : ℤ) :
    Books.Movement PositionKey where
  key := position.key
  cash := payout
  units := -position.contractUnits
  basis := -position.grossCostBasisMicros
  fees := -position.entryFeesMicros
  realized := settlementRealized position payout

theorem settlementPostings_isOk_iff {position : ContractPosition} {payout : ℤ} :
    (∃ postings, (settlementPostings position payout).postings = .ok postings) ↔
      payout ≠ 0 ∧ position.contractUnits ≠ 0 ∧
        position.grossCostBasisMicros + position.entryFeesMicros ≠ payout := by
  rw [MovementPostings.postings_isOk_iff]
  unfold settlementPostings
  by_cases hfees : position.entryFeesMicros = 0 <;> simp [hfees, sub_eq_zero]

/-- A settlement posts what it moves. -/
theorem settlementPostings_eq {position : ContractPosition} {payout : ℤ}
    (h : position.grossCostBasisMicros + position.entryFeesMicros ≠ payout) :
    settlementPostings position payout = postingsOf (settlementMovement position payout) 0 := by
  have hresult : settlementRealized position payout ≠ 0 := by
    unfold settlementRealized
    omega
  simp only [settlementPostings, postingsOf, settlementMovement, add_zero, neg_eq_zero, ne_eq,
    hresult, not_false_eq_true, if_true, MovementPostings.mk.injEq, Option.some.injEq, true_and]
  unfold settlementRealized
  ring

theorem sum_settlementPostings {position : ContractPosition} {payout : ℤ} {postings : List Posting}
    (h : (settlementPostings position payout).postings = .ok postings) :
    (postings.map fun posting => posting.amountMicros).sum = 0 := by
  have hmap : (postings.map fun posting => posting.amountMicros) =
      (postings.map Posting.toPostingFields).map fun posting => posting.amountMicros := by
    simp [List.map_map, Function.comp_def]
  rw [hmap, Posting.mapM_make_eq_ok_iff.mp h, MovementPostings.fields, settlementPostings]
  by_cases hfees : position.entryFeesMicros = 0 <;>
    simp [hfees, PostingFields.ofCash, PostingFields.ofCost, PostingFields.ofFees,
      PostingFields.ofResult] <;> ring

/-- A booked settlement: the portfolio it leaves and the record of it. -/
structure SettlementBooked (portfolio : ContractPortfolio) (position : ContractPosition)
    (result : OutcomeSide) (settlementTs : Datetime) (resolutionId : String)
    (settledAt : Datetime) (updated : ContractPortfolio) (record : SettlementRecord) : Prop where
  portfolio_eq : updated.toContractPortfolioFields = {
    agentId := portfolio.agentId
    cashMicros := portfolio.cashMicros + settlementPayout position result
    positions := KeyedList.erase ContractPosition.key position.key portfolio.positions
    version := portfolio.version + 1
    reconciliationBlocked := portfolio.reconciliationBlocked
    realizedPnlMicros := portfolio.realizedPnlMicros +
      settlementRealized position (settlementPayout position result) }
  record_eq : record.toSettlementRecordFields = {
    settlementId := settlementLedgerId portfolio.agentId settlementTs
    marketRef := position.marketRef
    outcome := position.outcome
    resolutionId := resolutionId
    settlementTs := settlementTs.instant
    contractUnits := position.contractUnits
    grossPayoutMicros := settlementPayout position result
    entryFeesDeductedMicros := position.entryFeesMicros
    realizedPnlMicros := settlementRealized position (settlementPayout position result)
    ledgerEntry := record.ledgerEntry }
  entry_id : record.ledgerEntry.id = settlementLedgerId portfolio.agentId settlementTs
  entry_agentId : record.ledgerEntry.agentId = portfolio.agentId
  entry_key : record.ledgerEntry.idempotencyKey =
    settlementIdempotencyKey portfolio.agentId position.marketRef settlementTs
  posts : record.ledgerEntry.Posts
    (settlementPostings position (settlementPayout position result))

section Booking

variable {portfolio updated : ContractPortfolio} {position : ContractPosition}
  {result : OutcomeSide} {settlementTs settledAt : Datetime} {resolutionId : String}
  {record : SettlementRecord}

theorem bookSettlement_spec (h : bookSettlement portfolio position result settlementTs resolutionId
      settledAt = .ok (updated, record)) :
    SettlementBooked portfolio position result settlementTs resolutionId settledAt updated
      record := by
  obtain ⟨built, hbuilt, h⟩ := Checks.bind_eq_ok.mp h
  obtain ⟨postings, hpostings, h⟩ := Checks.bind_eq_ok.mp h
  obtain ⟨entry, hentry, h⟩ := Checks.bind_eq_ok.mp h
  obtain ⟨made, hmade, h⟩ := Checks.bind_eq_ok.mp h
  cases h
  obtain ⟨hid, hagent, hkey, -, -, hentryPostings⟩ := LedgerEntry.eq_of_make_eq_ok hentry
  have hrecord := SettlementRecord.make_eq_ok_iff.mp hmade
  have hledger : record.ledgerEntry = entry := by rw [hrecord]
  refine ⟨ContractPortfolio.make_eq_ok_iff.mp hbuilt, ?_, hledger ▸ hid, hledger ▸ hagent,
    hledger ▸ hkey, ?_⟩
  · rw [hrecord, hid]
  · rw [LedgerEntry.Posts, hledger, hentryPostings]
    exact Posting.mapM_make_eq_ok_iff.mp hpostings

/-- A position is settled when it wins something and does not just break even. -/
theorem bookSettlement_isOk_iff (portfolio : ContractPortfolio) (position : ContractPosition)
    (result : OutcomeSide) (settlementTs settledAt : Datetime)
    (hresolution : Text.isBlank resolutionId = false) :
    (∃ settled, bookSettlement portfolio position result settlementTs resolutionId settledAt =
        .ok settled) ↔
      settledAt.isAware = true ∧ settlementPayout position result ≠ 0 ∧
        position.grossCostBasisMicros + position.entryFeesMicros ≠
          settlementPayout position result := by
  have hpayout : settlementPayout position result ≠ 0 → position.contractUnits ≠ 0 := by
    unfold settlementPayout
    split <;> omega
  have hnonneg : 0 ≤ settlementPayout position result := by
    have := position.contractUnits_nonneg
    unfold settlementPayout
    split <;> omega
  constructor
  · rintro ⟨settled, h⟩
    obtain ⟨built, hbuilt, h⟩ := Checks.bind_eq_ok.mp h
    obtain ⟨postings, hpostings, h⟩ := Checks.bind_eq_ok.mp h
    obtain ⟨entry, hentry, h⟩ := Checks.bind_eq_ok.mp h
    obtain ⟨hcash, -, hresult⟩ := settlementPostings_isOk_iff.mp ⟨postings, hpostings⟩
    refine ⟨?_, hcash, hresult⟩
    by_contra haware
    unfold LedgerEntry.make at hentry
    rw [Bool.not_eq_true] at haware
    split_ifs at hentry
  · rintro ⟨haware, hcash, hresult⟩
    obtain ⟨postings, hpostings⟩ := settlementPostings_isOk_iff.mpr
      ⟨hcash, hpayout hcash, hresult⟩
    have hnonempty : postings ≠ [] := by
      intro hempty
      have hfields := Posting.mapM_make_eq_ok_iff.mp hpostings
      rw [hempty] at hfields
      cases hfields
    have hentry := LedgerEntry.make_eq_ok (settlementLedgerId portfolio.agentId settlementTs)
      portfolio.agentId
      (settlementIdempotencyKey portfolio.agentId position.marketRef settlementTs)
      "binary_settlement" hnonempty (sum_settlementPostings hpostings) haware
    have hportfolio : ContractPortfolioFields.postInit {
        agentId := portfolio.agentId
        cashMicros := portfolio.cashMicros + settlementPayout position result
        positions := KeyedList.erase ContractPosition.key position.key portfolio.positions
        version := portfolio.version + 1
        reconciliationBlocked := portfolio.reconciliationBlocked
        realizedPnlMicros := portfolio.realizedPnlMicros +
          settlementRealized position (settlementPayout position result) } = .ok () :=
      ContractPortfolio.postInit_eq_ok_iff.mpr ⟨portfolio.agentId_ne_empty,
        add_nonneg portfolio.cashMicros_nonneg hnonneg,
        Int.add_nonneg portfolio.version_nonneg zero_le_one,
        KeyedList.nodup_erase portfolio.unique_keys _⟩
    have hid : Text.isBlank (settlementLedgerId portfolio.agentId settlementTs) = false :=
      Text.not_isBlank_append_right (Text.not_isBlank_append_right
        (Text.not_isBlank_append_right (by decide)))
    have hunits := position.contractUnits_nonneg
    have hfees := position.entryFeesMicros_nonneg
    have hvalid (entry : LedgerEntry)
        (hentryId : entry.id = settlementLedgerId portfolio.agentId settlementTs) :
        SettlementRecordFields.postInit {
          settlementId := entry.id
          marketRef := position.marketRef
          outcome := position.outcome
          resolutionId := resolutionId
          settlementTs := settlementTs.instant
          contractUnits := position.contractUnits
          grossPayoutMicros := settlementPayout position result
          entryFeesDeductedMicros := position.entryFeesMicros
          realizedPnlMicros := settlementRealized position (settlementPayout position result)
          ledgerEntry := entry } = .ok () := by
      have := hpayout hcash
      simp only [SettlementRecordFields.postInit, Checks.raiseFirst_cons_eq_ok, hentryId, hid,
        hresolution, Checks.raiseFirst_nil, decide_eq_false_iff_not, true_and, and_true]
      omega
    exact ⟨_, Checks.bind_eq_ok.mpr ⟨_, ContractPortfolio.make_eq_ok hportfolio,
      Checks.bind_eq_ok.mpr ⟨postings, hpostings, Checks.bind_eq_ok.mpr ⟨_, hentry,
        Checks.bind_eq_ok.mpr ⟨_, SettlementRecord.make_eq_ok (hvalid _ rfl), rfl⟩⟩⟩⟩⟩

namespace SettlementBooked

/-- A booked settlement posts its movement. -/
theorem account (h : SettlementBooked portfolio position result settlementTs resolutionId settledAt
      updated record) (hposition : portfolio.position position.key = some position) :
    updated.account = portfolio.account.post
      (settlementMovement position (settlementPayout position result)) := by
  rw [Books.Account.ext_iff]
  refine ⟨?_, ?_, ?_⟩
  · change updated.cashMicros = _
    rw [h.portfolio_eq]
    rfl
  · change updated.realizedPnlMicros = _
    rw [h.portfolio_eq]
    rfl
  · have hempty : (portfolio.account.holding position.key +
        (settlementMovement position (settlementPayout position result)).holding).closeOut = 0 := by
      rw [portfolio.account_holding, hposition]
      rw [Books.Holding.closeOut_of_units_eq_zero]
      · ext <;> simp [ContractPosition.holding, settlementMovement, Books.Movement.holding]
      · simp [ContractPosition.holding, settlementMovement, Books.Movement.holding]
    change holdings updated.positions = portfolio.account.holding.update position.key
      (portfolio.account.holding position.key +
        (settlementMovement position (settlementPayout position result)).holding).closeOut
    rw [hempty, h.portfolio_eq]
    exact holdings_erase portfolio.unique_keys position.key

theorem version (h : SettlementBooked portfolio position result settlementTs resolutionId settledAt
      updated record) : updated.version = portfolio.version + 1 := by
  rw [h.portfolio_eq]

theorem allOpen (h : SettlementBooked portfolio position result settlementTs resolutionId settledAt
      updated record) (hopen : portfolio.AllOpen) : updated.AllOpen := by
  intro other hmem
  rw [h.portfolio_eq] at hmem
  exact hopen other (KeyedList.mem_erase.mp hmem).1

/-- The entry of a booked settlement states its movement. -/
theorem posts_movement (h : SettlementBooked portfolio position result settlementTs resolutionId
      settledAt updated record) :
    record.ledgerEntry.Posts
      (postingsOf (settlementMovement position (settlementPayout position result)) 0) := by
  have hresult := (settlementPostings_isOk_iff.mp
    ⟨_, Posting.mapM_make_eq_ok_iff.mpr h.posts⟩).2.2
  rw [← settlementPostings_eq hresult]
  exact h.posts

/-- The settled position is gone and every other one is as it was. -/
theorem position_eq (h : SettlementBooked portfolio position result settlementTs resolutionId
      settledAt updated record) (key : PositionKey) :
    updated.position key = if key = position.key then none else portfolio.position key := by
  unfold ContractPortfolio.position
  rw [h.portfolio_eq]
  split
  next hkey => exact hkey ▸ KeyedList.lookup_erase_self _ _
  next hkey => exact KeyedList.lookup_erase_of_ne hkey _

end SettlementBooked

end Booking

/-! ## One settlement -/

/-- What a settlement is to do: pay one cent for every hundredth of a winning
contract and nothing for a losing one, realize the difference to what the
position carries, and remove that position and no other. -/
structure PaysOut (portfolio : ContractPortfolio) (position : ContractPosition)
    (result : OutcomeSide) (updated : ContractPortfolio) (record : SettlementRecord) : Prop where
  payout : record.grossPayoutMicros =
    if position.outcome = result then 10000 * position.contractUnits else 0
  cash : updated.cashMicros = portfolio.cashMicros + record.grossPayoutMicros
  realized : record.realizedPnlMicros = record.grossPayoutMicros -
    (position.grossCostBasisMicros + position.entryFeesMicros)
  realized_total :
    updated.realizedPnlMicros = portfolio.realizedPnlMicros + record.realizedPnlMicros
  removed : ∀ key, updated.position key =
    if key = position.key then none else portfolio.position key
  version : updated.version = portfolio.version + 1
  balanced : (record.ledgerEntry.postings.map fun posting => posting.amountMicros).sum = 0

theorem SettlementBooked.paysOut {portfolio updated : ContractPortfolio}
    {position : ContractPosition} {result : OutcomeSide} {settlementTs settledAt : Datetime}
    {resolutionId : String} {record : SettlementRecord}
    (h : SettlementBooked portfolio position result settlementTs resolutionId settledAt updated
      record) : PaysOut portfolio position result updated record where
  payout := by
    rw [h.record_eq]
    simp only [settlementPayout, mul_comm]
  cash := by rw [h.portfolio_eq, h.record_eq]
  realized := by
    rw [h.record_eq]
    simp only [settlementRealized]
    ring
  realized_total := by rw [h.portfolio_eq, h.record_eq]
  removed := h.position_eq
  version := h.version
  balanced := record.ledgerEntry.balanced

section Settle

variable {engine : BinarySettlementEngine} {observation : ResolutionObservation}
  {position : ContractPosition} {portfolio : ContractPortfolio} {asOf settledAt : Datetime}
  {result : OutcomeSide} {settlementTs : Datetime}

/-- A first settlement of an agent and market is booked. -/
theorem settle_of_first (hasOf : asOf.isAware = true) (hsettledAt : settledAt.isAware = true)
    (hmarket : observation.marketKey = position.marketRef)
    (hterminal : observation.terminal = true) (hresult : observation.result = some result)
    (hsettlementTs : observation.settlementTs = some settlementTs)
    (hobserved : observation.observedAt ≤ asOf.instant)
    (hsettled : settlementTs.instant ≤ asOf.instant)
    (hposition : portfolio.position position.key = some position)
    (hprior : engine.priorTerminal portfolio.agentId position.marketRef.canonical = none)
    (hstored : engine.stored
      (settlementKey portfolio.agentId position.marketRef settlementTs) = none) :
    (engine.settle observation position portfolio asOf settledAt).2 =
      bookSettlement portfolio position result settlementTs observation.snapshotId settledAt := by
  have hlate : ¬ (asOf.instant < observation.observedAt ∨ asOf.instant < settlementTs.instant) :=
    not_or.mpr ⟨not_lt.mpr hobserved, not_lt.mpr hsettled⟩
  have hprior' : engine.priorTerminal
      (settlementKey portfolio.agentId position.marketRef settlementTs).agentId
      (settlementKey portfolio.agentId position.marketRef settlementTs).market = none := hprior
  simp only [BinarySettlementEngine.settle, hasOf, hsettledAt, hmarket, hterminal, hresult,
    hsettlementTs, hlate, hposition, BinarySettlementEngine.settleTerminal, hprior', hstored,
    Option.any_none, ne_eq, not_true_eq_false, if_false, Bool.true_eq_false, Bool.false_eq_true]
  cases bookSettlement portfolio position result settlementTs observation.snapshotId settledAt <;>
    rfl

/-- The first settlement of an agent and market pays the position out exactly
when its times have an offset, it wins, and its payout is not just what it
carries. -/
theorem settle_paysOut_iff (hunits : 0 < position.contractUnits)
    (hposition : portfolio.position position.key = some position)
    (hmarket : observation.marketKey = position.marketRef)
    (hterminal : observation.terminal = true) (hresult : observation.result = some result)
    (hsettlementTs : observation.settlementTs = some settlementTs)
    (hobserved : observation.observedAt ≤ asOf.instant)
    (hsettled : settlementTs.instant ≤ asOf.instant)
    (hprior : engine.priorTerminal portfolio.agentId position.marketRef.canonical = none)
    (hstored : ∀ ts, engine.stored ⟨portfolio.agentId, position.marketRef.canonical, ts⟩ = none) :
    (∃ updated record, (engine.settle observation position portfolio asOf settledAt).2 =
        .ok (updated, record) ∧ PaysOut portfolio position result updated record) ↔
      asOf.isAware = true ∧ settledAt.isAware = true ∧ position.outcome = result ∧
        position.grossCostBasisMicros + position.entryFeesMicros ≠
          10000 * position.contractUnits := by
  by_cases hasOf : asOf.isAware = true
  · by_cases hsettledAt : settledAt.isAware = true
    · rw [settle_of_first hasOf hsettledAt hmarket hterminal hresult hsettlementTs hobserved
        hsettled hposition hprior (hstored _)]
      have hbooked := bookSettlement_isOk_iff portfolio position result settlementTs settledAt
        observation.snapshotId_nonblank
      have hpayout : (settlementPayout position result ≠ 0 ∧
          position.grossCostBasisMicros + position.entryFeesMicros ≠
            settlementPayout position result) ↔
          position.outcome = result ∧ position.grossCostBasisMicros + position.entryFeesMicros ≠
            10000 * position.contractUnits := by
        unfold settlementPayout
        split
        next hwins => simp only [hwins, true_and]; omega
        next hloses => simp only [hloses, false_and, ne_eq, not_true_eq_false]
      simp only [hasOf, true_and]
      rw [← hpayout, ← hbooked]
      constructor
      · rintro ⟨updated, record, h, -⟩
        exact ⟨_, h⟩
      · rintro ⟨⟨updated, record⟩, h⟩
        exact ⟨updated, record, h, (bookSettlement_spec h).paysOut⟩
    · have hnaive : settledAt.isAware = false := by simpa using hsettledAt
      simp [BinarySettlementEngine.settle, hasOf, hnaive]
  · have hnaive : asOf.isAware = false := by simpa using hasOf
    simp [BinarySettlementEngine.settle, hnaive]

end Settle

namespace Sample

/-- A hundred units of one outcome. -/
def position (marketRef : MarketKey) (outcome : OutcomeSide) (basis : ℤ) (h : 0 ≤ basis) :
    ContractPosition :=
  ⟨{ marketRef := marketRef, outcome := outcome, contractUnits := 100, grossCostBasisMicros := basis,
     entryFeesMicros := 100, updatedAt := moment.instant },
    ContractPosition.postInit_eq_ok_iff.mpr ⟨by simp, h, by simp, by simp⟩⟩

theorem yesCost_nonneg : (0 : ℤ) ≤ 400000 := by decide

theorem noCost_nonneg : (0 : ℤ) ≤ 500000 := by decide

/-- A hundred units of both outcomes of the market. -/
def hedged : ContractPortfolio :=
  ⟨{ agentId := "agent", cashMicros := 1000000000,
     positions := [position market .no 500000 noCost_nonneg, position market .yes 400000 yesCost_nonneg] },
    by decide⟩

/-- A market is final. -/
def observation (marketRef : MarketKey) (result : OutcomeSide) : ResolutionObservation where
  marketKey := marketRef
  status := .finalized
  result := some result
  observedAt := moment.instant
  settlementTs := some moment
  blocked := false
  snapshotId := "resolution"
  settlementTs_aware := by
    rintro settlementTs ⟨⟩
    rfl
  incomplete_blocked := by simp
  snapshotId_nonblank := by decide

end Sample

theorem settle_paysOut_sample :
    ∃ updated record, (BinarySettlementEngine.empty.settle (Sample.observation Sample.market .yes)
        (Sample.position Sample.market .yes 400000 (by decide)) Sample.hedged Sample.moment Sample.moment).2 =
        .ok (updated, record) ∧
      PaysOut Sample.hedged (Sample.position Sample.market .yes 400000 (by decide)) .yes updated record :=
  (settle_paysOut_iff (by decide) (by decide) rfl (by decide) rfl rfl (le_refl _) (le_refl _) rfl
    fun _ => rfl).mpr ⟨rfl, rfl, rfl, by decide⟩

set_option maxRecDepth 10000 in
/-- A losing position cannot be settled: its payout makes an empty cash posting. -/
theorem settle_losing_raises :
    Sample.hedged.position (Sample.market, .yes) =
        some (Sample.position Sample.market .yes 400000 (by decide)) ∧
      (Sample.observation Sample.market .no).terminal = true ∧
      (BinarySettlementEngine.empty.settle (Sample.observation Sample.market .no)
        (Sample.position Sample.market .yes 400000 (by decide)) Sample.hedged Sample.moment Sample.moment).2 =
        .error (.valueError "ledger postings require money or a contract-unit delta") := by
  decide

/-! ## Both outcomes of a market -/

namespace BinarySettlementEngine

/-- The engines that calls of `settle` can lead to. -/
inductive Reachable : BinarySettlementEngine → Prop
  | empty : Reachable empty
  | settle {engine : BinarySettlementEngine} (h : Reachable engine)
      (observation : ResolutionObservation) (position : ContractPosition)
      (portfolio : ContractPortfolio) (asOf settledAt : Datetime) :
      Reachable (engine.settle observation position portfolio asOf settledAt).1

/-- A call keeps what is remembered, or adds one booked settlement to it. -/
theorem stored_settle (engine : BinarySettlementEngine) (observation : ResolutionObservation)
    (position : ContractPosition) (portfolio : ContractPortfolio) (asOf settledAt : Datetime)
    (key : SettlementKey) :
    (engine.settle observation position portfolio asOf settledAt).1.stored key =
        engine.stored key ∨
      ∃ result settlementTs settled,
        key = settlementKey portfolio.agentId position.marketRef settlementTs ∧
        bookSettlement portfolio position result settlementTs observation.snapshotId settledAt =
          .ok settled ∧
        (engine.settle observation position portfolio asOf settledAt).1.stored key =
          some settled := by
  cases hcall : engine.settle observation position portfolio asOf settledAt with
  | mk next outcome =>
      cases outcome with
      | error error => exact Or.inl (by rw [stored_of_settle_error _ hcall])
      | ok settled =>
          obtain ⟨result, settlementTs, -, -, -, -, hstored | hbooked⟩ := settle_spec _ hcall
          · exact Or.inl (by rw [hstored.2])
          · obtain ⟨-, hbooked, rfl⟩ := hbooked
            by_cases hkey : key = settlementKey portfolio.agentId position.marketRef settlementTs
            · subst hkey
              exact Or.inr ⟨result, settlementTs, settled, rfl, hbooked,
                stored_remember_self _ _ _⟩
            · exact Or.inl (stored_remember_of_ne _ hkey _)

/-- A remembered portfolio is one of the agent it is remembered for. -/
theorem Reachable.stored_agentId {engine : BinarySettlementEngine} (h : engine.Reachable)
    {key : SettlementKey} {portfolio : ContractPortfolio} {record : SettlementRecord}
    (hstored : engine.stored key = some (portfolio, record)) :
    portfolio.agentId = key.agentId := by
  induction h generalizing key portfolio record with
  | empty => cases hstored
  | settle _ observation position before asOf settledAt ih =>
      rcases stored_settle _ observation position before asOf settledAt key with
        hkept | ⟨result, settlementTs, settled, rfl, hbooked, hnew⟩
      · exact ih (hkept ▸ hstored)
      · rw [hnew] at hstored
        cases hstored
        rw [(bookSettlement_spec hbooked).portfolio_eq]
        rfl

end BinarySettlementEngine

/-- Settling one position of a market after another with the same engine, the
second on the portfolio that the first call returned. -/
def SettlesBoth (engine : BinarySettlementEngine) (observation : ResolutionObservation)
    (first second : ContractPosition) (portfolio : ContractPortfolio)
    (asOf settledAt : Datetime) (final : ContractPortfolio) : Prop :=
  ∃ middle firstRecord secondRecord,
    (engine.settle observation first portfolio asOf settledAt).2 = .ok (middle, firstRecord) ∧
    ((engine.settle observation first portfolio asOf settledAt).1.settle observation second middle
      asOf settledAt).2 = .ok (final, secondRecord)

/-- The second call raises or returns what the first one returned, so the second
position of a settled market is never removed. -/
theorem settlesBoth_keeps_second {engine : BinarySettlementEngine}
    {observation : ResolutionObservation} {first second : ContractPosition}
    {portfolio final : ContractPortfolio} {asOf settledAt : Datetime}
    (hengine : engine.Reachable) (hmarket : first.marketRef = second.marketRef)
    (h : SettlesBoth engine observation first second portfolio asOf settledAt final) :
    final.position second.key = some second := by
  obtain ⟨middle, firstRecord, secondRecord, hfirst, hsecond⟩ := h
  generalize hcall : engine.settle observation first portfolio asOf settledAt = call at hfirst hsecond
  obtain ⟨next, outcome⟩ := call
  obtain rfl : outcome = .ok (middle, firstRecord) := hfirst
  obtain ⟨result, settlementTs, -, hts, -, -, hremembered⟩ := engine.settle_spec hcall
  cases hcall' : next.settle observation second middle asOf settledAt with
  | mk last outcome' =>
      rw [hcall'] at hsecond
      obtain rfl : outcome' = .ok (final, secondRecord) := hsecond
      obtain ⟨_, settlementTs', -, hts', -, hposition, hremembered'⟩ := next.settle_spec hcall'
      obtain rfl : settlementTs = settlementTs' := Option.some.inj (hts.symm.trans hts')
      -- Both calls look under the same key, where the first has left its result.
      have hagent : middle.agentId = portfolio.agentId := by
        rcases hremembered with ⟨hstored, -⟩ | ⟨-, hbooked, -⟩
        · exact hengine.stored_agentId hstored
        · rw [(bookSettlement_spec hbooked).portfolio_eq]
      have hleft : next.stored
          (settlementKey middle.agentId second.marketRef settlementTs) =
          some (middle, firstRecord) := by
        rw [hagent, ← hmarket]
        rcases hremembered with ⟨hstored, rfl⟩ | ⟨-, -, rfl⟩
        · exact hstored
        · exact engine.stored_remember_self _ _
      rcases hremembered' with ⟨hstored, -⟩ | ⟨hnone, -, -⟩
      · rw [hleft] at hstored
        cases hstored
        exact hposition
      · rw [hleft] at hnone
        cases hnone

/-- Two positions of a market are never both removed, whichever is settled first. -/
theorem settlesBoth_never_removes {engine : BinarySettlementEngine}
    {observation : ResolutionObservation} {first second : ContractPosition}
    {portfolio : ContractPortfolio} {asOf settledAt : Datetime}
    (hengine : engine.Reachable) (hmarket : first.marketRef = second.marketRef) :
    ¬ ∃ final, SettlesBoth engine observation first second portfolio asOf settledAt final ∧
      final.position first.key = none ∧ final.position second.key = none := by
  rintro ⟨final, h, -, hremoved⟩
  rw [settlesBoth_keeps_second hengine hmarket h] at hremoved
  cases hremoved

theorem settlesBoth_never_removes_hedged :
    ¬ ∃ final, SettlesBoth .empty (Sample.observation Sample.market .yes)
        (Sample.position Sample.market .yes 400000 (by decide)) (Sample.position Sample.market .no 500000 (by decide))
        Sample.hedged Sample.moment Sample.moment final ∧
      final.position (Sample.market, .yes) = none ∧ final.position (Sample.market, .no) = none :=
  settlesBoth_never_removes .empty rfl

set_option maxRecDepth 10000 in
/-- With the winner first, the second call returns the first result again, which
still holds the loser; with the loser first, the first call raises. -/
theorem settlesBoth_hedged_fails :
    (∃ middle record,
      (BinarySettlementEngine.empty.settle (Sample.observation Sample.market .yes)
        (Sample.position Sample.market .yes 400000 (by decide)) Sample.hedged Sample.moment Sample.moment).2 =
        .ok (middle, record) ∧
      ((BinarySettlementEngine.empty.settle (Sample.observation Sample.market .yes)
        (Sample.position Sample.market .yes 400000 (by decide)) Sample.hedged Sample.moment
          Sample.moment).1.settle (Sample.observation Sample.market .yes)
        (Sample.position Sample.market .no 500000 (by decide)) middle Sample.moment Sample.moment).2 =
        .ok (middle, record) ∧
      middle.position (Sample.market, .no) = some (Sample.position Sample.market .no 500000 (by decide))) ∧
    (BinarySettlementEngine.empty.settle (Sample.observation Sample.market .yes)
      (Sample.position Sample.market .no 500000 (by decide)) Sample.hedged Sample.moment Sample.moment).2 =
      .error (.valueError "ledger postings require money or a contract-unit delta") := by
  refine ⟨?_, by decide⟩
  obtain ⟨⟨middle, record⟩, hfirst, htest⟩ := Checks.exists_ok_of_any
    ((BinarySettlementEngine.empty.settle (Sample.observation Sample.market .yes)
      (Sample.position Sample.market .yes 400000 (by decide)) Sample.hedged Sample.moment Sample.moment).2)
    (fun settled =>
      ((BinarySettlementEngine.empty.settle (Sample.observation Sample.market .yes)
        (Sample.position Sample.market .yes 400000 (by decide)) Sample.hedged Sample.moment
          Sample.moment).1.settle (Sample.observation Sample.market .yes)
        (Sample.position Sample.market .no 500000 (by decide)) settled.1 Sample.moment Sample.moment).2 =
        .ok settled ∧
      settled.1.position (Sample.market, .no) = some (Sample.position Sample.market .no 500000 (by decide)))
    (by decide)
  exact ⟨middle, record, hfirst, of_decide_eq_true htest⟩

end VTrade
