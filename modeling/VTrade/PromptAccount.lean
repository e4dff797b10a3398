/-
# What a prompt tells of the account

The prompt of a cycle values the positions of the account at the best frozen bids, as far as
there are such bids: a single position without one leaves the account without a value, and with
it every figure that rests on the value.  The fifteen positions that need attention most are
listed, those without a bid first, and the others are summed up.

Nothing is lost between the two: what is listed and what is summed up come to the figures of the
account.  The total result of the account is what its positions would still bring, and what every
order and every settlement ever recorded has realized; the realized result that is told beside it
is another number, the sum of the rows.
-/

import VTrade.Lib.Newest
import VTrade.Lib.Tally
import VTrade.MarketCapacity
import VTrade.RealizedResults
import Mathlib.Algebra.Order.Monoid.WithTop
import Mathlib.Data.Prod.Lex
import Mathlib.Data.String.Basic

namespace VTrade

/-! ## Tables -/

/-- What a market is called and when it closes. -/
structure PromptMarket where
  question : String
  closeTime : Option Instant

/-- A row of `order_book_levels`. -/
structure BookLevelRow where
  outcomeSide : OutcomeSide
  isBid : Bool
  priceMicros : ℤ

/-- A row of `order_book_snapshots` with its levels. -/
structure BookSnapshotRow where
  id : String
  marketId : MarketKey
  cutoff : Instant
  sourceTimestamp : Option Instant
  levels : List BookLevelRow

/-- The tables that the account of an agent is read from. -/
structure AccountTables where
  db : Database
  /-- `initial_cash_micros` of an agent. -/
  initialCashMicros : String → ℤ
  market : MarketKey → PromptMarket
  snapshots : List BookSnapshotRow

structure PromptSettings where
  maximumMarketCostBasisFraction : DecimalValue
  maximumValuationBidAge : ℤ

structure PromptPosition where
  marketRef : String
  outcome : OutcomeSide
  question : String
  closesAt : Option Instant
  contractUnits : ℤ
  grossCostBasisMicros : ℤ
  entryFeesMicros : ℤ
  bidPriceMicros : Option ℤ
  bidObservedAt : Option Instant

namespace PromptPosition

variable (position : PromptPosition)

/-- `_valid_bid`. -/
def validBid : Bool :=
  position.bidPriceMicros.any (fun price => 0 ≤ price ∧ price ≤ 1000000) &&
    position.bidObservedAt.isSome

/-- `_liquidation_value`, of a position with a valid bid. -/
def liquidationValue : Option ℤ :=
  if position.validBid then
    position.bidPriceMicros.map fun price => (position.contractUnits * price + 50) / 100
  else none

def unrealized : Option ℤ :=
  position.liquidationValue.map fun liquidation =>
    liquidation - position.grossCostBasisMicros - position.entryFeesMicros

end PromptPosition

namespace AccountTables

variable (tables : AccountTables) (settings : PromptSettings)

/-- The bids of a position in the frozen books, with the cutoff and the name of each book. -/
def frozenBids (snapshotIds : List String) (cutoff : Instant) (row : PositionRow) :
    List (BookSnapshotRow × BookLevelRow) :=
  (tables.snapshots.filter fun snapshot =>
      snapshot.marketId = row.marketId ∧ snapshot.id ∈ snapshotIds ∧ snapshot.cutoff ≤ cutoff ∧
        cutoff - settings.maximumValuationBidAge ≤ snapshot.cutoff ∧
        snapshot.sourceTimestamp.all fun timestamp => timestamp ≤ cutoff).flatMap
    fun snapshot => (snapshot.levels.filter fun level =>
      level.outcomeSide = row.outcomeSide ∧ level.isBid).map fun level => (snapshot, level)

/-- The best bid of the latest book. -/
def bestBid (snapshotIds : List String) (cutoff : Instant) (row : PositionRow) :
    Option (BookSnapshotRow × BookLevelRow) :=
  (Newest.newest (fun bid : BookSnapshotRow × BookLevelRow =>
      toLex (bid.1.cutoff, toLex (bid.1.id, bid.2.priceMicros))) 1
    (tables.frozenBids settings snapshotIds cutoff row)).head?

/-- `_prompt_position`. -/
def promptPosition (snapshotIds : List String) (cutoff : Instant) (row : PositionRow) :
    PromptPosition where
  marketRef := row.marketId.marketRef
  outcome := row.outcomeSide
  question := (tables.market row.marketId).question
  closesAt := (tables.market row.marketId).closeTime
  contractUnits := row.contractUnits
  grossCostBasisMicros := row.grossCostBasisMicros
  entryFeesMicros := row.entryFeesMicros
  bidPriceMicros := (tables.bestBid settings snapshotIds cutoff row).map fun bid =>
    bid.2.priceMicros
  bidObservedAt := (tables.bestBid settings snapshotIds cutoff row).map fun bid => bid.1.cutoff

/-- The positions of an agent, by market and outcome. -/
def promptPositions (agentId : String) (snapshotIds : List String) (cutoff : Instant) :
    List PromptPosition :=
  (tables.db.openPositions agentId).map
    (tables.promptPosition settings snapshotIds cutoff)

end AccountTables

/-! ## Figures -/

/-- `_ratio`: a quotient of 28 digits, rounded half up to millionths. -/
def ratioMillionths (numerator : ℤ) (denominator : Option ℤ) : Option ℕ :=
  denominator.bind fun denominator =>
    if denominator ≤ 0 then none
    else
      let quotient := DecimalContext.div 28 (.ofNat numerator.toNat) (.ofNat denominator.toNat)
      some (DecimalContext.toIntegralHalfUp ⟨quotient.num * 1000000, quotient.den⟩)

structure Concentration where
  top1Fraction : Option ℕ
  top5Fraction : Option ℕ
  top10Fraction : Option ℕ
  otherFraction : Option ℕ
  deriving DecidableEq

/-- `_concentration`. -/
def concentration (values : List (WithTop ℤ)) (navMicros : Option ℤ) : Concentration :=
  if navMicros = none ∨ ⊤ ∈ values then ⟨none, none, none, none⟩
  else
    let numeric := values.map fun value => value.untopD 0
    { top1Fraction := ratioMillionths (numeric.take 1).sum navMicros
      top5Fraction := ratioMillionths (numeric.take 5).sum navMicros
      top10Fraction := ratioMillionths (numeric.take 10).sum navMicros
      otherFraction := ratioMillionths (numeric.drop 10).sum navMicros }

theorem concentration_none (values : List (WithTop ℤ)) :
    concentration values none = ⟨none, none, none, none⟩ :=
  if_pos (Or.inl rfl)

/-- An entry of `position_info`. -/
structure PositionPayload where
  marketRef : String
  question : String
  outcome : OutcomeSide
  contractUnits : ℤ
  grossCostBasisMicros : ℤ
  entryFeesMicros : ℤ
  bidPriceMicros : Option ℤ
  liquidationValueMicros : Option ℤ
  unrealizedPnlMicros : Option ℤ
  positionWeight : Option ℕ
  marketCostBasisMicros : ℤ
  marketExposure : Option ℕ
  remainingCapacityMicros : Option ℤ
  closesAt : Option Instant

/-- `_position_payload`. -/
def positionPayload (navMicros : Option ℤ) (marketBasisMicros : ℤ)
    (marketCapacity : Option MarketCapacity) (position : PromptPosition) : PositionPayload where
  marketRef := position.marketRef
  question := position.question
  outcome := position.outcome
  contractUnits := position.contractUnits
  grossCostBasisMicros := position.grossCostBasisMicros
  entryFeesMicros := position.entryFeesMicros
  bidPriceMicros := if position.validBid then position.bidPriceMicros else none
  liquidationValueMicros := position.liquidationValue
  unrealizedPnlMicros := position.unrealized
  positionWeight := position.liquidationValue.bind fun liquidation =>
    ratioMillionths liquidation navMicros
  marketCostBasisMicros := marketBasisMicros
  marketExposure := ratioMillionths marketBasisMicros navMicros
  remainingCapacityMicros := marketCapacity.map MarketCapacity.remainingCapacityMicros
  closesAt := position.closesAt

/-- Two days. -/
def closeSoonHours : ℤ := 48 * 3600000000

/-- What positions are put in order by for attention. -/
abbrev AttentionRank := ℤ ×ₗ ℤ ×ₗ ℤ ×ₗ ℤ ×ₗ ℤ ×ₗ String ×ₗ String

/-- `_attention_key`. -/
def attentionKey (cutoff : Instant) (item : PositionPayload) : AttentionRank :=
  let valuationMissing : ℤ := if item.liquidationValueMicros = none then 0 else 1
  let exposure : ℤ := (item.marketExposure.getD 0 : ℕ)
  let closeSoon : ℤ := item.closesAt.elim 0 fun closesAt =>
    if closesAt ≤ cutoff + closeSoonHours then 0 else 1
  let loss : ℤ := min 0 (item.unrealizedPnlMicros.getD 0)
  let adverse : ℤ := if loss < 0 then 0 else 1
  toLex (valuationMissing, toLex (-exposure, toLex (closeSoon, toLex (adverse, toLex (loss,
    toLex (item.marketRef, item.outcome.value))))))

/-- The sum of what is known of each of some items. -/
def allKnown (values : List (Option ℤ)) : Option ℤ :=
  if none ∈ values then none else some (values.map fun value => value.getD 0).sum

structure AggregatePositions where
  count : ℕ
  marketCount : ℕ
  grossCostBasisMicros : ℤ
  entryFeesMicros : ℤ
  liquidationValueMicros : Option ℤ
  unrealizedPnlMicros : Option ℤ
  deriving DecidableEq

/-- `_aggregate_positions`. -/
def aggregatePositions (positions : List PositionPayload) : AggregatePositions where
  count := positions.length
  marketCount := (positions.map PositionPayload.marketRef).dedup.length
  grossCostBasisMicros := (positions.map PositionPayload.grossCostBasisMicros).sum
  entryFeesMicros := (positions.map PositionPayload.entryFeesMicros).sum
  liquidationValueMicros := allKnown (positions.map PositionPayload.liquidationValueMicros)
  unrealizedPnlMicros := allKnown (positions.map PositionPayload.unrealizedPnlMicros)

/-- An entry of `market_capacities`. -/
structure CapacityPayload where
  marketRef : String
  heldCostBasisMicros : ℤ
  marketLimitMicros : Option ℤ
  remainingCapacityMicros : Option ℤ
  deriving DecidableEq

structure AccountContext where
  cashMicros : ℤ
  portfolioVersion : ℤ
  initialCashMicros : ℤ
  navMicros : Option ℤ
  navComplete : Bool
  realizedPnlMicros : ℤ
  unrealizedPnlMicros : Option ℤ
  totalPnlMicros : Option ℤ
  entryFeesMicros : ℤ
  concentration : Concentration
  marketCapacities : List CapacityPayload
  attentionPositions : List PositionPayload
  otherPositions : AggregatePositions

/-! ## The account -/

/-- The cost of the positions of each market. -/
def heldBasisByMarket (positions : List PromptPosition) : List (String × ℤ) :=
  Tally.ofRows (positions.map fun position => (position.marketRef, position.grossCostBasisMicros))

/-- What the positions of each market would bring, as far as that is known of all of them. -/
def liquidationByMarket (positions : List PromptPosition) : List (String × WithTop ℤ) :=
  Tally.ofRows (positions.map fun position =>
    (position.marketRef, (position.liquidationValue : WithTop ℤ)))

/-- The markets of positions, the most valuable first and those without a value last. -/
def marketOrder (positions : List PromptPosition) : List (String × WithTop ℤ) :=
  Newest.descending (fun item : String × WithTop ℤ =>
    toLex (if item.2 = ⊤ then (0 : ℤ) else 1, toLex (item.2.untopD (-1), item.1)))
    (liquidationByMarket positions)

/-- What all positions would bring, when each of them has a valid bid. -/
def totalLiquidation (positions : List PromptPosition) : Option ℤ :=
  if positions.all PromptPosition.validBid then
    some (positions.map fun position => position.liquidationValue.getD 0).sum
  else none

/-- The capacity of a market, when the account has a value. -/
def capacityOf (settings : PromptSettings) (navMicros : Option ℤ) (heldCostBasisMicros : ℤ) :
    Except Raised (Option MarketCapacity) :=
  match navMicros with
  | none => .ok none
  | some navMicros => do
      let capacity ← calculateMarketCapacity navMicros settings.maximumMarketCostBasisFraction
        heldCostBasisMicros 0
      .ok (some capacity)

/-- The capacities of the markets of positions, by market. -/
def capacitiesByMarket (settings : PromptSettings) (navMicros : Option ℤ)
    (held : List (String × ℤ)) : Except Raised (List (String × ℤ × Option MarketCapacity)) :=
  (held.insertionSort fun first second => first.1 ≤ second.1).mapM fun row => do
    let capacity ← capacityOf settings navMicros row.2
    .ok (row.1, row.2, capacity)

/-- The capacity under the name of a market. -/
def capacityUnder (capacities : List (String × ℤ × Option MarketCapacity)) (marketRef : String) :
    Option MarketCapacity :=
  (KeyedList.lookup Prod.fst marketRef capacities).bind fun row => row.2.2

/-- `position_info`, those that need attention most first. -/
def positionInfo (cutoff : Instant) (navMicros : Option ℤ)
    (capacities : List (String × ℤ × Option MarketCapacity)) (positions : List PromptPosition) :
    List PositionPayload :=
  (positions.map fun position =>
      positionPayload navMicros (Tally.get (heldBasisByMarket positions) position.marketRef)
        (capacityUnder capacities position.marketRef) position).insertionSort
    fun first second => attentionKey cutoff first ≤ attentionKey cutoff second

def capacityPayload (row : String × ℤ × Option MarketCapacity) : CapacityPayload where
  marketRef := row.1
  heldCostBasisMicros := row.2.1
  marketLimitMicros := row.2.2.map MarketCapacity.marketLimitMicros
  remainingCapacityMicros := row.2.2.map MarketCapacity.remainingCapacityMicros

/-- `_account_context`. -/
def AccountTables.accountContext (tables : AccountTables) (settings : PromptSettings)
    (agentId : String) (cutoff : Instant) (snapshotIds : List String) :
    Except Raised AccountContext :=
  match tables.db.portfolioVersion agentId with
  | none => .error (.runtimeError "agent account is missing")
  | some portfolioVersion => do
      let positions := tables.promptPositions settings agentId snapshotIds cutoff
      let cashMicros := cashAmount (tables.db.ledgerPostings agentId)
      let totalLiquidation := totalLiquidation positions
      let navMicros := totalLiquidation.map fun liquidation => cashMicros + liquidation
      let basis := (positions.map PromptPosition.grossCostBasisMicros).sum
      let entryFeesMicros := (positions.map PromptPosition.entryFeesMicros).sum
      let capacities ← capacitiesByMarket settings navMicros (heldBasisByMarket positions)
      let info := positionInfo cutoff navMicros capacities positions
      .ok {
        cashMicros := cashMicros
        portfolioVersion := portfolioVersion
        initialCashMicros := tables.initialCashMicros agentId
        navMicros := navMicros
        navComplete := positions.all PromptPosition.validBid
        realizedPnlMicros := tables.db.realizedPnlMicros agentId
        unrealizedPnlMicros := totalLiquidation.map fun liquidation =>
          liquidation - basis - entryFeesMicros
        totalPnlMicros := navMicros.map fun nav => nav - tables.initialCashMicros agentId
        entryFeesMicros := entryFeesMicros
        concentration := concentration ((marketOrder positions).map Prod.snd) navMicros
        marketCapacities := capacities.map capacityPayload
        attentionPositions := info.take 15
        otherPositions := aggregatePositions (info.drop 15) }

/-! ## What is listed and what is summed up -/

section Listed

variable {cutoff : Instant} {navMicros : Option ℤ} {settings : PromptSettings}
  {held : List (String × ℤ)} {capacities : List (String × ℤ × Option MarketCapacity)}
  {positions : List PromptPosition} {position : PromptPosition}

theorem PromptPosition.liquidationValue_eq_none_iff :
    position.liquidationValue = none ↔ position.validBid = false := by
  unfold liquidationValue
  by_cases hvalid : position.validBid = true
  · rw [if_pos hvalid, hvalid, Option.map_eq_none_iff]
    unfold validBid at hvalid
    obtain ⟨hprice, -⟩ := (Bool.and_eq_true _ _).mp hvalid
    refine iff_of_false (fun hnone => ?_) (by simp)
    rw [hnone] at hprice
    exact absurd hprice (by simp)
  · rw [if_neg hvalid]
    exact iff_of_true rfl (Bool.eq_false_iff.mpr hvalid)

theorem capacitiesByMarket_spec
    (h : capacitiesByMarket settings navMicros held = .ok capacities) :
    (capacities.map fun row => (row.1, row.2.1)).Perm held ∧
      (navMicros = none → ∀ row ∈ capacities, row.2.2 = none) := by
  unfold capacitiesByMarket at h
  have hperm := List.perm_insertionSort (fun first second : String × ℤ => first.1 ≤ second.1) held
  generalize held.insertionSort (fun first second => first.1 ≤ second.1) = sorted at h hperm
  suffices hrows : (capacities.map fun row => (row.1, row.2.1)) = sorted ∧
      (navMicros = none → ∀ row ∈ capacities, row.2.2 = none) by
    rw [hrows.1]
    exact ⟨hperm, hrows.2⟩
  clear hperm
  replace h := Checks.mapM_eq_ok_iff.mp h
  induction h with
  | nil => exact ⟨rfl, fun _ _ hrow => by cases hrow⟩
  | @cons first row rest later hrow _ ih =>
      obtain ⟨capacity, hcapacity, hrow⟩ := Checks.bind_eq_ok.mp hrow
      cases hrow
      refine ⟨by rw [List.map_cons, ih.1], fun hnav other hother => ?_⟩
      rcases List.mem_cons.mp hother with rfl | hmem
      · subst hnav
        cases hcapacity
        rfl
      · exact ih.2 hnav other hmem

/-- The entries of the positions, in any order. -/
theorem positionInfo_perm (cutoff : Instant) (navMicros : Option ℤ)
    (capacities : List (String × ℤ × Option MarketCapacity)) (positions : List PromptPosition) :
    (positionInfo cutoff navMicros capacities positions).Perm (positions.map fun position =>
      positionPayload navMicros (Tally.get (heldBasisByMarket positions) position.marketRef)
        (capacityUnder capacities position.marketRef) position) :=
  List.perm_insertionSort _ _

/-- What every position has one of comes to the same for those listed and those summed up. -/
theorem sum_positionInfo {f : PositionPayload → ℤ} {g : PromptPosition → ℤ}
    (h : ∀ navMicros basis capacity position,
      f (positionPayload navMicros basis capacity position) = g position) (n : ℕ) :
    (((positionInfo cutoff navMicros capacities positions).take n).map f).sum +
        (((positionInfo cutoff navMicros capacities positions).drop n).map f).sum =
      (positions.map g).sum := by
  rw [← List.sum_append, ← List.map_append, List.take_append_drop,
    ((positionInfo_perm _ _ _ _).map f).sum_eq, List.map_map]
  exact congrArg List.sum (List.map_congr_left fun position _ => h _ _ _ position)

theorem allKnown_eq_some {values : List (Option ℤ)} (h : ∀ value ∈ values, value ≠ none) :
    allKnown values = some (values.map fun value => value.getD 0).sum :=
  if_neg fun hnone => h none hnone rfl

theorem allKnown_eq_none_iff {values : List (Option ℤ)} : allKnown values = none ↔ none ∈ values := by
  unfold allKnown
  split
  next hnone => exact iff_of_true rfl hnone
  next hnone => exact iff_of_false (Option.some_ne_none _) hnone

/-- The positions without a value are listed before all others. -/
theorem unvalued_first {n : ℕ} {item other : PositionPayload}
    (hitem : item ∈ (positionInfo cutoff navMicros capacities positions).take n)
    (hother : other ∈ (positionInfo cutoff navMicros capacities positions).drop n)
    (hnone : other.liquidationValueMicros = none) : item.liquidationValueMicros = none := by
  have hsorted : (positionInfo cutoff navMicros capacities positions).Pairwise
      fun first second => attentionKey cutoff first ≤ attentionKey cutoff second :=
    List.pairwise_insertionSort _ _
  rw [← List.take_append_drop n (positionInfo cutoff navMicros capacities positions)] at hsorted
  have hle := (List.pairwise_append.mp hsorted).2.2 item hitem other hother
  unfold attentionKey at hle
  rw [Prod.Lex.toLex_le_toLex, if_pos hnone] at hle
  by_contra hknown
  rw [if_neg hknown] at hle
  rcases hle with hlt | ⟨heq, -⟩
  · exact absurd hlt (show ¬ (1 : ℤ) < 0 by decide)
  · exact absurd heq (show (1 : ℤ) ≠ 0 by decide)

end Listed

/-! ## The figures -/

/-- The figures of an account, its listed positions and the others come to the rows. -/
structure AddsUp (tables : AccountTables) (agentId : String) (context : AccountContext) :
    Prop where
  listed : context.attentionPositions.length = min 15 (tables.db.openPositions agentId).length
  count : context.attentionPositions.length + context.otherPositions.count =
    (tables.db.openPositions agentId).length
  basis : (context.attentionPositions.map PositionPayload.grossCostBasisMicros).sum +
      context.otherPositions.grossCostBasisMicros =
    ((tables.db.openPositions agentId).map PositionRow.grossCostBasisMicros).sum
  fees : (context.attentionPositions.map PositionPayload.entryFeesMicros).sum +
      context.otherPositions.entryFeesMicros = context.entryFeesMicros
  entryFees : context.entryFeesMicros =
    ((tables.db.openPositions agentId).map PositionRow.entryFeesMicros).sum
  capacities : (context.marketCapacities.map CapacityPayload.heldCostBasisMicros).sum =
    ((tables.db.openPositions agentId).map PositionRow.grossCostBasisMicros).sum
  /-- With a valid bid for every position, every figure of value is there. -/
  complete : context.navComplete = true → ∃ otherLiquidation otherUnrealized,
    context.otherPositions.liquidationValueMicros = some otherLiquidation ∧
      context.otherPositions.unrealizedPnlMicros = some otherUnrealized ∧
      (∀ item ∈ context.attentionPositions, item.liquidationValueMicros.isSome = true ∧
        item.unrealizedPnlMicros.isSome = true) ∧
      context.navMicros = some (context.cashMicros + ((context.attentionPositions.map fun item =>
        item.liquidationValueMicros.getD 0).sum + otherLiquidation)) ∧
      context.unrealizedPnlMicros = some ((context.attentionPositions.map fun item =>
        item.unrealizedPnlMicros.getD 0).sum + otherUnrealized) ∧
      context.totalPnlMicros = context.navMicros.map fun nav => nav - context.initialCashMicros
  /-- Without, there is none, and a position without a value is listed: all of those listed are
  without one before there is one among the others. -/
  incomplete : context.navComplete = false →
    context.navMicros = none ∧ context.unrealizedPnlMicros = none ∧
      context.totalPnlMicros = none ∧ context.concentration = ⟨none, none, none, none⟩ ∧
      (∀ row ∈ context.marketCapacities,
        row.marketLimitMicros = none ∧ row.remainingCapacityMicros = none) ∧
      (∀ item ∈ context.attentionPositions, item.positionWeight = none ∧
        item.marketExposure = none ∧ item.remainingCapacityMicros = none) ∧
      (∃ item ∈ context.attentionPositions, item.liquidationValueMicros = none) ∧
      (context.otherPositions.liquidationValueMicros = none →
        ∀ item ∈ context.attentionPositions, item.liquidationValueMicros = none)

section Figures

variable {tables : AccountTables} {settings : PromptSettings} {agentId : String}
  {cutoff : Instant} {snapshotIds : List String} {context : AccountContext}

theorem sum_unrealized (positions : List PromptPosition)
    (h : ∀ position ∈ positions, position.validBid = true) :
    (positions.map fun position => position.unrealized.getD 0).sum =
      (positions.map fun position => position.liquidationValue.getD 0).sum -
        (positions.map PromptPosition.grossCostBasisMicros).sum -
        (positions.map PromptPosition.entryFeesMicros).sum := by
  induction positions with
  | nil => rfl
  | cons first rest ih =>
      obtain ⟨hfirst, hrest⟩ := List.forall_mem_cons.mp h
      have hknown : first.liquidationValue ≠ none := fun hnone => by
        rw [PromptPosition.liquidationValue_eq_none_iff.mp hnone] at hfirst
        cases hfirst
      obtain ⟨value, hvalue⟩ := Option.ne_none_iff_exists'.mp hknown
      simp only [List.map_cons, List.sum_cons]
      rw [ih hrest, PromptPosition.unrealized, hvalue]
      simp only [Option.map_some, Option.getD_some]
      ring

/-- What is known of every position is known of those listed and of the others. -/
theorem known_positionInfo {f : PositionPayload → Option ℤ} {g : PromptPosition → Option ℤ}
    {navMicros : Option ℤ} {capacities : List (String × ℤ × Option MarketCapacity)}
    {positions : List PromptPosition}
    (h : ∀ navMicros basis capacity position,
      f (positionPayload navMicros basis capacity position) = g position)
    (hknown : ∀ position ∈ positions, g position ≠ none) (n : ℕ) :
    let info := positionInfo cutoff navMicros capacities positions
    ∃ others, allKnown ((info.drop n).map f) = some others ∧
      (∀ item ∈ info.take n, (f item).isSome = true) ∧
      ((info.take n).map fun item => (f item).getD 0).sum + others =
        (positions.map fun position => (g position).getD 0).sum := by
  intro info
  have hall : ∀ item ∈ info, f item ≠ none := by
    intro item hitem
    obtain ⟨position, hposition, rfl⟩ :=
      List.mem_map.mp ((positionInfo_perm _ _ _ _).mem_iff.mp hitem)
    rw [h]
    exact hknown position hposition
  have hsum := @sum_positionInfo cutoff navMicros capacities positions
    (fun item => (f item).getD 0) (fun position => (g position).getD 0)
    (fun navMicros basis capacity position => by rw [h]) n
  refine ⟨_, allKnown_eq_some ?_, ?_, ?_⟩
  · intro value hvalue
    obtain ⟨item, hitem, rfl⟩ := List.mem_map.mp hvalue
    exact hall item (List.mem_of_mem_drop hitem)
  · exact fun item hitem => Option.isSome_iff_ne_none.mpr
      (hall item (List.mem_of_mem_take hitem))
  · rw [← hsum, List.map_map]
    rfl

theorem listed_unvalued {navMicros : Option ℤ}
    {capacities : List (String × ℤ × Option MarketCapacity)} {positions : List PromptPosition}
    (h : positions.all PromptPosition.validBid = false) {n : ℕ} (hn : 0 < n) :
    let info := positionInfo cutoff navMicros capacities positions
    (∃ item ∈ info.take n, item.liquidationValueMicros = none) ∧
      (allKnown ((info.drop n).map PositionPayload.liquidationValueMicros) = none →
        ∀ item ∈ info.take n, item.liquidationValueMicros = none) := by
  intro info
  have hall : allKnown ((info.drop n).map PositionPayload.liquidationValueMicros) = none →
      ∀ item ∈ info.take n, item.liquidationValueMicros = none := by
    intro hunknown item hitem
    obtain ⟨other, hother, hnone⟩ := List.mem_map.mp (allKnown_eq_none_iff.mp hunknown)
    exact unvalued_first hitem hother hnone
  refine ⟨?_, hall⟩
  obtain ⟨position, hposition, hinvalid⟩ := List.all_eq_false.mp h
  have hmem := (positionInfo_perm cutoff navMicros capacities positions).mem_iff.mpr
    (List.mem_map_of_mem hposition)
  generalize hitem : positionPayload navMicros (Tally.get (heldBasisByMarket positions)
    position.marketRef) (capacityUnder capacities position.marketRef) position = item at hmem
  have hnone : item.liquidationValueMicros = none := by
    rw [← hitem]
    exact PromptPosition.liquidationValue_eq_none_iff.mpr (Bool.eq_false_iff.mpr hinvalid)
  rw [← List.take_append_drop n (positionInfo cutoff navMicros capacities positions)] at hmem
  rcases List.mem_append.mp hmem with hlisted | hother
  · exact ⟨item, hlisted, hnone⟩
  · -- Then there are more than `n`, and the first of them has no value either.
    have hlisted : 0 < (info.take n).length := by
      have hdrop : 0 < (info.drop n).length := List.length_pos_of_mem hother
      rw [List.length_drop] at hdrop
      rw [List.length_take]
      exact lt_min hn (hdrop.trans_le (Nat.sub_le _ _))
    obtain ⟨first, hfirst⟩ := List.exists_mem_of_length_pos hlisted
    exact ⟨first, hfirst, unvalued_first hfirst hother hnone⟩

/-- Whatever the positions and the frozen books are: the listed positions and the others come to
the figures of the account. -/
theorem account_adds_up
    (h : tables.accountContext settings agentId cutoff snapshotIds = .ok context) :
    AddsUp tables agentId context := by
  unfold AccountTables.accountContext at h
  split at h
  · cases h
  next portfolioVersion hversion =>
    obtain ⟨capacities, hcapacities, h⟩ := Checks.bind_eq_ok.mp h
    obtain ⟨hheld, hnone⟩ := capacitiesByMarket_spec hcapacities
    generalize hpositions : tables.promptPositions settings agentId snapshotIds cutoff =
      positions at h hheld hnone
    have hrows {f : PositionRow → ℤ} {g : PromptPosition → ℤ}
        (hsame : ∀ row, g (tables.promptPosition settings snapshotIds cutoff row) = f row) :
        (positions.map g).sum = ((tables.db.openPositions agentId).map f).sum := by
      rw [← hpositions, AccountTables.promptPositions, List.map_map]
      exact congrArg List.sum (List.map_congr_left fun row _ => hsame row)
    have hlength : positions.length = (tables.db.openPositions agentId).length := by
      rw [← hpositions, AccountTables.promptPositions, List.length_map]
    have hinfo (navMicros : Option ℤ) :
        (positionInfo cutoff navMicros capacities positions).length = positions.length := by
      rw [(positionInfo_perm _ _ _ _).length_eq, List.length_map]
    cases h
    clear hcapacities
    refine {
      listed := ?_, count := ?_, basis := ?_, fees := ?_, entryFees := ?_, capacities := ?_
      complete := fun hcomplete => ?_, incomplete := fun hincomplete => ?_ }
    · rw [List.length_take, hinfo, hlength]
    · change _ + (List.drop 15 _).length = _
      rw [List.length_take, List.length_drop, hinfo, hlength]
      omega
    · exact (sum_positionInfo (fun _ _ _ _ => rfl) 15).trans (hrows fun _ => rfl)
    · exact sum_positionInfo (fun _ _ _ _ => rfl) 15
    · exact hrows fun _ => rfl
    · have hsum := (hheld.map Prod.snd).sum_eq
      rw [heldBasisByMarket, Tally.sum_ofRows, List.map_map, List.map_map] at hsum
      rw [List.map_map]
      exact hsum.trans (hrows (g := PromptPosition.grossCostBasisMicros) fun _ => rfl)
    · have hvalid : ∀ position ∈ positions, position.validBid = true :=
        List.all_eq_true.mp hcomplete
      have hknown : ∀ position ∈ positions, position.liquidationValue ≠ none := by
        intro position hposition hnone
        rw [PromptPosition.liquidationValue_eq_none_iff, hvalid position hposition] at hnone
        cases hnone
      obtain ⟨liquidation, hliquidation, hlisted, hsum⟩ := known_positionInfo
        (f := PositionPayload.liquidationValueMicros) (fun _ _ _ _ => rfl) hknown 15
      obtain ⟨unrealized, hunrealized, hlisted', hsum'⟩ := known_positionInfo
        (f := PositionPayload.unrealizedPnlMicros) (g := PromptPosition.unrealized)
        (fun _ _ _ _ => rfl) (fun position hposition hnone =>
          hknown position hposition (Option.map_eq_none_iff.mp hnone)) 15
      refine ⟨liquidation, unrealized, hliquidation, hunrealized,
        fun item hitem => ⟨hlisted item hitem, hlisted' item hitem⟩, ?_, ?_, rfl⟩
      · rw [hsum, totalLiquidation, if_pos hcomplete]
        rfl
      · rw [hsum', sum_unrealized positions hvalid, totalLiquidation, if_pos hcomplete]
        rfl
    · have hnav : totalLiquidation positions = none := if_neg (Bool.eq_false_iff.mp hincomplete)
      rw [hnav] at hnone ⊢
      obtain ⟨hunvalued, hothers⟩ := @listed_unvalued cutoff none capacities positions
        hincomplete 15 (by decide)
      refine ⟨rfl, rfl, rfl, concentration_none ((marketOrder positions).map Prod.snd), ?_, ?_,
        hunvalued, hothers⟩
      · intro row hrow
        obtain ⟨capacity, hcapacity, rfl⟩ := List.mem_map.mp hrow
        rw [capacityPayload, hnone rfl capacity hcapacity]
        exact ⟨rfl, rfl⟩
      · intro item hitem
        obtain ⟨position, -, rfl⟩ := List.mem_map.mp
          ((positionInfo_perm _ _ _ _).mem_iff.mp (List.mem_of_mem_take hitem))
        refine ⟨?_, rfl, ?_⟩
        · exact Option.bind_eq_none_iff.mpr fun _ _ => rfl
        · refine Option.map_eq_none_iff.mpr (Option.bind_eq_none_iff.mpr fun row hrow => ?_)
          exact hnone rfl row (KeyedList.mem_of_lookup_eq_some hrow)

end Figures

/-! ## What has been earned -/

namespace Database

variable {db next : Database} {agentId : String} {portfolio : ContractPortfolio}

/-- Cash, and what the open positions have cost. -/
def worthAtCost (db : Database) (agentId : String) : ℤ :=
  cashAmount (db.ledgerPostings agentId) + ((db.openPositions agentId).map fun row =>
    row.grossCostBasisMicros + row.entryFeesMicros).sum

theorem worthAtCost_eq_of_books (h : next.books agentId = db.books agentId) :
    next.worthAtCost agentId = db.worthAtCost agentId := by
  have hopen (tables : Database) : tables.openPositions agentId =
      (((tables.books agentId).2.filter fun row => 0 < row.contractUnits).insertionSort
        fun first second => first.precedes second) := by
    rw [openPositions, books, List.filter_filter]
    congr 2
    funext row
    rw [Bool.and_comm, Bool.decide_and]
  rw [worthAtCost, worthAtCost, ledgerPostings_eq_of_books h, hopen, hopen, h]

/-- Holdings that are the same at cost carry the same. -/
theorem carried_eq_of_atCost {first second : PositionKey →₀ Books.Holding}
    (h : ∀ key, (first key).atCost = (second key).atCost) :
    first.sum (fun _ holding => holding.carried) =
      second.sum (fun _ holding => holding.carried) := by
  have hsame : first.mapRange Books.Holding.atCost Books.Holding.atCost_zero =
      second.mapRange Books.Holding.atCost Books.Holding.atCost_zero :=
    Finsupp.ext h
  have hcarried (holdings : PositionKey →₀ Books.Holding) :
      (holdings.mapRange Books.Holding.atCost Books.Holding.atCost_zero).sum
        (fun _ holding => holding.carried) = holdings.sum fun _ holding => holding.carried :=
    Finsupp.sum_mapRange_index fun _ => Books.Holding.carried_zero
  rw [← hcarried, hsame, hcarried]

/-- A portfolio that is loaded has what the tables have put into cash and positions. -/
theorem worthAtCost_of_load (hload : db.loadContractPortfolio agentId = .ok portfolio) :
    db.worthAtCost agentId = portfolio.cashMicros + (portfolio.positions.map fun position =>
      position.grossCostBasisMicros + position.entryFeesMicros).sum := by
  rw [Database.worthAtCost, (load_spec hload).cash]
  congr 1
  unfold loadContractPortfolio at hload
  split at hload
  · cases hload
  next =>
    obtain ⟨positions, hpositions, hload⟩ := Checks.bind_eq_ok.mp hload
    have hfields := congrArg (List.map fun fields : ContractPositionFields =>
      fields.grossCostBasisMicros + fields.entryFeesMicros) (fields_of_mapM hpositions)
    rw [List.map_map, List.map_map] at hfields
    rw [ContractPortfolio.make_eq_ok_iff.mp hload]
    exact (congrArg List.sum hfields).symm

/-- The portfolio that the tables show has what they have put into cash and positions. -/
theorem Shows.worthAtCost (h : db.Shows agentId portfolio) :
    db.worthAtCost agentId = portfolio.account.equity + portfolio.realizedPnlMicros := by
  obtain ⟨loaded, hload⟩ := h.load_isOk
  have hloads := load_spec hload
  have hcarried := carried_eq_of_atCost fun key => h.holding_of_load hloads key
  have hequity : loaded.account.equity + loaded.realizedPnlMicros =
      portfolio.account.equity + portfolio.realizedPnlMicros := by
    have hcash : loaded.cashMicros = portfolio.cashMicros := hloads.cash.trans h.cash
    simp only [Books.Account.equity, hcarried]
    change loaded.cashMicros + _ - loaded.realizedPnlMicros + _ =
      portfolio.cashMicros + _ - portfolio.realizedPnlMicros + _
    rw [hcash]
    ring
  rw [← hequity, ContractPortfolio.account_equity, sub_add_cancel]
  exact worthAtCost_of_load hload

end Database

/-- What a step has realized for an agent. -/
def earnedInStep (agentId : String) : Except Raised WorkerEvent → ℤ
  | .ok (.recorded decision persisted) =>
      if persisted.created ∧ decision.result.fills ≠ [] ∧
          decision.result.request.agentId = agentId then
        match decision.result.portfolioBefore, decision.result.portfolioAfter with
        | some before, some after => after.realizedPnlMicros - before.realizedPnlMicros
        | _, _ => 0
      else 0
  | .ok (.settled record persisted) =>
      if persisted.created ∧ record.ledgerEntry.agentId = agentId then record.realizedPnlMicros
      else 0
  | _ => 0

theorem earnedInStep_of_not_moved {agentId : String} {answer : Except Raised WorkerEvent}
    (h : movedAgent answer ≠ some agentId) : earnedInStep agentId answer = 0 := by
  cases answer with
  | error error => rfl
  | ok event =>
      cases event with
      | proceeded => rfl
      | reserved reservation => rfl
      | answered result => rfl
      | recorded decision persisted =>
          apply if_neg
          rintro ⟨hcreated, hfills, hagent⟩
          apply h
          rw [movedAgent, if_pos ⟨hcreated, hfills⟩, hagent]
      | settled record persisted =>
          apply if_neg
          rintro ⟨hcreated, hagent⟩
          apply h
          rw [movedAgent, if_pos hcreated, hagent]

/-- An order that is booked leaves the equity. -/
theorem OrderBooked.equity {before after : ContractPortfolio} {request : OrderRequest}
    {fills : List EconomicFill} {operationId : String} {occurredAt : Datetime}
    {entry : LedgerEntry} {loop : FillLoop}
    (h : OrderBooked before request fills operationId occurredAt after entry loop)
    (hopen : before.AllOpen) : after.account.equity = before.account.equity := by
  rw [h.account hopen, Books.Account.equity_post, imbalance_eq_zero_of_posts h.posts_movement,
    add_zero]

theorem SettlementBooked.equity {portfolio after : ContractPortfolio} {position : ContractPosition}
    {result : OutcomeSide} {settlementTs settledAt : Datetime} {resolutionId : String}
    {record : SettlementRecord}
    (h : SettlementBooked portfolio position result settlementTs resolutionId settledAt after
      record) (hposition : portfolio.position position.key = some position) :
    after.account.equity = portfolio.account.equity := by
  rw [h.account hposition, Books.Account.equity_post, imbalance_eq_zero_of_posts h.posts_movement,
    add_zero]

namespace Runtime

variable {runtime : Runtime} {state : Workers} {agentId : String}

/-- What a new order has realized is what the worth of the account has grown by. -/
theorem Projected.order_worth (h : runtime.Projected state) {worker : ℕ} {call : Submission}
    {reservedId : String} {portfolio : ContractPortfolio} {decision : Decision} {next : Database}
    (hjob : state.jobs worker = .decided call reservedId portfolio decision)
    (hrecords : Database.RecordsOrder runtime.digests state.db
      decision.result.toOrderResultFields call.agentId reservedId next)
    (hfills : decision.result.fills ≠ []) :
    ∃ before after, decision.result.portfolioBefore = some before ∧
      decision.result.portfolioAfter = some after ∧
      next.worthAtCost call.agentId = state.db.worthAtCost call.agentId +
        (after.realizedPnlMicros - before.realizedPnlMicros) := by
  obtain ⟨hshows, shown, hshown, hnext⟩ := h.order hjob hrecords hfills
  cases (h.kept.decides hjob).accounted with
  | unfilled hnone => exact absurd hnone hfills
  | filled hbooked hbefore hafter hentries =>
      obtain ⟨loop, -, hbooked⟩ := applyOrderFills_spec hbooked
      obtain rfl := Option.some.inj (hafter.symm.trans hshown)
      refine ⟨_, _, hbefore, hafter, ?_⟩
      rw [hnext.worthAtCost, hshows.worthAtCost, hbooked.equity hshows.allOpen]
      ring

/-- Every step adds to the worth of an account what it has realized for it. -/
theorem Projected.step_worth (h : runtime.Projected state) (action : WorkerAction) :
    (runtime.step state action).1.db.worthAtCost agentId =
      state.db.worthAtCost agentId + earnedInStep agentId (runtime.step state action).2 := by
  have htransition := (step_kept h.kept h.agree action).transition
  by_cases hmoved : movedAgent (runtime.step state action).2 = some agentId
  · cases step_writes h.kept action with
    | nothing _ _ hnone =>
        rw [hnone] at hmoved
        cases hmoved
    | beside _ _ hnone =>
        rw [hnone] at hmoved
        cases hmoved
    | order _ hjob hanswered hcreated hrecords =>
        have howned := h.kept.agentId_of_decided hjob
        rw [hanswered] at hmoved ⊢
        simp only [movedAgent, Option.ite_none_right_eq_some, Option.some.injEq] at hmoved
        obtain ⟨⟨-, hfills⟩, rfl⟩ := hmoved
        obtain ⟨before, after, hbefore, hafter, hworth⟩ := h.order_worth hjob hrecords hfills
        rw [earnedInStep, if_pos ⟨hcreated, hfills, rfl⟩, hbefore, hafter, howned]
        exact hworth
    | settlement _ hjob hloaded hanswered hcreated hsettles =>
        cases hsettles with
        | replayed hcreated' =>
            rw [hcreated] at hcreated'
            cases hcreated'
        | recorded _ hbooked hposition howned _ hrecords =>
            rw [hanswered] at hmoved ⊢
            simp only [movedAgent, hcreated, if_true, Option.some.injEq] at hmoved
            obtain ⟨hshows, hnext⟩ := h.settlement hjob hloaded hbooked hposition hrecords
            have hagent := hbooked.entry_agentId.trans howned
            have hkey := KeyedList.key_of_lookup_eq_some hposition
            rw [earnedInStep, if_pos ⟨hcreated, hmoved⟩, ← hmoved, hagent, hnext.worthAtCost,
              hshows.worthAtCost, hbooked.equity (by rw [hkey]; exact hposition)]
            rw [hbooked.record_eq, hbooked.portfolio_eq]
            ring
  · rw [earnedInStep_of_not_moved hmoved, add_zero]
    exact Database.worthAtCost_eq_of_books (htransition.others agentId hmoved).2

/-- What a run has realized for an agent. -/
def earned (runtime : Runtime) (start : Workers) (actions : List WorkerAction)
    (agentId : String) : ℤ :=
  ((Runs.trace runtime.step start actions).map fun entry => earnedInStep agentId entry.2).sum

theorem Projected.run_worth {start : Workers} (h : runtime.Projected start)
    {actions : List WorkerAction}
    (hknows : Runs.Along runtime.step KnowsSettlements start actions) :
    (Runs.final runtime.step start actions).db.worthAtCost agentId =
      start.db.worthAtCost agentId + runtime.earned start actions agentId := by
  induction actions generalizing start with
  | nil => exact (add_zero _).symm
  | cons action rest ih =>
      obtain ⟨hfirst, hrest⟩ := hknows
      have hlater := ih (h.step hfirst) hrest
      rw [h.step_worth] at hlater
      rw [earned, Runs.trace, List.map_cons, List.sum_cons, ← add_assoc]
      exact hlater

/-- The total result that a prompt tells, after any interleaving of the steps of any number of
workers: what the open positions would still bring, and what every order and every settlement
that was recorded has realized. -/
theorem prompt_total (runtime : Runtime) {start : Workers} (h : start.Bootstrapped)
    {actions : List WorkerAction}
    (hknows : Runs.Along runtime.step KnowsSettlements start actions) {tables : AccountTables}
    (htables : tables.db = (Runs.final runtime.step start actions).db) {agentId : String}
    (hcapital : tables.initialCashMicros agentId = cashAmount (start.db.ledgerPostings agentId))
    {settings : PromptSettings} {cutoff : Instant} {snapshotIds : List String}
    {context : AccountContext}
    (hcontext : tables.accountContext settings agentId cutoff snapshotIds = .ok context) :
    context.totalPnlMicros = context.unrealizedPnlMicros.map fun unrealized =>
      unrealized + runtime.earned start actions agentId := by
  have hworth : tables.db.worthAtCost agentId =
      tables.initialCashMicros agentId + runtime.earned start actions agentId := by
    have hstart : start.db.openPositions agentId = [] := by
      rw [Database.openPositions, h.positions]
      rfl
    rw [htables, (Projected.atRest h.toAtRest h.agree).run_worth hknows, hcapital,
      Database.worthAtCost, hstart]
    simp
  rw [Database.worthAtCost] at hworth
  unfold AccountTables.accountContext at hcontext
  split at hcontext
  · cases hcontext
  next =>
    obtain ⟨capacities, -, hcontext⟩ := Checks.bind_eq_ok.mp hcontext
    cases hcontext
    have hcost : ((tables.promptPositions settings agentId snapshotIds cutoff).map
          PromptPosition.grossCostBasisMicros).sum +
        ((tables.promptPositions settings agentId snapshotIds cutoff).map
          PromptPosition.entryFeesMicros).sum =
        ((tables.db.openPositions agentId).map fun row =>
          row.grossCostBasisMicros + row.entryFeesMicros).sum := by
      rw [← List.sum_map_add, AccountTables.promptPositions, List.map_map]
      rfl
    cases hvalue : totalLiquidation
        (tables.promptPositions settings agentId snapshotIds cutoff) with
    | none => simp only [Option.map_none]
    | some liquidation =>
        simp only [Option.map_some, Option.some.injEq]
        linarith

end Runtime

/-! ## After a purchase -/

namespace Sample

def promptSettings : PromptSettings := ⟨.finite (3 / 20), 300000000⟩

/-- A frozen book with two bids for the outcome that was bought. -/
def frozenBook : BookSnapshotRow where
  id := "book"
  marketId := market
  cutoff := 3600000000
  sourceTimestamp := none
  levels := [⟨.yes, true, 380000⟩, ⟨.yes, true, 400000⟩, ⟨.yes, false, 450000⟩]

/-- The tables after a purchase. -/
def purchasedTables : AccountTables where
  db := (Runs.final runtime.step workers observedPurchase).db
  initialCashMicros _ := 1000000000
  market _ := ⟨"Will it rain?", none⟩
  snapshots := [frozenBook]

theorem observedPurchase_alone :
    Runs.Along runtime.step Runtime.KnowsSettlements workers observedPurchase :=
  ((Runs.along_append _ _ _ _).mp observedPurchase_knows).1

set_option maxRecDepth 10000 in
theorem purchasedTables_context : ∃ context,
    purchasedTables.accountContext promptSettings "agent" 3600000000 ["book"] = .ok context ∧
      (context.navComplete && decide (context.attentionPositions.length = 1)) = true :=
  Checks.exists_ok_of_any _ _ (by decide +kernel)

end Sample

/-- The one position of an account is listed and its value is known. -/
theorem account_adds_up_purchase : ∃ context,
    Sample.purchasedTables.accountContext Sample.promptSettings "agent" 3600000000 ["book"] =
      .ok context ∧ context.navComplete = true ∧
      AddsUp Sample.purchasedTables "agent" context := by
  obtain ⟨context, hcontext, htest⟩ := Sample.purchasedTables_context
  exact ⟨context, hcontext, ((Bool.and_eq_true _ _).mp htest).1, account_adds_up hcontext⟩

set_option maxRecDepth 10000 in
/-- After a purchase the total result is that of the position. -/
theorem prompt_total_purchase : ∃ context,
    Sample.purchasedTables.accountContext Sample.promptSettings "agent" 3600000000 ["book"] =
      .ok context ∧
      context.totalPnlMicros = context.unrealizedPnlMicros.map fun unrealized =>
        unrealized + Sample.runtime.earned Sample.workers Sample.observedPurchase "agent" := by
  obtain ⟨context, hcontext, -⟩ := Sample.purchasedTables_context
  exact ⟨context, hcontext, Sample.runtime.prompt_total Sample.workers_bootstrapped
    Sample.observedPurchase_alone rfl (by decide +kernel) hcontext⟩

end VTrade
