/-
# Metrics that fit together

Whatever candles there are up to the cutoff, and whichever sides the book has, the metrics of a
market can be calculated and fit together: the indicative prices are complements, the spread of
the bids is not negative, the score is between zero and one, and a trend compares two complete
days.
-/

import Mathlib.Order.CompletePartialOrder
import VTrade.MetricWindows

namespace VTrade

/-! ## Prices -/

section Book

variable {book : CanonicalOrderBook}

theorem CanonicalForm.bestAsk_yes (h : CanonicalForm book) :
    (book.bestAsk .yes).map CanonicalLevel.price =
      (book.bestBid .no).map fun bid => 1000000 - bid.price := by
  have hmirror := congrArg (fun levels => (levels.map Prod.fst).head?) h.yesAsks_mirror
  simpa [CanonicalOrderBook.bestAsk, CanonicalOrderBook.bestBid, CanonicalOrderBook.asks,
    CanonicalOrderBook.bids, Function.comp_def] using hmirror

theorem CanonicalForm.bestAsk_no (h : CanonicalForm book) :
    (book.bestAsk .no).map CanonicalLevel.price =
      (book.bestBid .yes).map fun bid => 1000000 - bid.price := by
  have hmirror := congrArg (fun levels => (levels.map Prod.fst).head?) h.noAsks_mirror
  simpa [CanonicalOrderBook.bestAsk, CanonicalOrderBook.bestBid, CanonicalOrderBook.asks,
    CanonicalOrderBook.bids, Function.comp_def] using hmirror

/-- The bids of both outcomes leave a spread. -/
theorem CanonicalForm.spread_pos (h : CanonicalForm book) {yesBid noBid : CanonicalLevel}
    (hyes : book.bestBid .yes = some yesBid) (hno : book.bestBid .no = some noBid) :
    0 < 1000000 - yesBid.price - noBid.price := by
  have hask := h.bestAsk_yes
  rw [hno] at hask
  obtain ⟨ask, hask, hprice⟩ := Option.map_eq_some_iff.mp hask
  have huncrossed := h.uncrossed .yes yesBid hyes ask hask
  linarith

theorem midpoint_none_left (right : Option CanonicalLevel) : midpoint none right = none := by
  cases right with
  | none => rfl
  | some right => rfl

theorem midpoint_none_right (left : Option CanonicalLevel) : midpoint left none = none := by
  cases left with
  | none => rfl
  | some left => rfl

theorem midpoint_mem_Icc (left right : CanonicalLevel) :
    (left.price + right.price + 1) / 2 ∈ Set.Icc 0 1000000 := by
  have hleft := left.price_range
  have hright := right.price_range
  constructor
  · omega
  · omega

/-- Both outcomes have an indicative price when both have a bid, and they are complements;
otherwise neither has one. -/
theorem CanonicalForm.indicativePrices (h : CanonicalForm book) :
    indicativePrices book = (none, none) ∨
      ∃ yesBid noBid yes, book.bestBid .yes = some yesBid ∧ book.bestBid .no = some noBid ∧
        VTrade.indicativePrices book = (some yes, some (1000000 - yes)) ∧
        yes ∈ Set.Icc 0 1000000 := by
  have hyes := h.bestAsk_yes
  have hno := h.bestAsk_no
  unfold VTrade.indicativePrices
  cases hyesBid : book.bestBid .yes with
  | none =>
      rw [hyesBid, Option.map_none, Option.map_eq_none_iff] at hno
      rw [hno, midpoint_none_left, midpoint_none_right]
      exact .inl rfl
  | some yesBid =>
      cases hnoBid : book.bestBid .no with
      | none =>
          rw [hnoBid, Option.map_none, Option.map_eq_none_iff] at hyes
          rw [hyes, midpoint_none_left, midpoint_none_right]
          exact .inl rfl
      | some noBid =>
          rw [hnoBid] at hyes
          rw [hyesBid] at hno
          obtain ⟨yesAsk, hyesAsk, -⟩ := Option.map_eq_some_iff.mp hyes
          obtain ⟨noAsk, hnoAsk, -⟩ := Option.map_eq_some_iff.mp hno
          rw [hyesAsk, hnoAsk]
          exact .inr ⟨yesBid, noBid, _, rfl, rfl, rfl, midpoint_mem_Icc yesBid yesAsk⟩

end Book

/-! ## The score -/

theorem depthWithinBand_nonneg (levels : List CanonicalLevel) (midpoint : ℤ) :
    0 ≤ depthWithinBand levels midpoint := by
  unfold depthWithinBand
  apply List.sum_nonneg
  intro quantity hmem
  obtain ⟨level, -, rfl⟩ := List.mem_map.mp hmem
  exact level.quantity_pos.le

theorem saturating_mem_Icc {amount : ℤ} (h : 0 ≤ amount) : saturating amount ∈ Set.Icc (0 : ℚ) 1 := by
  have hamount : (0 : ℚ) ≤ amount := by exact_mod_cast h
  unfold saturating
  constructor
  · exact div_nonneg hamount (by linarith)
  · rw [div_le_one (by linarith)]
    linarith

theorem weightedScore_mem_Icc {spread depth volume : ℤ} (hspread : 0 ≤ spread) (hdepth : 0 ≤ depth)
    (hvolume : 0 ≤ volume) : weightedScore spread depth volume ∈ Set.Icc (0 : ℚ) 1 := by
  have hcents : (0 : ℚ) ≤ (spread : ℚ) / 10000 := div_nonneg (by exact_mod_cast hspread) (by norm_num)
  have htightness : 1 / (1 + (spread : ℚ) / 10000 / 10) ∈ Set.Icc (0 : ℚ) 1 := by
    constructor
    · exact div_nonneg zero_le_one (by linarith)
    · rw [div_le_one (by linarith)]
      linarith
  have hdepth := saturating_mem_Icc hdepth
  have hvolume := saturating_mem_Icc hvolume
  unfold weightedScore
  apply quantized_mem_Icc
  constructor
  · linarith [htightness.1, hdepth.1, hvolume.1]
  · linarith [htightness.2, hdepth.2, hvolume.2]

/-- The score of a book in canonical form. -/
theorem CanonicalForm.competitiveScore {book : CanonicalOrderBook} (h : CanonicalForm book)
    {volume : ℤ} (hvolume : 0 ≤ volume) :
    ∃ score, VTrade.competitiveScore book (VTrade.indicativePrices book).1
        (VTrade.indicativePrices book).2 volume = .ok score ∧ ∀ value ∈ score, value ∈ Set.Icc (0 : ℚ) 1 := by
  rcases h.indicativePrices with hprices | ⟨yesBid, noBid, yes, hyesBid, hnoBid, hprices, hyes⟩
  · refine ⟨none, ?_, by simp⟩
    rw [hprices]
    unfold VTrade.competitiveScore
    cases book.bestBid .yes with
    | none => rfl
    | some yesBid =>
        cases book.bestBid .no with
        | none => rfl
        | some noBid => rfl
  · have hspread := h.spread_pos hyesBid hnoBid
    have hdepth : 0 ≤ min (depthWithinBand book.yesBids yes)
        (depthWithinBand book.noBids (1000000 - yes)) :=
      le_min (depthWithinBand_nonneg _ _) (depthWithinBand_nonneg _ _)
    refine ⟨some (weightedScore (1000000 - yesBid.price - noBid.price)
      (min (depthWithinBand book.yesBids yes) (depthWithinBand book.noBids (1000000 - yes)))
      volume), ?_, ?_⟩
    · rw [hprices]
      unfold VTrade.competitiveScore
      rw [hyesBid, hnoBid]
      dsimp only
      rw [if_neg (not_lt.mpr hspread.le)]
    · intro value hvalue
      cases hvalue
      exact weightedScore_mem_Icc hspread.le hdepth hvolume

/-! ## The snapshot -/

/-- The candles of a market that were observed and end within some hours. -/
def MarketCandlestickBatch.within (candles : MarketCandlestickBatch) (hours : Set Instant)
    [DecidablePred (· ∈ hours)] : List MarketCandlestick :=
  candles.candlesticks.filter fun candle => candle.synthetic = false ∧ candle.endPeriod ∈ hours

/-- The day up to a time. -/
def dayUntil (stop : Instant) : Set Instant := Set.Ioc (stop - metricWindow) stop

instance (stop : Instant) : DecidablePred (· ∈ dayUntil stop) :=
  fun time => inferInstanceAs (Decidable (stop - metricWindow < time ∧ time ≤ stop))

section Windows

variable {candles : MarketCandlestickBatch} {cutoff : Instant}

theorem recentWindow_eq (candles : MarketCandlestickBatch) (cutoff : Instant) :
    recentWindow candles cutoff = candles.within (dayUntil cutoff) := by
  unfold recentWindow window observedCandles MarketCandlestickBatch.within
  rw [List.filter_filter]
  apply List.filter_congr
  intro candle _
  unfold dayUntil
  simp only [Set.mem_Ioc, Bool.decide_and]
  grind

theorem baselineWindow_eq (candles : MarketCandlestickBatch) (cutoff : Instant) :
    baselineWindow candles cutoff = candles.within (dayUntil (cutoff - metricWindow)) := by
  have hday : (0 : Instant) ≤ metricWindow := by decide
  have hlookback : cutoff - metricLookback = cutoff - metricWindow - metricWindow := by
    unfold metricLookback metricWindow
    ring
  unfold baselineWindow window observedCandles MarketCandlestickBatch.within
  rw [List.filter_filter, hlookback]
  apply List.filter_congr
  intro candle _
  unfold dayUntil
  simp only [Set.mem_Ioc, Bool.decide_and]
  grind

/-- The two days have no hour in common. -/
theorem disjoint_dayUntil (cutoff : Instant) :
    Disjoint (dayUntil (cutoff - metricWindow)) (dayUntil cutoff) := by
  rw [Set.disjoint_left]
  intro time hbefore hafter
  exact absurd hafter.1 (not_lt.mpr hbefore.2)

theorem completeHourlyWindow_within (stop : Instant) :
    completeHourlyWindow (candles.within (dayUntil stop)) = true ↔
      CompleteDay (candles.within (dayUntil stop)) (stop - metricWindow) := by
  apply completeHourlyWindow_iff
  intro candle hcandle
  have hwithin := (of_decide_eq_true (List.mem_filter.mp hcandle).2).2
  rw [sub_add_cancel]
  exact hwithin

end Windows

/-- What the metrics of a market say. -/
structure Consistent (orderBook : CanonicalOrderBook) (candles : MarketCandlestickBatch)
    (cutoff : Instant) (snapshot : MarketMetricSnapshot) : Prop where
  together : snapshot.indicativeYesPriceMicros.isSome = snapshot.indicativeNoPriceMicros.isSome
  complements : ∀ yes ∈ snapshot.indicativeYesPriceMicros,
    ∀ no ∈ snapshot.indicativeNoPriceMicros, yes + no = 1000000
  spread : ∀ yesBid ∈ orderBook.bestBid .yes, ∀ noBid ∈ orderBook.bestBid .no,
    0 ≤ 1000000 - yesBid.price - noBid.price
  score : ∀ score ∈ snapshot.competitiveScore, score ∈ Set.Icc (0 : ℚ) 1
  recent : snapshot.recentBucketCount = (candles.within (dayUntil cutoff)).length ∧
    snapshot.recentVolumeUnits = volumeOf (candles.within (dayUntil cutoff))
  baseline :
    snapshot.baselineBucketCount = (candles.within (dayUntil (cutoff - metricWindow))).length ∧
      snapshot.baselineVolumeUnits = volumeOf (candles.within (dayUntil (cutoff - metricWindow)))
  disjoint : Disjoint (dayUntil (cutoff - metricWindow)) (dayUntil cutoff)
  trend : snapshot.volumeTrend ≠ .insufficientData ↔
    CompleteDay (candles.within (dayUntil cutoff)) (cutoff - metricWindow) ∧
      CompleteDay (candles.within (dayUntil (cutoff - metricWindow))) (cutoff - metricLookback)

section Snapshot

variable {market : MetricMarket} {orderBook : MetricOrderBook} {candles : MarketCandlestickBatch}
  {cutoff : Instant} {competitive : Option ℚ} {recent baseline : List MarketCandlestick}

theorem volumeTrend_ne_insufficientData (recent baseline : ℤ) :
    volumeTrend recent baseline ≠ .insufficientData := by
  unfold volumeTrend
  split
  · exact VolumeTrend.noConfusion
  · split
    · exact VolumeTrend.noConfusion
    · exact VolumeTrend.noConfusion

theorem trendOf_ne_insufficientData_iff :
    (trendOf recent baseline).1 ≠ .insufficientData ↔
      completeHourlyWindow recent = true ∧ completeHourlyWindow baseline = true := by
  rw [← Bool.and_eq_true]
  unfold trendOf
  by_cases hcomplete : (completeHourlyWindow recent && completeHourlyWindow baseline) = true
  · rw [if_pos hcomplete]
    exact ⟨fun _ => hcomplete, fun _ => volumeTrend_ne_insufficientData _ _⟩
  · rw [if_neg hcomplete]
    exact ⟨fun htrend => absurd rfl htrend, fun h => absurd h hcomplete⟩

/-- The change of the volume that goes with a trend. -/
theorem trendOf_cases (recent baseline : List MarketCandlestick) :
    trendOf recent baseline = (.insufficientData, none) ∨
      (trendOf recent baseline).1 ≠ .insufficientData ∧
        (trendOf recent baseline).2 = if volumeOf baseline = 0 then none
          else some (MarketMetricSnapshot.volumeDelta (volumeOf recent) (volumeOf baseline)) := by
  unfold trendOf
  by_cases hcomplete : (completeHourlyWindow recent && completeHourlyWindow baseline) = true
  · rw [if_pos hcomplete]
    exact .inr ⟨volumeTrend_ne_insufficientData _ _, rfl⟩
  · rw [if_neg hcomplete]
    exact .inl rfl

theorem volumeOf_nonneg (candles : List MarketCandlestick) : 0 ≤ volumeOf candles := by
  unfold volumeOf
  apply List.sum_nonneg
  intro volume hmem
  obtain ⟨candle, -, rfl⟩ := List.mem_map.mp hmem
  exact candle.volume_nonneg

theorem volatility_nonneg (candles : List MarketCandlestick) :
    ∀ value ∈ (volatility candles).1, 0 ≤ value := by
  intro value hvalue
  unfold volatility at hvalue
  dsimp only at hvalue
  split at hvalue
  · cases hvalue
  · cases hvalue
    exact Int.natCast_nonneg _

/-- The checks of a snapshot, one for each kind of metric. -/
structure Checked (snapshot : MarketMetricSnapshot) : Prop where
  volume24h : 0 ≤ snapshot.volume24hUnits
  volatility : ∀ value ∈ snapshot.volatilityMicros, 0 ≤ value
  prices : (snapshot.indicativeYesPriceMicros = none ∧ snapshot.indicativeNoPriceMicros = none) ∨
    ∃ yes ∈ Set.Icc (0 : ℤ) 1000000, snapshot.indicativeYesPriceMicros = some yes ∧
      snapshot.indicativeNoPriceMicros = some (1000000 - yes)
  recentVolume : 0 ≤ snapshot.recentVolumeUnits
  baselineVolume : 0 ≤ snapshot.baselineVolumeUnits
  samples : 0 ≤ snapshot.volatilitySampleCount
  recentBuckets : 0 ≤ snapshot.recentBucketCount
  baselineBuckets : 0 ≤ snapshot.baselineBucketCount
  score : ∀ score ∈ snapshot.competitiveScore, score ∈ Set.Icc (0 : ℚ) 1
  trend : (snapshot.volumeTrend = .insufficientData ∧ snapshot.volumeTrendDelta = none) ∨
    snapshot.volumeTrend ≠ .insufficientData ∧
      snapshot.volumeTrendDelta = if snapshot.baselineVolumeUnits = 0 then none
        else some (MarketMetricSnapshot.volumeDelta snapshot.recentVolumeUnits
          snapshot.baselineVolumeUnits)

section Checked

variable {snapshot : MarketMetricSnapshot}

theorem Checked.prices_inside (h : Checked snapshot) :
    MarketMetricSnapshot.outside (0, 1000000) snapshot.indicativeYesPriceMicros = false ∧
      MarketMetricSnapshot.outside (0, 1000000) snapshot.indicativeNoPriceMicros = false ∧
      (snapshot.indicativeYesPriceMicros.any fun yes =>
        snapshot.indicativeNoPriceMicros.any fun no => yes + no ≠ 1000000) = false := by
  unfold MarketMetricSnapshot.outside
  rcases h.prices with ⟨hyes, hno⟩ | ⟨yes, hrange, hyes, hno⟩
  · rw [hyes, hno]
    exact ⟨rfl, rfl, rfl⟩
  · rw [hyes, hno]
    have hlower := hrange.1
    have hupper := hrange.2
    simp only [Option.any_some, decide_eq_false_iff_not, not_not]
    omega

theorem Checked.trend_allowed (h : Checked snapshot) :
    ¬ (snapshot.volumeTrend = .insufficientData ∧ snapshot.volumeTrendDelta.isSome) ∧
      ¬ (snapshot.baselineVolumeUnits = 0 ∧ snapshot.volumeTrendDelta.isSome) ∧
      ¬ (snapshot.volumeTrend ≠ .insufficientData ∧ 0 < snapshot.baselineVolumeUnits ∧
        snapshot.volumeTrendDelta = none) ∧
      ¬ (0 < snapshot.baselineVolumeUnits ∧ snapshot.volumeTrendDelta.any fun delta =>
        quantized delta ≠ quantized (MarketMetricSnapshot.volumeDelta snapshot.recentVolumeUnits
          snapshot.baselineVolumeUnits)) := by
  rcases h.trend with ⟨htrend, hdelta⟩ | ⟨htrend, hdelta⟩
  · rw [htrend, hdelta]
    simp
  · by_cases hempty : snapshot.baselineVolumeUnits = 0
    · rw [if_pos hempty] at hdelta
      rw [hdelta, hempty]
      simp
    · rw [if_neg hempty] at hdelta
      rw [hdelta]
      simp [htrend, hempty]

theorem Checked.postInit (h : Checked snapshot) : snapshot.postInit = .ok () := by
  have hvolatility : snapshot.volatilityMicros.any (· < 0) = false := by
    cases hvalue : snapshot.volatilityMicros with
    | none => rfl
    | some value => simpa using h.volatility value hvalue
  have hscore : snapshot.competitiveScore.any (fun score => ¬ (0 ≤ score ∧ score ≤ 1)) = false := by
    cases hvalue : snapshot.competitiveScore with
    | none => rfl
    | some value => simpa using h.score value hvalue
  obtain ⟨hyes, hno, hcomplements⟩ := h.prices_inside
  obtain ⟨hinsufficient, hzero, hmissing, hmismatch⟩ := h.trend_allowed
  unfold MarketMetricSnapshot.postInit
  simp only [Checks.raiseFirst_cons_eq_ok, Checks.raiseFirst_nil, decide_eq_false_iff_not, and_true]
  exact ⟨h.volume24h.not_gt, hvolatility, hyes, hno, hcomplements, h.recentVolume.not_gt,
    h.baselineVolume.not_gt, h.samples.not_gt, h.recentBuckets.not_gt, h.baselineBuckets.not_gt,
    hscore, hinsufficient, hzero, hmissing, hmismatch⟩

end Checked

/-- The fields of a snapshot pass its checks. -/
theorem metricFields_checked (hbook : CanonicalForm orderBook.toCanonicalOrderBook)
    (hscore : ∀ score ∈ competitive, score ∈ Set.Icc (0 : ℚ) 1) :
    Checked (metricFields market orderBook candles cutoff competitive) := by
  constructor
  case volume24h => exact market.volume24h_nonneg
  case volatility =>
    intro value hvalue
    unfold metricFields at hvalue
    dsimp only at hvalue
    split at hvalue
    · exact volatility_nonneg _ value hvalue
    · cases hvalue
  case prices =>
    unfold metricFields
    dsimp only
    rcases hbook.indicativePrices with hprices | ⟨yesBid, noBid, yes, -, -, hprices, hyes⟩
    · rw [hprices]
      exact .inl ⟨rfl, rfl⟩
    · rw [hprices]
      exact .inr ⟨yes, hyes, rfl, rfl⟩
  case recentVolume => exact volumeOf_nonneg _
  case baselineVolume => exact volumeOf_nonneg _
  case samples => exact Int.natCast_nonneg _
  case recentBuckets => exact Int.natCast_nonneg _
  case baselineBuckets => exact Int.natCast_nonneg _
  case score => exact hscore
  case trend =>
    rcases trendOf_cases (recentWindow candles cutoff) (baselineWindow candles cutoff) with
      hnone | htrend
    · left
      unfold metricFields
      dsimp only
      rw [hnone]
      exact ⟨rfl, rfl⟩
    · exact .inr htrend

end Snapshot

namespace Sample

/-! ## A market with two days of candles -/

theorem active_in_lifecycle : MarketStatus.active.isLifecycle = true := rfl

theorem unpriced_fees : ∀ feeStatus ∈ (none : Option FeePolicyStatus),
    if feeStatus = .available then
      (none : Option FeePolicySnapshot).isSome ∧ (none : Option String) = none
    else (none : Option FeePolicySnapshot) = none ∧ (none : Option String).isSome := by
  simp

theorem traded_volume : (0 : ℤ) ≤ 500 := by decide

def metricMarket : MetricMarket where
  key := market
  status := .active
  eligible := true
  priceGrid := centGrid
  feePolicy := none
  feePolicyStatus := none
  feePolicyReason := none
  snapshotId := "market"
  status_lifecycle := active_in_lifecycle
  reason_nonblank := no_text_isBlank
  feePolicy_complete := unpriced_fees
  volume24h := 500
  audit := bookArtifact
  volume24h_nonneg := traded_volume

theorem metricPrice_range : (0 : ℤ) ≤ 400000 ∧ (400000 : ℤ) ≤ 1000000 := by decide

theorem complementPrice_range : (0 : ℤ) ≤ 600000 ∧ (600000 : ℤ) ≤ 1000000 := by decide

theorem lowPrice_range : (0 : ℤ) ≤ 380000 ∧ (380000 : ℤ) ≤ 1000000 := by decide

theorem highPrice_range : (0 : ℤ) ≤ 620000 ∧ (620000 : ℤ) ≤ 1000000 := by decide

theorem metricQuantity_pos : (0 : ℤ) < 100 := by decide

theorem metricBook_observed : moment.instant ≤ moment.instant := le_refl _

/-- A bid of either outcome, two cents apart. -/
def metricBook : MetricOrderBook where
  marketKey := market
  yesBids := [⟨380000, 100, lowPrice_range, metricQuantity_pos⟩]
  yesAsks := [⟨400000, 100, metricPrice_range, metricQuantity_pos⟩]
  noBids := [⟨600000, 100, complementPrice_range, metricQuantity_pos⟩]
  noAsks := [⟨620000, 100, highPrice_range, metricQuantity_pos⟩]
  observedAt := moment.instant
  cutoff := moment.instant
  snapshotId := "book"
  observed_le_cutoff := metricBook_observed
  yesBids_descending := .singleton _
  yesAsks_ascending := .singleton _
  noBids_descending := .singleton _
  noAsks_ascending := .singleton _
  artifact := bookArtifact

theorem metricBook_canonical : CanonicalForm metricBook.toCanonicalOrderBook := by
  constructor
  case yesAsks_mirror => rfl
  case noAsks_mirror => rfl
  case bids_strict => exact fun side => by cases side <;> exact List.pairwise_singleton _ _
  case asks_strict => exact fun side => by cases side <;> exact List.pairwise_singleton _ _
  case uncrossed =>
    intro side bid hbid ask hask
    cases side with
    | yes =>
        cases hbid
        cases hask
        decide
    | no =>
        cases hbid
        cases hask
        decide

theorem closePrice_inside : ∀ price ∈ some (400000 : ℤ), 0 ≤ price ∧ price ≤ 1000000 := by simp

theorem previousPrice_inside : ∀ price ∈ (none : Option ℤ), 0 ≤ price ∧ price ≤ 1000000 := by simp

theorem candleVolume_nonneg : (0 : ℤ) ≤ 100 := by decide

/-- The candle of an hour in which all trades had one price. -/
def hourCandle (endPeriod : Instant) : MarketCandlestick where
  endPeriod := endPeriod
  closePriceMicros := some 400000
  previousPriceMicros := none
  volumeUnits := 100
  synthetic := false
  closePrice_range := closePrice_inside
  previousPrice_range := previousPrice_inside
  volume_nonneg := candleVolume_nonneg

theorem hoursFrom_ordered (first : Instant) (count : ℕ) :
    ((hoursFrom first count).map hourCandle).Pairwise
      fun left right => left.endPeriod < right.endPeriod :=
  List.pairwise_map.mpr (hoursFrom_ascending first count)

/-- The candles of the hours from a time on. -/
def hourlyCandles (first : Instant) (count : ℕ) : MarketCandlestickBatch :=
  ⟨market, (hoursFrom first count).map hourCandle, bookArtifact, hoursFrom_ordered first count⟩

/-- The first hour of the two days up to the moment. -/
def firstHour : Instant := moment.instant - metricLookback + candleInterval

theorem hourlyCandles_observed :
    ∀ candle ∈ (hourlyCandles firstHour 48).candlesticks, candle.endPeriod ≤ moment.instant := by
  intro candle hcandle
  obtain ⟨time, htime, rfl⟩ := List.mem_map.mp hcandle
  obtain ⟨hour, hhour, rfl⟩ := mem_hoursFrom.mp htime
  have hlast : (hour : ℤ) ≤ 47 := by omega
  unfold hourCandle firstHour metricLookback candleInterval
  linarith

end Sample

end VTrade
