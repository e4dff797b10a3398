/-
# The metrics of a market

What the agent is shown of a market that was selected: its volume and how it has moved within two
days, the volatility of its price, the indicative prices of both outcomes, and a score of how
competitive its book is.  The volumes come from hourly candles, those of the last day and those of
the day before; what is missing leaves a metric out.

The arithmetic of decimals is exact here.
-/

import Mathlib.Data.Int.Interval
import Mathlib.Data.Rat.Floor
import VTrade.CanonicalForm
import VTrade.Lib.KeyedList

namespace VTrade

/-! ## Candles -/

def candleInterval : Instant := 3600 * 1000000

def metricWindow : Instant := 24 * candleInterval

def metricLookback : Instant := 48 * candleInterval

/-- One normalized hourly candle. -/
structure MarketCandlestick where
  endPeriod : Instant
  closePriceMicros : Option ℤ
  previousPriceMicros : Option ℤ
  volumeUnits : ℤ
  synthetic : Bool
  closePrice_range : ∀ price ∈ closePriceMicros, 0 ≤ price ∧ price ≤ 1000000
  previousPrice_range : ∀ price ∈ previousPriceMicros, 0 ≤ price ∧ price ≤ 1000000
  volume_nonneg : 0 ≤ volumeUnits

/-- The candles of a market, each for another time, and the response they came with. -/
structure MarketCandlestickBatch where
  marketKey : MarketKey
  candlesticks : List MarketCandlestick
  audit : RawArtifact
  ordered : candlesticks.Pairwise fun left right => left.endPeriod < right.endPeriod

/-- Candles in the order of their times. -/
def sortedCandles (candlesticks : List MarketCandlestick) : List MarketCandlestick :=
  candlesticks.insertionSort fun left right => left.endPeriod ≤ right.endPeriod

theorem sortedCandles_ordered {candlesticks : List MarketCandlestick}
    (h : ((sortedCandles candlesticks).map MarketCandlestick.endPeriod).Nodup) :
    (sortedCandles candlesticks).Pairwise fun left right => left.endPeriod < right.endPeriod := by
  have hsorted : (sortedCandles candlesticks).Pairwise
      fun left right => left.endPeriod ≤ right.endPeriod := by
    have : Std.Total fun left right : MarketCandlestick => left.endPeriod ≤ right.endPeriod :=
      ⟨fun left right => le_total left.endPeriod right.endPeriod⟩
    have : IsTrans MarketCandlestick fun left right => left.endPeriod ≤ right.endPeriod :=
      ⟨fun _ _ _ h1 h2 => le_trans h1 h2⟩
    exact List.pairwise_insertionSort _ candlesticks
  rw [List.Nodup, List.pairwise_map] at h
  exact (hsorted.and h).imp fun hpair => lt_of_le_of_ne hpair.1 hpair.2

/-- `MarketCandlestickBatch(market_key, candlesticks, audit)`. -/
def MarketCandlestickBatch.make (marketKey : MarketKey) (candlesticks : List MarketCandlestick)
    (audit : RawArtifact) : Except Raised MarketCandlestickBatch :=
  if h : ((sortedCandles candlesticks).map MarketCandlestick.endPeriod).Nodup then
    .ok ⟨marketKey, sortedCandles candlesticks, audit, sortedCandles_ordered h⟩
  else .error (.valueError "candlestick timestamps must be unique")

/-- `_window`. -/
def window (candles : List MarketCandlestick) (start stop : Instant) : List MarketCandlestick :=
  candles.filter fun candle => start < candle.endPeriod ∧ candle.endPeriod ≤ stop

/-- `_complete_hourly_window`. -/
def completeHourlyWindow (candles : List MarketCandlestick) : Bool :=
  if candles.length ≠ 24 then false
  else (candles.zip candles.tail).all fun pair =>
    pair.2.endPeriod - pair.1.endPeriod = candleInterval

inductive VolumeTrend
  | increasing
  | decreasing
  | flat
  | insufficientData
  deriving DecidableEq

/-- `_volume_trend`. -/
def volumeTrend (recent baseline : ℤ) : VolumeTrend :=
  if baseline < recent then .increasing
  else if recent < baseline then .decreasing
  else .flat

/-! ## Decimals -/

/-- The nearest integer, the one away from zero for a half. -/
def roundHalfUp (value : ℚ) : ℤ := if value < 0 then -⌊-value + 1 / 2⌋ else ⌊value + 1 / 2⌋

/-- `value.quantize(DECIMAL_PLACES, rounding=ROUND_HALF_UP)`. -/
def quantized (value : ℚ) : ℚ := roundHalfUp (value * 10 ^ 10) / 10 ^ 10

/-- The nearest integer to the square root of what is not negative. -/
def roundedSqrt (value : ℚ) : ℕ := (Nat.sqrt ⌊4 * value⌋.toNat + 1) / 2

/-! ## Volatility -/

/-- The differences of successive prices so far, and the last candle that has a price. -/
structure PriceChanges where
  deltas : List ℤ
  previous : Option (Instant × ℤ)

/-- One step of the loop of `_volatility`. -/
def PriceChanges.add (changes : PriceChanges) (candle : MarketCandlestick) : PriceChanges :=
  match candle.closePriceMicros with
  | none => { changes with previous := none }
  | some price =>
      let deltas := match changes.previous with
        | some (timestamp, before) =>
            if candle.endPeriod - timestamp = candleInterval then
              changes.deltas ++ [price - before]
            else changes.deltas
        | none => changes.deltas
      ⟨deltas, some (candle.endPeriod, price)⟩

/-- The variance of a sample. -/
def sampleVariance (deltas : List ℤ) : ℚ :=
  let mean : ℚ := (deltas.sum : ℚ) / deltas.length
  (deltas.map fun delta => ((delta : ℚ) - mean) ^ 2).sum / (deltas.length - 1)

/-- `_volatility`. -/
def volatility (candles : List MarketCandlestick) : Option ℤ × ℕ :=
  let deltas := (candles.foldl PriceChanges.add ⟨[], none⟩).deltas
  if deltas.length < 3 then (none, deltas.length)
  else (some (roundedSqrt (sampleVariance deltas)), deltas.length)

/-! ## The book -/

/-- A market with what its metrics are made of. -/
structure MetricMarket extends BinaryMarket where
  volume24h : ℤ
  audit : RawArtifact
  volume24h_nonneg : 0 ≤ volume24h

/-- A book with the response it came with. -/
structure MetricOrderBook extends CanonicalOrderBook where
  artifact : RawArtifact

/-- `_midpoint`. -/
def midpoint : Option CanonicalLevel → Option CanonicalLevel → Option ℤ
  | some left, some right => some ((left.price + right.price + 1) / 2)
  | none, _ | _, none => none

/-- `_depth_within_band`. -/
def depthWithinBand (levels : List CanonicalLevel) (midpoint : ℤ) : ℤ :=
  ((levels.filter fun level => |level.price - midpoint| ≤ 50000).map CanonicalLevel.quantity).sum

/-- How a quantity fills up to half at the saturation. -/
def saturating (amount : ℤ) : ℚ := (amount : ℚ) / (amount + 10000)

/-- The weighted scores of the spread, of the depth and of the activity. -/
def weightedScore (spreadMicros depth volume24hUnits : ℤ) : ℚ :=
  let spreadCents : ℚ := (spreadMicros : ℚ) / 10000
  quantized (1 / 2 * (1 / (1 + spreadCents / 10)) + 3 / 10 * saturating depth +
    1 / 5 * saturating volume24hUnits)

/-- `_competitive_score`. -/
def competitiveScore (orderBook : CanonicalOrderBook) (yesMid noMid : Option ℤ)
    (volume24hUnits : ℤ) : Except Raised (Option ℚ) :=
  match orderBook.bestBid .yes, orderBook.bestBid .no, yesMid, noMid with
  | some yesBid, some noBid, some yesMid, some noMid =>
      let spreadMicros := 1000000 - yesBid.price - noBid.price
      if spreadMicros < 0 then
        .error (.valueError "reciprocal order book has a negative spread")
      else
        let depth := min (depthWithinBand orderBook.yesBids yesMid)
          (depthWithinBand orderBook.noBids noMid)
        .ok (some (weightedScore spreadMicros depth volume24hUnits))
  | _, _, _, _ => .ok none

/-! ## The snapshot -/

/-- All metrics of one market at one freeze. -/
structure MarketMetricSnapshot where
  marketKey : MarketKey
  volume24hUnits : ℤ
  volatilityMicros : Option ℤ
  volumeTrend : VolumeTrend
  volumeTrendDelta : Option ℚ
  competitiveScore : Option ℚ
  indicativeYesPriceMicros : Option ℤ
  indicativeNoPriceMicros : Option ℤ
  recentVolumeUnits : ℤ
  baselineVolumeUnits : ℤ
  volatilitySampleCount : ℤ
  recentBucketCount : ℤ
  baselineBucketCount : ℤ
  asOfAt : Instant
  formulaVersion : String
  sourceArtifacts : List RawArtifact

namespace MarketMetricSnapshot

/-- Whether there is a value outside a range. -/
def outside (range : ℤ × ℤ) (value : Option ℤ) : Bool :=
  value.any fun value => ¬ (range.1 ≤ value ∧ value ≤ range.2)

/-- The change of the volume from one window to the other. -/
def volumeDelta (recent baseline : ℤ) : ℚ := (recent - baseline : ℤ) / (baseline : ℚ)

/-- The checks of `__post_init__`. -/
def postInit (snapshot : MarketMetricSnapshot) : Except Raised Unit :=
  Checks.raiseFirst [
    (snapshot.volume24hUnits < 0, .valueError "24-hour volume cannot be negative"),
    (snapshot.volatilityMicros.any (· < 0), .valueError "volatility cannot be negative"),
    (outside (0, 1000000) snapshot.indicativeYesPriceMicros,
      .valueError "YES indicative price is outside [0, 1]"),
    (outside (0, 1000000) snapshot.indicativeNoPriceMicros,
      .valueError "NO indicative price is outside [0, 1]"),
    (snapshot.indicativeYesPriceMicros.any fun yes =>
        snapshot.indicativeNoPriceMicros.any fun no => yes + no ≠ 1000000,
      .valueError "indicative YES and NO prices must be exact complements"),
    (snapshot.recentVolumeUnits < 0, .valueError "recent volume cannot be negative"),
    (snapshot.baselineVolumeUnits < 0, .valueError "baseline volume cannot be negative"),
    (snapshot.volatilitySampleCount < 0,
      .valueError "volatility sample count cannot be negative"),
    (snapshot.recentBucketCount < 0, .valueError "recent bucket count cannot be negative"),
    (snapshot.baselineBucketCount < 0, .valueError "baseline bucket count cannot be negative"),
    (snapshot.competitiveScore.any fun score => ¬ (0 ≤ score ∧ score ≤ 1),
      .valueError "competitive score must be in [0, 1]"),
    (snapshot.volumeTrend = .insufficientData ∧ snapshot.volumeTrendDelta.isSome,
      .valueError "insufficient volume data cannot have a trend delta"),
    (snapshot.baselineVolumeUnits = 0 ∧ snapshot.volumeTrendDelta.isSome,
      .valueError "zero baseline volume cannot have a trend delta"),
    (snapshot.volumeTrend ≠ .insufficientData ∧ 0 < snapshot.baselineVolumeUnits ∧
        snapshot.volumeTrendDelta = none,
      .valueError "complete volume data requires a trend delta"),
    (0 < snapshot.baselineVolumeUnits ∧ snapshot.volumeTrendDelta.any fun delta =>
        quantized delta ≠
          quantized (volumeDelta snapshot.recentVolumeUnits snapshot.baselineVolumeUnits),
      .valueError "volume trend delta does not match the recorded windows")]

/-- `MarketMetricSnapshot(…)`. -/
def make (fields : MarketMetricSnapshot) : Except Raised MarketMetricSnapshot := do
  fields.postInit
  .ok { fields with
    competitiveScore := fields.competitiveScore.map quantized
    volumeTrendDelta := fields.volumeTrendDelta.map quantized }

end MarketMetricSnapshot

/-- The candles that were observed, not made up. -/
def observedCandles (candles : MarketCandlestickBatch) (cutoff : Instant) :
    List MarketCandlestick :=
  candles.candlesticks.filter fun candle => candle.synthetic = false ∧ candle.endPeriod ≤ cutoff

/-- The window of the day before the cutoff. -/
def recentWindow (candles : MarketCandlestickBatch) (cutoff : Instant) : List MarketCandlestick :=
  window (observedCandles candles cutoff) (cutoff - metricWindow) cutoff

/-- The window of the day before that one. -/
def baselineWindow (candles : MarketCandlestickBatch) (cutoff : Instant) :
    List MarketCandlestick :=
  window (observedCandles candles cutoff) (cutoff - metricLookback) (cutoff - metricWindow)

/-- `sum(item.volume_units for item in candles)`. -/
def volumeOf (candles : List MarketCandlestick) : ℤ :=
  (candles.map MarketCandlestick.volumeUnits).sum

/-- The indicative prices of both outcomes: the one of NO is what is left to a dollar where both
are there. -/
def indicativePrices (orderBook : CanonicalOrderBook) : Option ℤ × Option ℤ :=
  let yesMid := midpoint (orderBook.bestBid .yes) (orderBook.bestAsk .yes)
  let noMid := midpoint (orderBook.bestBid .no) (orderBook.bestAsk .no)
  match yesMid, noMid with
  | some yes, some _ => (some yes, some (1000000 - yes))
  | some _, none | none, _ => (yesMid, noMid)

/-- How the volume of the recent window compares with that of the other one, if both are
complete. -/
def trendOf (recent baseline : List MarketCandlestick) : VolumeTrend × Option ℚ :=
  if completeHourlyWindow recent && completeHourlyWindow baseline then
    (volumeTrend (volumeOf recent) (volumeOf baseline),
      if volumeOf baseline = 0 then none
      else some (MarketMetricSnapshot.volumeDelta (volumeOf recent) (volumeOf baseline)))
  else (.insufficientData, none)

/-- The fields of the snapshot of a market with a score. -/
def metricFields (market : MetricMarket) (orderBook : MetricOrderBook)
    (candles : MarketCandlestickBatch) (cutoff : Instant) (competitive : Option ℚ) :
    MarketMetricSnapshot :=
  let recent := recentWindow candles cutoff
  let baseline := baselineWindow candles cutoff
  let volatile := if completeHourlyWindow recent then volatility recent else (none, 0)
  let prices := indicativePrices orderBook.toCanonicalOrderBook
  let asOfAt :=
    ((observedCandles candles cutoff).map MarketCandlestick.endPeriod).max?.getD cutoff
  { marketKey := market.key
    volume24hUnits := market.volume24h
    volatilityMicros := volatile.1
    volumeTrend := (trendOf recent baseline).1
    volumeTrendDelta := (trendOf recent baseline).2
    competitiveScore := competitive
    indicativeYesPriceMicros := prices.1
    indicativeNoPriceMicros := prices.2
    recentVolumeUnits := volumeOf recent
    baselineVolumeUnits := volumeOf baseline
    volatilitySampleCount := volatile.2
    recentBucketCount := recent.length
    baselineBucketCount := baseline.length
    asOfAt := min asOfAt cutoff
    formulaVersion := "kalshi-market-metrics-v1"
    sourceArtifacts := KeyedList.firsts RawArtifact.sha256
      [market.audit, orderBook.artifact, candles.audit] }

/-- `calculate_market_metrics`. -/
def calculateMarketMetrics (market : MetricMarket) (orderBook : MetricOrderBook)
    (candles : MarketCandlestickBatch) (cutoff : Instant) : Except Raised MarketMetricSnapshot :=
  if candles.marketKey ≠ market.key ∨ orderBook.marketKey ≠ market.key then
    .error (.valueError "metric inputs belong to different market identities")
  else if candles.candlesticks.any fun candle => cutoff < candle.endPeriod then
    .error (.valueError "candlestick observation is newer than the metric cutoff")
  else do
    let prices := indicativePrices orderBook.toCanonicalOrderBook
    let competitive ← competitiveScore orderBook.toCanonicalOrderBook prices.1 prices.2
      market.volume24h
    (metricFields market orderBook candles cutoff competitive).make

end VTrade
