/-
# The candles that a freeze asks for

A freeze that is not given a cutoff asks for the candles of two days up to the time by which it has
to be done, and only later learns when it is.  The metrics look at the two days up to then.  The
hours that lie between the two times of two days ago are not asked for.
-/

import VTrade.MarketFreeze
import VTrade.MetricConsistency

namespace VTrade

/-- A time at which an hour ends. -/
def HourMark (time : Instant) : Prop := candleInterval ∣ time

/-! ## Asking for candles -/

/-- What the venue answers of one market. -/
structure CandleResponse where
  candles : List MarketCandlestick
  observedAt : Instant
  artifact : RawArtifact

/-- `int(value.timestamp())`. -/
def timestampSeconds (value : Instant) : ℤ := value.tdiv 1000000

/-- The times of the range that the venue is asked for, which is in seconds. -/
def requestedTimes (start stop : Instant) : Set Instant :=
  Set.Icc (timestampSeconds start * 1000000) (timestampSeconds stop * 1000000)

/-- What is checked of one candle. -/
def checkCandle (start stop observedAt : Instant) (candle : MarketCandlestick) :
    Except KalshiError Unit :=
  if observedAt < candle.endPeriod then
    .error (.lookAheadError "candlestick end_period_ts is newer than local observation ")
  else if candle.endPeriod < start ∨ stop < candle.endPeriod then
    .error (.lookAheadError "candlestick end_period_ts is outside the requested range ")
  else .ok ()

/-- `get_market_candlesticks` for one market, once the answer is parsed. -/
def getMarketCandlesticks (marketKey : MarketKey) (start stop : Instant)
    (response : CandleResponse) : Except KalshiError (Except Raised MarketCandlestickBatch) :=
  if stop < response.observedAt then
    .error (.lookAheadError "candlestick observation is newer than the requested cutoff")
  else do
    response.candles.forM (checkCandle start stop response.observedAt)
    .ok (MarketCandlestickBatch.make marketKey response.candles response.artifact)

/-- The answer has a candle of each hour of the range that is asked for, up to the observation. -/
structure EveryHour (start stop : Instant) (response : CandleResponse) : Prop where
  times : ∀ time, time ∈ response.candles.map MarketCandlestick.endPeriod ↔
    HourMark time ∧ time ∈ requestedTimes start stop ∧ time ≤ response.observedAt
  unique : (response.candles.map MarketCandlestick.endPeriod).Nodup
  real : ∀ candle ∈ response.candles, candle.synthetic = false

/-! ## Freezes -/

/-- What the clock reads during a freeze: once the catalogue is scanned, when the candles are
observed, and at the end. -/
structure FreezeClock where
  scanned : Instant
  observed : Instant
  completed : Instant
  scanned_le_observed : scanned ≤ observed
  observed_le_completed : observed ≤ completed

namespace KalshiMarketFreezeService

variable (service : KalshiMarketFreezeService) (cutoff : Option Instant) (clock : FreezeClock)

/-- `operation_cutoff`. -/
def operationCutoff : Instant := cutoff.getD (clock.scanned + service.freezeDeadline)

/-- `start` and `end` of the candles. -/
def candleRange : Instant × Instant :=
  let metricCutoff := cutoff.getD (service.operationCutoff cutoff clock)
  (metricCutoff - metricLookback, metricCutoff)

end KalshiMarketFreezeService

/-- `data_cutoff`. -/
def FreezeClock.dataCutoff (cutoff : Option Instant) (clock : FreezeClock) : Instant :=
  cutoff.getD clock.completed

/-- The range covers what the metrics look at, and the answer makes both windows complete. -/
structure Served (marketKey : MarketKey) (range : Instant × Instant) (dataCutoff : Instant)
    (response : CandleResponse) : Prop where
  covered : Set.Ioc (dataCutoff - metricLookback) dataCutoff ⊆ Set.Icc range.1 range.2
  complete : ∃ batch, getMarketCandlesticks marketKey range.1 range.2 response = .ok (.ok batch) ∧
    completeHourlyWindow (recentWindow batch dataCutoff) = true ∧
    completeHourlyWindow (baselineWindow batch dataCutoff) = true

section Served

variable {marketKey : MarketKey} {start stop dataCutoff : Instant} {response : CandleResponse}
  {batch : MarketCandlestickBatch}

/-- A range of two days covers other two days only if it ends when they do. -/
theorem covered_iff : Set.Ioc (dataCutoff - metricLookback) dataCutoff ⊆
      Set.Icc (stop - metricLookback) stop ↔ dataCutoff ≤ stop ∧ stop ≤ dataCutoff + 1 := by
  have hlookback : (1 : ℤ) ≤ metricLookback := by decide
  constructor
  · intro hcovered
    have hlast : dataCutoff ∈ Set.Ioc (dataCutoff - metricLookback) dataCutoff :=
      ⟨by linarith, le_refl _⟩
    have hfirst : dataCutoff - metricLookback + 1 ∈
        Set.Ioc (dataCutoff - metricLookback) dataCutoff := ⟨by linarith, by linarith⟩
    have hstart := (hcovered hfirst).1
    exact ⟨(hcovered hlast).2, by linarith⟩
  · rintro ⟨hstop, hstart⟩ time ⟨hafter, hbefore⟩
    have hnext := Int.add_one_le_of_lt hafter
    exact ⟨by linarith, hbefore.trans hstop⟩

theorem checkCandle_eq_ok {observedAt : Instant} {candle : MarketCandlestick} :
    checkCandle start stop observedAt candle = .ok () ↔
      candle.endPeriod ≤ observedAt ∧ start ≤ candle.endPeriod ∧ candle.endPeriod ≤ stop := by
  unfold checkCandle
  rw [Checks.ite_error_eq_ok, Checks.ite_error_eq_ok, not_lt, not_or, not_lt, not_lt,
    and_iff_left rfl]

theorem forM_checkCandle_eq_ok {observedAt : Instant} {candles : List MarketCandlestick} :
    candles.forM (checkCandle start stop observedAt) = .ok () ↔
      ∀ candle ∈ candles, candle.endPeriod ≤ observedAt ∧ start ≤ candle.endPeriod ∧
        candle.endPeriod ≤ stop := by
  induction candles with
  | nil => exact ⟨fun _ => by simp, fun _ => rfl⟩
  | cons candle rest ih =>
      rw [List.forall_mem_cons, ← ih, ← checkCandle_eq_ok]
      change (checkCandle start stop observedAt candle >>= fun _ =>
        rest.forM (checkCandle start stop observedAt)) = .ok () ↔ _
      rw [Checks.bind_eq_ok]
      constructor
      · rintro ⟨_, hfirst, hrest⟩
        exact ⟨hfirst, hrest⟩
      · rintro ⟨hfirst, hrest⟩
        exact ⟨(), hfirst, hrest⟩

/-- An answer that is taken becomes a batch of its candles. -/
theorem getMarketCandlesticks_eq_ok :
    getMarketCandlesticks marketKey start stop response = .ok (.ok batch) ↔
      response.observedAt ≤ stop ∧
        (∀ candle ∈ response.candles, candle.endPeriod ≤ response.observedAt ∧
          start ≤ candle.endPeriod ∧ candle.endPeriod ≤ stop) ∧
        MarketCandlestickBatch.make marketKey response.candles response.artifact = .ok batch := by
  unfold getMarketCandlesticks
  rw [Checks.ite_error_eq_ok, Checks.bind_eq_ok, not_lt]
  apply and_congr_right
  intro _
  rw [← forM_checkCandle_eq_ok]
  constructor
  · rintro ⟨_, hcandles, hbatch⟩
    exact ⟨hcandles, Except.ok.inj hbatch⟩
  · rintro ⟨hcandles, hbatch⟩
    exact ⟨(), hcandles, congrArg Except.ok hbatch⟩

theorem make_candlesticks
    (h : MarketCandlestickBatch.make marketKey response.candles response.artifact = .ok batch) :
    batch.candlesticks = sortedCandles response.candles := by
  unfold MarketCandlestickBatch.make at h
  split at h
  · cases h
    rfl
  · cases h

theorem exists_make (h : (response.candles.map MarketCandlestick.endPeriod).Nodup) :
    ∃ batch, MarketCandlestickBatch.make marketKey response.candles response.artifact =
      .ok batch := by
  have hsorted : ((sortedCandles response.candles).map MarketCandlestick.endPeriod).Nodup :=
    ((List.perm_insertionSort _ response.candles).map _).nodup_iff.mpr h
  unfold MarketCandlestickBatch.make
  rw [dif_pos hsorted]
  exact ⟨_, rfl⟩

theorem mem_sortedCandles {candle : MarketCandlestick} {candles : List MarketCandlestick} :
    candle ∈ sortedCandles candles ↔ candle ∈ candles :=
  (List.perm_insertionSort _ candles).mem_iff

end Served

/-! ## Hours of a day -/

/-- The first hour that ends in the day up to a time. -/
def firstMark (stop : Instant) : Instant :=
  ((stop - metricWindow) / candleInterval + 1) * candleInterval

theorem hours_of_day {stop time first : ℤ} (hfirst : 3600000000 ∣ first)
    (hbegins : stop - 86400000000 < first ∧ first ≤ stop - 82800000000) :
    (∃ hour < 24, time = first + (hour : ℕ) * 3600000000) ↔
      3600000000 ∣ time ∧ stop - 86400000000 < time ∧ time ≤ stop := by
  obtain ⟨start, rfl⟩ := hfirst
  constructor
  · rintro ⟨hour, hhour, rfl⟩
    omega
  · rintro ⟨⟨count, rfl⟩, hafter, hbefore⟩
    refine ⟨(count - start).toNat, ?_, ?_⟩
    · omega
    · omega

theorem first_of_day {stop first : ℤ}
    (h : first = ((stop - 86400000000) / 3600000000 + 1) * 3600000000) :
    3600000000 ∣ first ∧ stop - 86400000000 < first ∧ first ≤ stop - 82800000000 := by
  omega

/-- The hours of a day, one after the other. -/
theorem mem_hoursFrom_firstMark {stop time : Instant} :
    time ∈ hoursFrom (firstMark stop) 24 ↔ HourMark time ∧ time ∈ dayUntil stop := by
  have hfirst : firstMark stop = ((stop - 86400000000) / 3600000000 + 1) * 3600000000 := rfl
  obtain ⟨hmark, hbegins⟩ := first_of_day hfirst
  rw [mem_hoursFrom]
  exact hours_of_day hmark hbegins

/-- A window is complete exactly when it has a candle of each hour of its day. -/
theorem completeDay_of_marks {candles : List MarketCandlestick} {stop : Instant}
    (hordered : candles.Pairwise fun left right => left.endPeriod < right.endPeriod)
    (hmarks : ∀ time, time ∈ candles.map MarketCandlestick.endPeriod ↔
      HourMark time ∧ time ∈ dayUntil stop) :
    completeHourlyWindow candles = true := by
  rw [completeHourlyWindow_eq_true_iff]
  refine ⟨firstMark stop, ?_⟩
  apply (List.pairwise_map.mpr hordered).eq_of_mem_iff (hoursFrom_ascending _ _)
  intro time
  rw [hmarks, mem_hoursFrom_firstMark]

/-- Whole seconds within a range are within the range in seconds. -/
theorem mem_requestedTimes {start stop time : Instant} (hmark : HourMark time)
    (hstart : start ≤ time) (hstop : time ≤ stop) : time ∈ requestedTimes start stop := by
  obtain ⟨count, rfl⟩ := hmark
  have hseconds : candleInterval * count = 1000000 * (3600 * count) := by
    unfold candleInterval
    ring
  rw [hseconds] at hstart hstop ⊢
  generalize 3600 * count = seconds at hstart hstop
  have hwhole : (1000000 * seconds).tdiv 1000000 = seconds :=
    Int.mul_tdiv_cancel_left seconds (by decide)
  unfold requestedTimes timestampSeconds
  constructor
  · have hbegins := Int.tdiv_le_tdiv (by decide : (0 : ℤ) < 1000000) hstart
    rw [hwhole] at hbegins
    linarith
  · have hends := Int.tdiv_le_tdiv (by decide : (0 : ℤ) < 1000000) hstop
    rw [hwhole] at hends
    linarith

/-! ## Freezes without a cutoff -/

section Freeze

variable {service : KalshiMarketFreezeService} {clock : FreezeClock} {marketKey : MarketKey}
  {response : CandleResponse} {batch : MarketCandlestickBatch} {start stop dataCutoff : Instant}

/-- The candles of a day that the answer has all hours of. -/
theorem completeHourlyWindow_of_every (hevery : EveryHour start stop response)
    (hcandles : batch.candlesticks = sortedCandles response.candles) {day : Instant}
    (hday : ∀ time, HourMark time → time ∈ dayUntil day →
      start ≤ time ∧ time ≤ stop ∧ time ≤ response.observedAt) :
    completeHourlyWindow (batch.within (dayUntil day)) = true := by
  apply completeDay_of_marks (batch.ordered.filter _)
  intro time
  constructor
  · intro htime
    obtain ⟨candle, hcandle, rfl⟩ := List.mem_map.mp htime
    obtain ⟨hmem, hwithin⟩ := List.mem_filter.mp hcandle
    rw [hcandles, mem_sortedCandles] at hmem
    exact ⟨((hevery.times _).mp (List.mem_map_of_mem hmem)).1, (of_decide_eq_true hwithin).2⟩
  · rintro ⟨hmark, hwithin⟩
    obtain ⟨hstart, hstop, hobserved⟩ := hday time hmark hwithin
    obtain ⟨candle, hmem, rfl⟩ := List.mem_map.mp
      ((hevery.times time).mpr ⟨hmark, mem_requestedTimes hmark hstart hstop, hobserved⟩)
    apply List.mem_map_of_mem
    apply List.mem_filter.mpr
    rw [hcandles, mem_sortedCandles]
    exact ⟨hmem, decide_eq_true ⟨hevery.real candle hmem, hwithin⟩⟩

/-- The last hour of a complete day has been observed. -/
theorem observed_of_complete (hevery : EveryHour start stop response)
    (hcandles : batch.candlesticks = sortedCandles response.candles) {day mark : Instant}
    (hcomplete : completeHourlyWindow (batch.within (dayUntil day)) = true)
    (hmark : HourMark mark) (hday : mark ≤ day) : mark ≤ response.observedAt := by
  obtain ⟨first, hfirst, htimes⟩ := completeHourlyWindow_within day |>.mp hcomplete
  have hhour (hour : ℕ) (hhour : hour < 24) : HourMark (first + hour * candleInterval) ∧
      first + hour * candleInterval ≤ response.observedAt ∧
      first + hour * candleInterval ∈ dayUntil day := by
    have hmem : first + hour * candleInterval ∈
        (batch.within (dayUntil day)).map MarketCandlestick.endPeriod := by
      rw [htimes]
      exact mem_hoursFrom.mpr ⟨hour, hhour, rfl⟩
    obtain ⟨candle, hcandle, hend⟩ := List.mem_map.mp hmem
    obtain ⟨hanswered, hwithin⟩ := List.mem_filter.mp hcandle
    rw [hcandles, mem_sortedCandles] at hanswered
    obtain ⟨hmark, -, hobserved⟩ := (hevery.times _).mp (List.mem_map_of_mem hanswered)
    rw [← hend]
    exact ⟨hmark, hobserved, (of_decide_eq_true hwithin).2⟩
  obtain ⟨hlast, hseen, -⟩ := hhour 23 (by decide)
  refine le_trans ?_ hseen
  obtain ⟨last, hlast⟩ := hlast
  obtain ⟨count, rfl⟩ := hmark
  have hends : day < first + 24 * candleInterval := by
    have hbegins := hfirst.1
    unfold metricWindow at hbegins
    linarith
  have hinterval : (0 : ℤ) < candleInterval := by decide
  have hnext : candleInterval * count < candleInterval * (last + 1) := by
    rw [mul_add, ← hlast]
    push_cast
    linarith
  have hle : count ≤ last := Int.lt_add_one_iff.mp (lt_of_mul_lt_mul_left hnext hinterval.le)
  rw [hlast]
  exact mul_le_mul_of_nonneg_left hle hinterval.le

/-- A freeze without a cutoff serves its metrics exactly when it ends at the time that it has asked
the candles for, give or take a microsecond, with no hour since the candles were observed and none
in the fraction of a second by which the request begins earlier. -/
theorem served_iff (hobserved : response.observedAt = clock.observed)
    (hevery : EveryHour (service.candleRange none clock).1 (service.candleRange none clock).2
      response) :
    Served marketKey (service.candleRange none clock) (clock.dataCutoff none) response ↔
      (clock.completed ≤ clock.scanned + service.freezeDeadline ∧
        clock.scanned + service.freezeDeadline ≤ clock.completed + 1) ∧
      (∀ mark, HourMark mark → ¬ (clock.observed < mark ∧ mark ≤ clock.completed)) ∧
      ∀ mark, HourMark mark →
        mark ∈ requestedTimes (service.candleRange none clock).1 (service.candleRange none clock).2 →
        mark ≤ clock.observed → (service.candleRange none clock).1 ≤ mark := by
  have hrange : service.candleRange none clock =
      (clock.scanned + service.freezeDeadline - metricLookback,
        clock.scanned + service.freezeDeadline) := rfl
  have hcutoff : clock.dataCutoff none = clock.completed := rfl
  rw [hrange] at hevery ⊢
  rw [hcutoff]
  generalize clock.scanned + service.freezeDeadline = stop at hevery ⊢
  dsimp only at hevery ⊢
  constructor
  · rintro ⟨hcovered, batch, hbatch, hrecent, hbaseline⟩
    obtain ⟨-, hcandles, hmade⟩ := getMarketCandlesticks_eq_ok.mp hbatch
    have hsorted := make_candlesticks hmade
    refine ⟨covered_iff.mp hcovered, ?_, ?_⟩
    · rintro mark hmark ⟨hafter, hbefore⟩
      rw [recentWindow_eq] at hrecent
      have hseen := observed_of_complete hevery hsorted hrecent hmark hbefore
      rw [hobserved] at hseen
      exact absurd hafter (not_lt.mpr hseen)
    · intro mark hmark hrequested hseen
      obtain ⟨candle, hmem, rfl⟩ := List.mem_map.mp
        ((hevery.times mark).mpr ⟨hmark, hrequested, hobserved ▸ hseen⟩)
      exact (hcandles candle hmem).2.1
  · rintro ⟨hcovers, hrecent, hearly⟩
    have hcandles (candle : MarketCandlestick) (hmem : candle ∈ response.candles) :
        candle.endPeriod ≤ response.observedAt ∧ stop - metricLookback ≤ candle.endPeriod ∧
          candle.endPeriod ≤ stop := by
      obtain ⟨hmark, hrequested, hseen⟩ := (hevery.times _).mp (List.mem_map_of_mem hmem)
      have hknown := hobserved ▸ hseen
      exact ⟨hseen, hearly _ hmark hrequested hknown,
        (hknown.trans clock.observed_le_completed).trans hcovers.1⟩
    obtain ⟨batch, hmade⟩ : ∃ batch,
        MarketCandlestickBatch.make marketKey response.candles response.artifact = .ok batch :=
      exists_make hevery.unique
    have hsorted := make_candlesticks hmade
    have hseen : response.observedAt ≤ stop := by
      rw [hobserved]
      exact clock.observed_le_completed.trans hcovers.1
    -- The hours of either day are within the range that is covered, and all have been observed.
    have hday (day : Instant) (hfrom : clock.completed - metricLookback ≤ day - metricWindow)
        (huntil : day ≤ clock.completed) :
        completeHourlyWindow (batch.within (dayUntil day)) = true := by
      apply completeHourlyWindow_of_every hevery hsorted
      intro time hmark hwithin
      have hlate : time ≤ clock.completed := hwithin.2.trans huntil
      have hcovered := covered_iff.mpr hcovers ⟨hfrom.trans_lt hwithin.1, hlate⟩
      refine ⟨hcovered.1, hcovered.2, ?_⟩
      rw [hobserved]
      exact not_lt.mp fun hafter => hrecent time hmark ⟨hafter, hlate⟩
    have hwindows : metricLookback = metricWindow + metricWindow := by decide
    have hwindow : (0 : ℤ) ≤ metricWindow := by decide
    refine ⟨covered_iff.mpr hcovers, batch,
      getMarketCandlesticks_eq_ok.mpr ⟨hseen, hcandles, hmade⟩, ?_, ?_⟩
    · rw [recentWindow_eq]
      exact hday clock.completed (by linarith) (le_refl _)
    · rw [baselineWindow_eq]
      exact hday (clock.completed - metricWindow) (by linarith) (by linarith)

end Freeze

namespace Sample

/-! ## Freezes of ten minutes at most -/

theorem tenMinutes_pos : (0 : ℤ) < 600000000 := by decide

def tenMinutes : KalshiMarketFreezeService where
  readTimestamp _ label := .error (.payloadError (label ++ " is not a valid timestamp"))
  freezeDeadline := 600000000
  freezeDeadline_pos := tenMinutes_pos

/-- A freeze that has scanned the catalogue at midnight and takes all its time. -/
def slowClock : FreezeClock where
  scanned := 1767225600000000
  observed := 1767225601000000
  completed := 1767226200000000
  scanned_le_observed := by decide
  observed_le_completed := by decide

/-- A freeze that has scanned the catalogue five minutes before midnight and is done a minute
later. -/
def quickClock : FreezeClock where
  scanned := 1767225300000000
  observed := 1767225301000000
  completed := 1767225360000000
  scanned_le_observed := by decide
  observed_le_completed := by decide

/-- The hours from the second one of the thirtieth of December on. -/
def hourlyResponse (count : ℕ) (observedAt : Instant) : CandleResponse :=
  ⟨(hoursFrom 1767056400000000 count).map hourCandle, observedAt, bookArtifact⟩

theorem endPeriods_hourlyResponse (count : ℕ) (observedAt : Instant) :
    (hourlyResponse count observedAt).candles.map MarketCandlestick.endPeriod =
      hoursFrom 1767056400000000 count := by
  unfold hourlyResponse
  rw [List.map_map]
  exact List.map_id _

theorem hourlyResponse_every {count : ℕ} {observedAt start stop : Instant}
    (htimes : ∀ time, time ∈ hoursFrom 1767056400000000 count ↔
      HourMark time ∧ time ∈ requestedTimes start stop ∧ time ≤ observedAt) :
    EveryHour start stop (hourlyResponse count observedAt) := by
  constructor
  · rw [endPeriods_hourlyResponse]
    exact htimes
  · rw [endPeriods_hourlyResponse]
    exact (hoursFrom_ascending _ count).imp fun h => ne_of_lt h
  · intro candle hcandle
    obtain ⟨time, -, rfl⟩ := List.mem_map.mp hcandle
    rfl

theorem hours_requested {first last time : ℤ} {count : ℕ} (hlast : last = first + 3600000000 * count)
    (hfirst : 3600000000 ∣ first) {start stop observedAt : ℤ}
    (hstart : first - 3600000000 < start ∧ start ≤ first) (hstop : observedAt ≤ stop)
    (hobserved : last - 3600000000 ≤ observedAt ∧ observedAt < last) :
    (∃ hour < count, time = first + (hour : ℕ) * 3600000000) ↔
      3600000000 ∣ time ∧ (start ≤ time ∧ time ≤ stop) ∧ time ≤ observedAt := by
  obtain ⟨begins, rfl⟩ := hfirst
  subst hlast
  constructor
  · rintro ⟨hour, hhour, rfl⟩
    omega
  · rintro ⟨⟨mark, rfl⟩, hrange, hseen⟩
    refine ⟨(mark - begins).toNat, ?_, ?_⟩
    · omega
    · omega

theorem slow_every : EveryHour (tenMinutes.candleRange none slowClock).1
    (tenMinutes.candleRange none slowClock).2 (hourlyResponse 48 slowClock.observed) := by
  apply hourlyResponse_every
  intro time
  rw [mem_hoursFrom]
  have hlast : (1767229200000000 : ℤ) = 1767056400000000 + 3600000000 * (48 : ℕ) := by decide
  exact hours_requested hlast (by decide) (by decide) (by decide) (by decide)

theorem quick_every : EveryHour (tenMinutes.candleRange none quickClock).1
    (tenMinutes.candleRange none quickClock).2 (hourlyResponse 47 quickClock.observed) := by
  apply hourlyResponse_every
  intro time
  rw [mem_hoursFrom]
  have hlast : (1767225600000000 : ℤ) = 1767056400000000 + 3600000000 * (47 : ℕ) := by decide
  exact hours_requested hlast (by decide) (by decide) (by decide) (by decide)

end Sample

/-- A freeze that takes all its time has the candles of both days. -/
theorem slow_served : Served Sample.market (Sample.tenMinutes.candleRange none Sample.slowClock)
    (Sample.slowClock.dataCutoff none)
    (Sample.hourlyResponse 48 Sample.slowClock.observed) := by
  apply (served_iff rfl Sample.slow_every).mpr
  refine ⟨by decide, ?_, ?_⟩
  · rintro mark ⟨hour, rfl⟩ ⟨hafter, hbefore⟩
    unfold candleInterval at hafter hbefore
    have hlower : (1767225601000000 : ℤ) < 3600000000 * hour := hafter
    have hupper : 3600000000 * hour ≤ (1767226200000000 : ℤ) := hbefore
    omega
  · intro mark _ hrequested _
    exact hrequested.1

/-- A freeze that is done at once has not asked for the first hour of the two days. -/
theorem quick_not_served :
    ¬ ∀ (service : KalshiMarketFreezeService) (clock : FreezeClock) (marketKey : MarketKey)
        (response : CandleResponse),
      response.observedAt = clock.observed →
      EveryHour (service.candleRange none clock).1 (service.candleRange none clock).2 response →
      Served marketKey (service.candleRange none clock) (clock.dataCutoff none) response := by
  intro h
  have hserved := h Sample.tenMinutes Sample.quickClock Sample.market _ rfl Sample.quick_every
  have hcovers := covered_iff.mp hserved.covered
  exact absurd hcovers.2 (by decide)

end VTrade
