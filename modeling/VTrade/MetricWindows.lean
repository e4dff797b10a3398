/-
# Complete windows

Two days of candles are compared only if both days are complete: each hour of the day has its
candle.  This module says when that is so without reference to how the code counts, and what the
roundings of the metrics are.
-/

import Mathlib.Data.Int.ConditionallyCompleteOrder
import VTrade.MarketMetrics

namespace VTrade

/-! ## Days of hours -/

/-- A number of times, each an hour after the one before. -/
def hoursFrom (first : Instant) : ℕ → List Instant
  | 0 => []
  | count + 1 => first :: hoursFrom (first + candleInterval) count

/-- The candles are those of the hours of the day that begins after a time: the first of them ends
in the first hour of the day, and each of the others an hour after the one before. -/
def CompleteDay (candles : List MarketCandlestick) (start : Instant) : Prop :=
  ∃ first ∈ Set.Ioc start (start + candleInterval),
    candles.map MarketCandlestick.endPeriod = hoursFrom first 24

theorem length_hoursFrom (first : Instant) (count : ℕ) : (hoursFrom first count).length = count := by
  induction count generalizing first with
  | zero => rfl
  | succ count ih => rw [hoursFrom, List.length_cons, ih]

theorem mem_hoursFrom {first time : Instant} {count : ℕ} :
    time ∈ hoursFrom first count ↔ ∃ hour < count, time = first + hour * candleInterval := by
  induction count generalizing first with
  | zero => simp [hoursFrom]
  | succ count ih =>
      rw [hoursFrom, List.mem_cons, ih]
      constructor
      · rintro (rfl | ⟨hour, hhour, rfl⟩)
        · exact ⟨0, Nat.succ_pos count, by simp⟩
        · refine ⟨hour + 1, Nat.succ_lt_succ hhour, ?_⟩
          push_cast
          ring
      · rintro ⟨hour, hhour, rfl⟩
        cases hour with
        | zero => exact .inl (by simp)
        | succ hour =>
            refine .inr ⟨hour, Nat.lt_of_succ_lt_succ hhour, ?_⟩
            push_cast
            ring

theorem hoursFrom_ascending (first : Instant) (count : ℕ) :
    (hoursFrom first count).Pairwise fun left right => left < right := by
  induction count generalizing first with
  | zero => exact .nil
  | succ count ih =>
      refine .cons (fun time htime => ?_) (ih _)
      obtain ⟨hour, -, rfl⟩ := mem_hoursFrom.mp htime
      have hpos : (0 : ℤ) ≤ hour * candleInterval := by
        unfold candleInterval
        positivity
      have hinterval : (0 : ℤ) < candleInterval := by decide
      linarith

/-- Times that are each an hour after the one before. -/
theorem forall_hour_apart_iff {first : Instant} {rest : List Instant} :
    (∀ pair ∈ (first :: rest).zip rest, pair.2 - pair.1 = candleInterval) ↔
      rest = hoursFrom (first + candleInterval) rest.length := by
  induction rest generalizing first with
  | nil => simp [hoursFrom]
  | cons second rest ih =>
      rw [List.zip_cons_cons, List.forall_mem_cons, List.length_cons, hoursFrom, List.cons.injEq, ih]
      constructor
      · rintro ⟨hsecond, hrest⟩
        have hsecond : second = first + candleInterval := by linarith
        exact ⟨hsecond, hsecond ▸ hrest⟩
      · rintro ⟨rfl, hrest⟩
        exact ⟨by ring, hrest⟩

/-- `_complete_hourly_window` by the times of the candles. -/
theorem completeHourlyWindow_eq_true_iff {candles : List MarketCandlestick} :
    completeHourlyWindow candles = true ↔
      ∃ first, candles.map MarketCandlestick.endPeriod = hoursFrom first 24 := by
  have hpairs : (candles.zip candles.tail).all (fun pair =>
        pair.2.endPeriod - pair.1.endPeriod = candleInterval) = true ↔
      ∀ pair ∈ (candles.map MarketCandlestick.endPeriod).zip
        (candles.map MarketCandlestick.endPeriod).tail, pair.2 - pair.1 = candleInterval := by
    rw [← List.map_tail, List.zip_map, List.forall_mem_map, List.all_eq_true]
    exact forall₂_congr fun pair _ => decide_eq_true_iff
  have hlength : candles.length = (candles.map MarketCandlestick.endPeriod).length :=
    (List.length_map ..).symm
  unfold completeHourlyWindow
  rw [hlength]
  generalize candles.map MarketCandlestick.endPeriod = times at hpairs
  cases times with
  | nil => simp [hoursFrom]
  | cons first rest =>
      by_cases hcount : (first :: rest).length = 24
      · rw [if_neg (not_not.mpr hcount), hpairs, List.tail_cons, forall_hour_apart_iff,
          ← hcount, List.length_cons]
        constructor
        · intro hrest
          exact ⟨first, congrArg (first :: ·) hrest⟩
        · rintro ⟨start, hstart⟩
          obtain ⟨rfl, hrest⟩ := List.cons.inj hstart
          exact hrest
      · rw [if_pos hcount]
        constructor
        · exact fun h => Bool.noConfusion h
        · rintro ⟨start, hstart⟩
          exact absurd (hstart ▸ length_hoursFrom start 24) hcount

/-- A window of a day is complete exactly when each hour of the day has its candle. -/
theorem completeHourlyWindow_iff {candles : List MarketCandlestick} {start : Instant}
    (hwindow : ∀ candle ∈ candles, candle.endPeriod ∈ Set.Ioc start (start + metricWindow)) :
    completeHourlyWindow candles = true ↔ CompleteDay candles start := by
  rw [completeHourlyWindow_eq_true_iff]
  constructor
  · rintro ⟨first, hfirst⟩
    have hwithin (hour : ℕ) (hhour : hour < 24) :
        first + hour * candleInterval ∈ Set.Ioc start (start + metricWindow) := by
      have hmem : first + hour * candleInterval ∈ candles.map MarketCandlestick.endPeriod := by
        rw [hfirst]
        exact mem_hoursFrom.mpr ⟨hour, hhour, rfl⟩
      obtain ⟨candle, hcandle, hend⟩ := List.mem_map.mp hmem
      exact hend ▸ hwindow candle hcandle
    have hbegins := (hwithin 0 (by decide)).1
    have hends := (hwithin 23 (by decide)).2
    refine ⟨first, ⟨?_, ?_⟩, hfirst⟩
    · simpa using hbegins
    · unfold metricWindow at hends
      push_cast at hends
      linarith
  · rintro ⟨first, -, hfirst⟩
    exact ⟨first, hfirst⟩

/-! ## Roundings -/

theorem roundHalfUp_of_nonneg {value : ℚ} (h : 0 ≤ value) :
    roundHalfUp value = ⌊value + 1 / 2⌋ := by
  unfold roundHalfUp
  rw [if_neg (not_lt.mpr h)]

/-- A score that is between zero and one still is when it is rounded. -/
theorem quantized_mem_Icc {value : ℚ} (h : value ∈ Set.Icc (0 : ℚ) 1) :
    quantized value ∈ Set.Icc (0 : ℚ) 1 := by
  have hscaled : 0 ≤ value * 10 ^ 10 := mul_nonneg h.1 (by norm_num)
  unfold quantized
  rw [roundHalfUp_of_nonneg hscaled]
  constructor
  · apply div_nonneg _ (by norm_num)
    exact_mod_cast Int.floor_nonneg.mpr (by linarith)
  · rw [div_le_one (by norm_num)]
    have hfloor : ⌊value * 10 ^ 10 + 1 / 2⌋ ≤ (10 ^ 10 : ℤ) := by
      rw [← Int.lt_add_one_iff, Int.floor_lt]
      push_cast
      linarith [h.2]
    exact_mod_cast hfloor

/-- The rounded root of what is not negative is within a half of the root. -/
theorem roundedSqrt_spec {value : ℚ} (h : 0 ≤ value) :
    4 * value < (2 * (roundedSqrt value : ℚ) + 1) ^ 2 ∧
      (roundedSqrt value = 0 ∨ (2 * (roundedSqrt value : ℚ) - 1) ^ 2 ≤ 4 * value) := by
  have hfour : (0 : ℚ) ≤ 4 * value := by linarith
  have hfloor : ((⌊4 * value⌋.toNat : ℕ) : ℤ) = ⌊4 * value⌋ :=
    Int.toNat_of_nonneg (Int.floor_nonneg.mpr hfour)
  have hbelow : ((⌊4 * value⌋.toNat : ℕ) : ℚ) ≤ 4 * value := by
    have hle := Int.floor_le (4 * value)
    rw [← hfloor] at hle
    exact_mod_cast hle
  have habove : 4 * value < (⌊4 * value⌋.toNat : ℕ) + 1 := by
    have hlt := Int.lt_floor_add_one (4 * value)
    rw [← hfloor] at hlt
    exact_mod_cast hlt
  unfold roundedSqrt
  generalize ⌊4 * value⌋.toNat = whole at hbelow habove
  have hroot : Nat.sqrt whole * Nat.sqrt whole ≤ whole := Nat.sqrt_le whole
  have hnext : whole < (Nat.sqrt whole + 1) * (Nat.sqrt whole + 1) := Nat.lt_succ_sqrt whole
  generalize Nat.sqrt whole = root at hroot hnext
  have hodd : root + 1 ≤ 2 * ((root + 1) / 2) + 1 := by omega
  have heven : 2 * ((root + 1) / 2) ≤ root + 1 := by omega
  generalize (root + 1) / 2 = half at hodd heven
  constructor
  · calc 4 * value < (whole : ℚ) + 1 := habove
      _ ≤ (2 * (half : ℚ) + 1) ^ 2 := by
          have hsquare : whole + 1 ≤ (2 * half + 1) ^ 2 := by nlinarith
          exact_mod_cast hsquare
  · rcases Nat.eq_zero_or_pos half with hzero | hpos
    · exact .inl hzero
    · right
      have hsquare : (2 * (half : ℤ) - 1) ^ 2 ≤ (whole : ℤ) := by
        have hlower : (1 : ℤ) ≤ half := by exact_mod_cast hpos
        have hupper : 2 * (half : ℤ) ≤ root + 1 := by exact_mod_cast heven
        have hwhole : (root : ℤ) * root ≤ whole := by exact_mod_cast hroot
        nlinarith
      calc (2 * (half : ℚ) - 1) ^ 2 ≤ (whole : ℚ) := by exact_mod_cast hsquare
        _ ≤ 4 * value := hbelow

end VTrade
