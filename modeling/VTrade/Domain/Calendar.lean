/-
# The calendar

The days of the proleptic Gregorian calendar follow one another month by month, so that the later
of two months has the later days.  The date that is computed from the number of a day is the date
of that day, and the timestamp in UTC of an instant names this instant.
-/

import Mathlib.Data.Nat.Init
import Mathlib.Tactic.NormNum
import Mathlib.Tactic.Positivity
import Mathlib.Tactic.Ring
import VTrade.Domain.Datetime

namespace VTrade

namespace Datetime

/-! ## Months -/

/-- The days before a year. -/
def daysBeforeYear (year : ℕ) : ℕ :=
  (year - 1) * 365 + (year - 1) / 4 - (year - 1) / 100 + (year - 1) / 400

/-- The days before a month. -/
def daysBefore (year month : ℕ) : ℕ :=
  daysBeforeYear year +
    ((List.range (month - 1)).map fun month => daysInMonth year (month + 1)).sum

theorem ordinal_eq (value : Datetime) :
    value.ordinal = daysBefore value.year value.month + value.day :=
  rfl

theorem daysBefore_one (year : ℕ) : daysBefore year 1 = daysBeforeYear year := rfl

/-- The days of a month come before the next one. -/
theorem daysBefore_next_month (year : ℕ) {month : ℕ} (h : 1 ≤ month) :
    daysBefore year (month + 1) = daysBefore year month + daysInMonth year month := by
  obtain ⟨month, rfl⟩ := Nat.exists_eq_add_of_le' h
  unfold daysBefore
  rw [Nat.add_sub_cancel, Nat.add_sub_cancel, List.range_succ, List.map_append, List.sum_append,
    List.map_singleton, List.sum_singleton, Nat.add_assoc]

/-- The days of a year but those of December. -/
theorem sum_daysInMonth (year : ℕ) :
    ((List.range 11).map fun month => daysInMonth year (month + 1)).sum =
      306 + daysInMonth year 2 := by
  have hdays (month : ℕ) (h : month ≠ 2) : daysInMonth year month = daysInMonth 1 month := by
    unfold daysInMonth
    rw [if_neg h, if_neg h]
  simp only [List.range_succ, List.range_zero, List.nil_append, List.map_append, List.map_cons,
    List.map_nil, List.sum_append, List.sum_cons, List.sum_nil, Nat.reduceAdd]
  rw [hdays 1 (by decide), hdays 3 (by decide), hdays 4 (by decide), hdays 5 (by decide),
    hdays 6 (by decide), hdays 7 (by decide), hdays 8 (by decide), hdays 9 (by decide),
    hdays 10 (by decide), hdays 11 (by decide)]
  show _ = _
  norm_num [daysInMonth]
  omega

theorem daysInMonth_two (year : ℕ) : daysInMonth year 2 =
    if (year % 4 = 0 ∧ year % 100 ≠ 0) ∨ year % 400 = 0 then 29 else 28 :=
  rfl

theorem daysInMonth_december (year : ℕ) : daysInMonth year 12 = 31 := rfl

/-- The days of December come before the next year. -/
theorem daysBefore_next_year {year : ℕ} (h : 1 ≤ year) :
    daysBefore (year + 1) 1 = daysBefore year 12 + daysInMonth year 12 := by
  have hdecember : daysBefore year 12 = daysBeforeYear year + (306 + daysInMonth year 2) :=
    congrArg (daysBeforeYear year + ·) (sum_daysInMonth year)
  rw [daysBefore_one, daysInMonth_december, hdecember, daysInMonth_two]
  unfold daysBeforeYear
  rw [Nat.add_sub_cancel]
  clear hdecember
  obtain ⟨before, rfl⟩ := Nat.exists_eq_add_of_le' h
  rw [Nat.add_sub_cancel, Nat.succ_div, Nat.succ_div, Nat.succ_div]
  simp only [Nat.dvd_iff_mod_eq_zero]
  have hle : before / 100 ≤ before / 4 := Nat.div_le_div_left (by decide) (by decide)
  have hhundred : (before + 1) % 100 = 0 → (before + 1) % 4 = 0 := by omega
  have hcycle : (before + 1) % 400 = 0 → (before + 1) % 100 = 0 := by omega
  generalize (before + 1) % 4 = four at *
  generalize (before + 1) % 100 = hundred at *
  generalize (before + 1) % 400 = cycle at *
  generalize before / 4 = fours at *
  generalize before / 100 = hundreds at *
  grind

/-- The days before the months from the start on, counted through. -/
def daysBeforeIndex (index : ℕ) : ℕ := daysBefore (index / 12) (index % 12 + 1)

theorem daysBeforeIndex_eq {year month : ℕ} (h : 1 ≤ month) (hle : month ≤ 12) :
    daysBeforeIndex (year * 12 + (month - 1)) = daysBefore year month := by
  have hquotient : (year * 12 + (month - 1)) / 12 = year := by omega
  have hmonth : (year * 12 + (month - 1)) % 12 + 1 = month := by omega
  unfold daysBeforeIndex
  rw [hquotient, hmonth]

theorem daysBeforeIndex_succ {index : ℕ} (h : 12 ≤ index) : daysBeforeIndex (index + 1) =
    daysBeforeIndex index + daysInMonth (index / 12) (index % 12 + 1) := by
  unfold daysBeforeIndex
  by_cases hlast : index % 12 = 11
  · have hquotient : (index + 1) / 12 = index / 12 + 1 := by omega
    have hmonth : (index + 1) % 12 = 0 := by omega
    rw [hquotient, hmonth, hlast]
    exact daysBefore_next_year (by omega)
  · have hquotient : (index + 1) / 12 = index / 12 := by omega
    have hmonth : (index + 1) % 12 = index % 12 + 1 := by omega
    rw [hquotient, hmonth]
    exact daysBefore_next_month _ (Nat.succ_pos _)

theorem daysBeforeIndex_mono {first second : ℕ} (h : 12 ≤ first) (hle : first ≤ second) :
    daysBeforeIndex first ≤ daysBeforeIndex second := by
  induction second, hle using Nat.le_induction with
  | base => exact Nat.le_refl _
  | succ index hindex ih =>
      rw [daysBeforeIndex_succ (h.trans hindex)]
      exact ih.trans (Nat.le_add_right _ _)

/-- The days of a month come before those of a later month. -/
theorem ordinal_lt_of_month_lt {first second : Datetime}
    (h : first.year * 12 + first.month < second.year * 12 + second.month) :
    first.ordinal < second.ordinal := by
  obtain ⟨hyear, -, hmonth, hmonthLe, -, hday⟩ := first.date_valid
  obtain ⟨-, -, hmonth', hmonthLe', hday', -⟩ := second.date_valid
  have hnext : daysBeforeIndex (first.year * 12 + (first.month - 1) + 1) =
      daysBefore first.year first.month + daysInMonth first.year first.month := by
    have hquotient : (first.year * 12 + (first.month - 1)) / 12 = first.year := by omega
    have hindex : (first.year * 12 + (first.month - 1)) % 12 + 1 = first.month := by omega
    rw [daysBeforeIndex_succ (by omega), daysBeforeIndex_eq hmonth hmonthLe, hquotient, hindex]
  have hle : daysBeforeIndex (first.year * 12 + (first.month - 1) + 1) ≤
      daysBeforeIndex (second.year * 12 + (second.month - 1)) :=
    daysBeforeIndex_mono (by omega) (by omega)
  rw [hnext, daysBeforeIndex_eq hmonth' hmonthLe'] at hle
  rw [ordinal_eq, ordinal_eq]
  omega

/-! ## The date of a day -/

/-- The month and the day of a day of the rest of a year are that day. -/
theorem monthAndDay_range' (year : ℕ) {day first count : ℕ} (hfirst : 1 ≤ first)
    (h : day < ((List.range' first count).map (daysInMonth year)).sum) :
    daysBefore year (monthAndDay year day (List.range' first count)).1 +
        (monthAndDay year day (List.range' first count)).2 =
      daysBefore year first + day + 1 := by
  induction count generalizing first day with
  | zero => exact absurd h (Nat.not_lt_zero day)
  | succ count ih =>
      rw [List.range'_succ] at h ⊢
      unfold monthAndDay
      split
      · exact (Nat.add_assoc _ _ _).symm
      next hlater =>
        rw [List.map_cons, List.sum_cons] at h
        have hnext := ih (Nat.le_add_left 1 first) (Nat.sub_lt_left_of_lt_add (by omega) h)
        rw [hnext, daysBefore_next_month year hfirst]
        omega

/-- A day of a year but the last of a leap year. -/
theorem monthAndDay_spec (year : ℕ) {day : ℕ} (h : day < 365) :
    daysBefore year (monthAndDay year day [1, 2, 3, 4, 5, 6, 7, 8, 9, 10, 11, 12]).1 +
        (monthAndDay year day [1, 2, 3, 4, 5, 6, 7, 8, 9, 10, 11, 12]).2 =
      daysBeforeYear year + day + 1 := by
  have hmonths : [1, 2, 3, 4, 5, 6, 7, 8, 9, 10, 11, 12] = List.range' 1 12 := rfl
  have hsum : ((List.range' 1 12).map (daysInMonth year)).sum =
      ((List.range 11).map fun month => daysInMonth year (month + 1)).sum +
        daysInMonth year 12 := by
    rfl
  have htwo : 28 ≤ daysInMonth year 2 := by
    rw [daysInMonth_two]
    split
    · decide
    · decide
  rw [hmonths, monthAndDay_range' year (Nat.le_refl 1), daysBefore_one]
  rw [hsum, sum_daysInMonth, daysInMonth_december]
  omega

/-- The days before a year, by the cycles of four hundred, one hundred and four years. -/
theorem daysBeforeYear_cycles (epochs : ℕ) {centuries cycles years : ℕ} (hcenturies : centuries ≤ 3)
    (hcycles : cycles ≤ 24) (hyears : years ≤ 3) :
    daysBeforeYear (epochs * 400 + centuries * 100 + cycles * 4 + years + 1) =
      epochs * 146097 + centuries * 36524 + cycles * 1461 + years * 365 := by
  have hfour : (epochs * 400 + centuries * 100 + cycles * 4 + years) / 4 =
      epochs * 100 + centuries * 25 + cycles := by omega
  have hhundred : (epochs * 400 + centuries * 100 + cycles * 4 + years) / 100 =
      epochs * 4 + centuries := by omega
  have hepochs : (epochs * 400 + centuries * 100 + cycles * 4 + years) / 400 = epochs := by omega
  unfold daysBeforeYear
  rw [Nat.add_sub_cancel, hfour, hhundred, hepochs]
  omega

/-- The last day of a cycle of four or four hundred years is that of its last year. -/
theorem daysBeforeYear_last {epochs centuries cycles years rest : ℕ}
    (hlast : years = 4 ∨ centuries = 4) (hepoch : centuries * 36524 + (cycles * 1461 +
      (years * 365 + rest)) < 146097) (hcentury : cycles * 1461 + (years * 365 + rest) < 36524)
    (hcycle : years * 365 + rest < 1461) :
    daysBeforeYear (epochs * 400 + centuries * 100 + cycles * 4 + years + 1) =
      epochs * 146097 + (centuries * 36524 + (cycles * 1461 + (years * 365 + rest))) + 1 := by
  by_cases hcenturies : centuries = 4
  · have hcycles : cycles = 0 := by omega
    have hyears : years = 0 := by omega
    have hyear : epochs * 400 + centuries * 100 + cycles * 4 + years + 1 =
        (epochs + 1) * 400 + 0 * 100 + 0 * 4 + 0 + 1 := by omega
    rw [hyear, daysBeforeYear_cycles (epochs + 1) (Nat.zero_le 3) (Nat.zero_le 24) (Nat.zero_le 3)]
    omega
  · have hyear : epochs * 400 + centuries * 100 + cycles * 4 + years + 1 =
        epochs * 400 + centuries * 100 + (cycles + 1) * 4 + 0 + 1 := by omega
    obtain rfl := hlast.resolve_right hcenturies
    obtain rfl : rest = 0 := by omega
    have hlt : centuries ≤ 3 := by omega
    have hcycles : cycles + 1 ≤ 24 := by omega
    rw [hyear, daysBeforeYear_cycles epochs hlt hcycles (Nat.zero_le 3), Nat.add_mul]
    clear hyear hlast hepoch hcentury hcycle
    omega

/-- The date of the number of a day is the date of that day. -/
theorem daysBefore_ofOrdinal {ordinal : ℕ} (h : 1 ≤ ordinal) :
    daysBefore (ofOrdinal ordinal).1 (ofOrdinal ordinal).2.1 + (ofOrdinal ordinal).2.2 =
      ordinal := by
  obtain ⟨days, rfl⟩ := Nat.exists_eq_add_of_le' h
  clear h
  have hepochs := Nat.div_add_mod' days 146097
  have hcenturies := Nat.div_add_mod' (days % 146097) 36524
  have hcycles := Nat.div_add_mod' (days % 146097 % 36524) 1461
  have hyears := Nat.div_add_mod' (days % 146097 % 36524 % 1461) 365
  have hepoch : days % 146097 < 146097 := Nat.mod_lt _ (by decide)
  have hcentury : days % 146097 % 36524 < 36524 := Nat.mod_lt _ (by decide)
  have hcycle : days % 146097 % 36524 % 1461 < 1461 := Nat.mod_lt _ (by decide)
  have hyear : days % 146097 % 36524 % 1461 % 365 < 365 := Nat.mod_lt _ (by decide)
  unfold ofOrdinal
  rw [Nat.add_sub_cancel]
  dsimp only
  generalize days % 146097 % 36524 % 1461 % 365 = rest at *
  generalize days % 146097 % 36524 % 1461 / 365 = years at *
  generalize days % 146097 % 36524 % 1461 = inCycle at *
  generalize days % 146097 % 36524 / 1461 = cycles at *
  generalize days % 146097 % 36524 = inCentury at *
  generalize days % 146097 / 36524 = centuries at *
  generalize days % 146097 = inEpoch at *
  generalize days / 146097 = epochs at *
  subst hyears hcycles hcenturies hepochs
  split
  next hlast =>
    have hpositive : 1 ≤ epochs * 400 + centuries * 100 + cycles * 4 + years := by omega
    have hnext := daysBefore_next_year hpositive
    rw [daysInMonth_december, daysBefore_one] at hnext
    rw [Nat.add_sub_cancel, ← hnext, daysBeforeYear_last hlast hepoch hcentury hcycle]
  next hlast =>
    obtain ⟨hyears, hcenturies⟩ := not_or.mp hlast
    have hcenturies : centuries ≤ 3 := by omega
    have hcycles : cycles ≤ 24 := by omega
    have hyears : years ≤ 3 := by omega
    rw [monthAndDay_spec _ hyear, daysBeforeYear_cycles epochs hcenturies hcycles hyears]
    clear hyear hlast hepoch hcentury hcycle
    omega

/-! ## Instants -/

/-- The microseconds since midnight. -/
def timeOfDay (value : Datetime) : ℤ :=
  ((value.hour * 60 + value.minute) * 60 + value.second) * 1000000 + value.microsecond

theorem timeOfDay_nonneg (value : Datetime) : 0 ≤ value.timeOfDay := by
  unfold timeOfDay
  positivity

theorem timeOfDay_lt (value : Datetime) : value.timeOfDay < 86400000000 := by
  obtain ⟨hhour, hminute, hsecond, hmicrosecond⟩ := value.time_valid
  unfold timeOfDay
  omega

theorem instant_eq (value : Datetime) : value.instant =
    ((value.ordinal : ℤ) - 1) * 86400000000 + value.timeOfDay - value.utcoffset.getD 0 := by
  unfold instant timeOfDay
  ring

/-- Two timestamps in UTC are ordered by their days and, on one day, by their clocks. -/
theorem instant_le_iff {first second : Datetime} (hfirst : first.utcoffset = some 0)
    (hsecond : second.utcoffset = some 0) : first.instant ≤ second.instant ↔
      first.ordinal < second.ordinal ∨
        first.ordinal = second.ordinal ∧ first.timeOfDay ≤ second.timeOfDay := by
  have hclock := first.timeOfDay_nonneg
  have hclock' := second.timeOfDay_nonneg
  have hlt := first.timeOfDay_lt
  have hlt' := second.timeOfDay_lt
  rw [instant_eq, instant_eq, hfirst, hsecond, Option.getD_some]
  show ((_ : ℤ) ≤ _) ↔ _
  omega

/-- The earlier of two timestamps in UTC is of an earlier month, or of the same. -/
theorem month_le_of_instant_le {first second : Datetime} (hfirst : first.utcoffset = some 0)
    (hsecond : second.utcoffset = some 0) (h : first.instant ≤ second.instant) :
    first.year * 12 + first.month ≤ second.year * 12 + second.month := by
  by_contra hbefore
  have hordinal := ordinal_lt_of_month_lt (not_le.mp hbefore)
  rcases (instant_le_iff hfirst hsecond).mp h with hlt | ⟨hsame, -⟩
  · exact absurd hlt hordinal.asymm
  · exact absurd hsame hordinal.ne'

theorem utcoffset_utc {instant : Instant} {value : Datetime} (h : utc instant = some value) :
    value.utcoffset = some 0 := by
  unfold utc at h
  dsimp only at h
  split at h
  · rw [← Option.some.inj h]
  · cases h

/-- The fields of a clock are its reading. -/
theorem clock_eq (clock : ℕ) : ((clock / 3600000000 * 60 + clock / 60000000 % 60) * 60 +
    clock / 1000000 % 60) * 1000000 + clock % 1000000 = clock := by
  have hminutes : clock / 60000000 = clock / 1000000 / 60 := by
    rw [Nat.div_div_eq_div_mul]
  have hhours : clock / 3600000000 = clock / 1000000 / 60 / 60 := by
    rw [Nat.div_div_eq_div_mul, Nat.div_div_eq_div_mul]
  rw [hhours, hminutes, Nat.div_add_mod', Nat.div_add_mod', Nat.div_add_mod']

/-- The timestamp of an instant names it. -/
theorem instant_utc {instant : Instant} {value : Datetime} (h : utc instant = some value) :
    value.instant = instant := by
  have hoffset := utcoffset_utc h
  rw [instant_eq, hoffset, ordinal_eq]
  unfold utc at h
  dsimp only at h
  split at h
  next hvalid =>
    have hnonneg := hvalid.2.2
    have hday : ((instant / 86400000000).toNat : ℤ) = instant / 86400000000 :=
      Int.toNat_of_nonneg (Int.ediv_nonneg hnonneg (by decide))
    have hclock : ((instant % 86400000000).toNat : ℤ) = instant % 86400000000 :=
      Int.toNat_of_nonneg (Int.emod_nonneg instant (by decide))
    have hfields : (_ : ℤ) = _ := congrArg Nat.cast (clock_eq (instant % 86400000000).toNat)
    push_cast at hfields
    rw [← Option.some.inj h]
    unfold timeOfDay
    dsimp only
    rw [Option.getD_some, daysBefore_ofOrdinal (Nat.le_add_left 1 _)]
    push_cast
    rw [hfields, hday, hclock, add_sub_cancel_right, sub_zero]
    exact Int.ediv_mul_add_emod instant 86400000000
  · cases h

end Datetime

end VTrade
