/-
# Timestamps

A timestamp is a wall clock reading with an optional offset from UTC.  Without
the offset it is naive, and the program refuses it wherever it matters.  Two
aware timestamps are compared, and looked up in dictionaries, by the instant
they name; their printed form also shows the offset.

Values that are only ever compared are kept as instants: microseconds since the
start of year one, UTC.
-/

import VTrade.Lib.Text
import Mathlib.Data.Int.Basic

namespace VTrade

/-- Microseconds since the start of year one, UTC. -/
abbrev Instant := ℤ

/-- The days of a month of the proleptic Gregorian calendar. -/
def daysInMonth (year month : ℕ) : ℕ :=
  if month = 2 then
    if (year % 4 = 0 ∧ year % 100 ≠ 0) ∨ year % 400 = 0 then 29 else 28
  else if month = 4 ∨ month = 6 ∨ month = 9 ∨ month = 11 then 30
  else 31

structure Datetime where
  year : ℕ
  month : ℕ
  day : ℕ
  hour : ℕ
  minute : ℕ
  second : ℕ
  microsecond : ℕ
  /-- Microseconds east of UTC; a naive timestamp has none. -/
  utcoffset : Option ℤ
  date_valid : 1 ≤ year ∧ year ≤ 9999 ∧ 1 ≤ month ∧ month ≤ 12 ∧ 1 ≤ day ∧
    day ≤ daysInMonth year month
  time_valid : hour < 24 ∧ minute < 60 ∧ second < 60 ∧ microsecond < 1000000
  offset_valid : ∀ offset ∈ utcoffset, -86400000000 < offset ∧ offset < 86400000000
  deriving DecidableEq

namespace Datetime

/-- `value.tzinfo is not None and value.utcoffset() is not None`. -/
def isAware (value : Datetime) : Bool := value.utcoffset.isSome

/-- The day number of a date; the first day of year one is day one. -/
def ordinal (value : Datetime) : ℕ :=
  (value.year - 1) * 365 + (value.year - 1) / 4 - (value.year - 1) / 100 +
    (value.year - 1) / 400 +
    ((List.range (value.month - 1)).map fun month => daysInMonth value.year (month + 1)).sum +
    value.day

/-- The instant a timestamp names. -/
def instant (value : Datetime) : Instant :=
  ((((value.ordinal - 1 : ℤ) * 24 + value.hour) * 60 + value.minute) * 60 + value.second)
    * 1000000 + value.microsecond - value.utcoffset.getD 0

/-- `YYYY-MM-DD`. -/
def isoDate (value : Datetime) : List Char :=
  Text.zeroPad 4 value.year ++ '-' :: (Text.zeroPad 2 value.month ++
    '-' :: Text.zeroPad 2 value.day)

/-- The part of the clock below a second, left out when it is zero. -/
def isoFraction (microsecond : ℕ) : List Char :=
  if microsecond = 0 then [] else '.' :: Text.zeroPad 6 microsecond

/-- The offset as `+HH:MM`, with seconds and their fraction when they are not zero. -/
def isoOffset (offset : ℤ) : List Char :=
  let size := offset.natAbs
  let seconds := size / 1000000
  (if offset < 0 then '-' else '+') :: (Text.zeroPad 2 (seconds / 3600) ++
    ':' :: (Text.zeroPad 2 (seconds / 60 % 60) ++
      (if seconds % 60 = 0 ∧ size % 1000000 = 0 then []
        else ':' :: (Text.zeroPad 2 (seconds % 60) ++ isoFraction (size % 1000000)))))

/-- `HH:MM:SS`, the fraction of a second and the offset. -/
def isoClock (value : Datetime) : List Char :=
  Text.zeroPad 2 value.hour ++ ':' :: (Text.zeroPad 2 value.minute ++
    ':' :: (Text.zeroPad 2 value.second ++
      (isoFraction value.microsecond ++ value.utcoffset.elim [] isoOffset)))

/-- `datetime.isoformat()`. -/
def isoformat (value : Datetime) : String :=
  String.ofList (value.isoDate ++ 'T' :: value.isoClock)

theorem length_isoDate (value : Datetime) : value.isoDate.length = 10 := by
  simp [isoDate]

theorem isoFraction_no_T (microsecond : ℕ) : 'T' ∉ isoFraction microsecond := by
  unfold isoFraction
  split_ifs
  · simp
  · intro h
    rcases List.mem_cons.mp h with h | h
    · exact absurd h (by decide)
    · exact absurd (Text.mem_digits_of_mem_zeroPad h) (by decide)

theorem isoOffset_no_T (offset : ℤ) : 'T' ∉ isoOffset offset := by
  have hpad (width n : ℕ) : 'T' ∉ Text.zeroPad width n := fun h =>
    absurd (Text.mem_digits_of_mem_zeroPad h) (by decide)
  unfold isoOffset
  split_ifs <;> simp [hpad, isoFraction_no_T]

/-- The separator of date and clock occurs only between them. -/
theorem isoClock_no_T (value : Datetime) : 'T' ∉ value.isoClock := by
  have hpad (width n : ℕ) : 'T' ∉ Text.zeroPad width n := fun h =>
    absurd (Text.mem_digits_of_mem_zeroPad h) (by decide)
  unfold isoClock
  cases value.utcoffset <;> simp [hpad, isoFraction_no_T, isoOffset_no_T]

/-- A timestamp printed at the end of a text can be read back off it. -/
theorem append_isoformat_inj {before before' : String} {first second : Datetime}
    (h : before ++ first.isoformat = before' ++ second.isoformat) :
    before = before' ∧ first.isoformat = second.isoformat := by
  have hlist := congrArg String.toList h
  simp only [isoformat, String.toList_append, String.toList_ofList] at hlist
  rw [← List.append_assoc, ← List.append_assoc] at hlist
  obtain ⟨hfront, hclock⟩ := Text.append_cons_inj_of_not_mem first.isoClock_no_T
    second.isoClock_no_T hlist
  obtain ⟨hbefore, hdate⟩ := List.append_inj' hfront (by simp [length_isoDate])
  exact ⟨String.toList_injective hbefore, by rw [isoformat, isoformat, hdate, hclock]⟩

/-! ## Timestamps of an instant -/

/-- The month and the day of a day of a year, counted from zero. -/
def monthAndDay (year : ℕ) : ℕ → List ℕ → ℕ × ℕ
  | day, [] => (12, day + 1)
  | day, month :: rest =>
      if day < daysInMonth year month then (month, day + 1)
      else monthAndDay year (day - daysInMonth year month) rest

/-- `_ord2ymd`: the date of a day number. -/
def ofOrdinal (ordinal : ℕ) : ℕ × ℕ × ℕ :=
  let days := ordinal - 1
  let centuries := days % 146097 / 36524
  let cycles := days % 146097 % 36524 / 1461
  let years := days % 146097 % 36524 % 1461 / 365
  let year := days / 146097 * 400 + centuries * 100 + cycles * 4 + years + 1
  -- The last day of a cycle of four or four hundred years is one more than its years have.
  if years = 4 ∨ centuries = 4 then (year - 1, 12, 31)
  else (year, monthAndDay year (days % 146097 % 36524 % 1461 % 365)
    [1, 2, 3, 4, 5, 6, 7, 8, 9, 10, 11, 12])

theorem utc_offset_valid : ∀ offset ∈ some (0 : ℤ), -86400000000 < offset ∧ offset < 86400000000 := by
  simp

/-- `astimezone(UTC)`, unless the instant is before year one or after year 9999. -/
def utc (instant : Instant) : Option Datetime :=
  let date := ofOrdinal ((instant / 86400000000).toNat + 1)
  let clock := (instant % 86400000000).toNat
  if h : (1 ≤ date.1 ∧ date.1 ≤ 9999 ∧ 1 ≤ date.2.1 ∧ date.2.1 ≤ 12 ∧ 1 ≤ date.2.2 ∧
      date.2.2 ≤ daysInMonth date.1 date.2.1) ∧ clock / 3600000000 < 24 ∧ 0 ≤ instant then
    some {
      year := date.1
      month := date.2.1
      day := date.2.2
      hour := clock / 3600000000
      minute := clock / 60000000 % 60
      second := clock / 1000000 % 60
      microsecond := clock % 1000000
      utcoffset := some 0
      date_valid := h.1
      time_valid := ⟨h.2.1, by omega, by omega, by omega⟩
      offset_valid := utc_offset_valid }
  else none

theorem isAware_utc {instant : Instant} {value : Datetime} (h : utc instant = some value) :
    value.isAware = true := by
  unfold utc at h
  dsimp only at h
  split at h
  · cases h
    rfl
  · cases h

end Datetime

end VTrade
