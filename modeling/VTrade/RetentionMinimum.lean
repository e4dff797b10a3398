/-
# The least retention of an artifact

A stage retains an artifact for six calendar months from its creation, and the registration refuses
it if that is earlier than six months from the time for which its cycle is scheduled.  A day that
the month six months later does not have becomes the last day of that month, with its clock as it
was.  So what is created later may be retained for less: on a later day of the same month, earlier
on the day, when both days become the same.  What is recorded for a location is never shortened.
-/

import VTrade.ArtifactRetention
import VTrade.Domain.Calendar

namespace VTrade

/-! ## Six months later -/

theorem sixMonthsAfter_months (year month : ℕ) :
    (sixMonthsAfter year month).1 * 12 + (sixMonthsAfter year month).2 =
      year * 12 + month + 6 := by
  unfold sixMonthsAfter
  dsimp only
  omega

/-- The days of the month that is six months after a timestamp. -/
def daysSixMonthsAfter (value : Datetime) : ℕ :=
  daysInMonth (sixMonthsAfter value.year value.month).1 (sixMonthsAfter value.year value.month).2

/-- A timestamp that is six months after another. -/
structure SixMonthsAfter (value later : Datetime) : Prop where
  year : later.year = (sixMonthsAfter value.year value.month).1
  month : later.month = (sixMonthsAfter value.year value.month).2
  day : later.day = min value.day (daysSixMonthsAfter value)
  timeOfDay : later.timeOfDay = value.timeOfDay
  utcoffset : later.utcoffset = value.utcoffset

theorem sixMonthRetainUntil_eq_ok {createdAt retained : Instant}
    (h : sixMonthRetainUntil createdAt = .ok retained) :
    ∃ value later, Datetime.utc createdAt = some value ∧ later.instant = retained ∧
      SixMonthsAfter value later := by
  unfold sixMonthRetainUntil at h
  split at h
  · cases h
  next value hvalue =>
    split at h
    · cases h
    · exact ⟨value, _, hvalue, Except.ok.inj h, rfl, rfl, rfl, rfl, rfl⟩

/-- What is raised is not that the retention is too short. -/
theorem sixMonthRetainUntil_ne (createdAt : Instant) : sixMonthRetainUntil createdAt ≠
    .error (.valueError "runtime artifacts must be retained for at least six calendar months") := by
  unfold sixMonthRetainUntil
  split
  · intro h
    cases h
  · split
    · intro h
      exact absurd (RetentionFailure.valueError.inj (Except.error.inj h)) (by decide)
    · intro h
      cases h

/-- Two times of one month, the second on a later day but earlier on it, whose days both become the
last one of the month six months later. -/
def ClampsEarlier (first second : Instant) : Prop :=
  ∃ one other, Datetime.utc first = some one ∧ Datetime.utc second = some other ∧
    one.year = other.year ∧ one.month = other.month ∧ daysSixMonthsAfter one ≤ one.day ∧
    one.day < other.day ∧ other.timeOfDay < one.timeOfDay

theorem clampsEarlier_iff {first second : Instant} {one other : Datetime}
    (hone : Datetime.utc first = some one) (hother : Datetime.utc second = some other) :
    ClampsEarlier first second ↔
      one.year = other.year ∧ one.month = other.month ∧ daysSixMonthsAfter one ≤ one.day ∧
        one.day < other.day ∧ other.timeOfDay < one.timeOfDay := by
  constructor
  · rintro ⟨value, value', hvalue, hvalue', hclamps⟩
    rw [hone] at hvalue
    rw [hother] at hvalue'
    rw [Option.some.inj hvalue, Option.some.inj hvalue']
    exact hclamps
  · intro hclamps
    exact ⟨one, other, hone, hother, hclamps⟩

namespace SixMonthsAfter

variable {one other oneLater otherLater : Datetime}

/-- Six months after a later month are later. -/
theorem le_of_month_lt (hafter : SixMonthsAfter one oneLater)
    (hafter' : SixMonthsAfter other otherLater) (hone : one.utcoffset = some 0)
    (hother : other.utcoffset = some 0)
    (h : one.year * 12 + one.month < other.year * 12 + other.month) :
    oneLater.instant ≤ otherLater.instant := by
  have hmonths := sixMonthsAfter_months one.year one.month
  have hmonths' := sixMonthsAfter_months other.year other.month
  apply (Datetime.instant_le_iff (hafter.utcoffset.trans hone)
    (hafter'.utcoffset.trans hother)).mpr
  left
  apply Datetime.ordinal_lt_of_month_lt
  rw [hafter.year, hafter.month, hafter'.year, hafter'.month, hmonths, hmonths']
  exact Nat.add_lt_add_right h 6

/-- Within a month, six months keep the order unless both days become the last one. -/
theorem le_iff_of_month_eq (hafter : SixMonthsAfter one oneLater)
    (hafter' : SixMonthsAfter other otherLater) (hone : one.utcoffset = some 0)
    (hother : other.utcoffset = some 0) (hyear : one.year = other.year)
    (hmonth : one.month = other.month) (hle : one.instant ≤ other.instant) :
    oneLater.instant ≤ otherLater.instant ↔
      ¬ (daysSixMonthsAfter one ≤ one.day ∧ one.day < other.day ∧
        other.timeOfDay < one.timeOfDay) := by
  have hdays : daysSixMonthsAfter other = daysSixMonthsAfter one := by
    unfold daysSixMonthsAfter
    rw [hyear, hmonth]
  rw [Datetime.instant_le_iff hone hother, Datetime.ordinal_eq, Datetime.ordinal_eq, hyear,
    hmonth] at hle
  rw [Datetime.instant_le_iff (hafter.utcoffset.trans hone) (hafter'.utcoffset.trans hother),
    Datetime.ordinal_eq, Datetime.ordinal_eq, hafter.year, hafter.month, hafter.day,
    hafter.timeOfDay, hafter'.year, hafter'.month, hafter'.day, hafter'.timeOfDay, hyear, hmonth,
    hdays]
  omega

end SixMonthsAfter

/-- A later time is not retained for less, unless both days become the last one of a month and the
later is earlier on its day. -/
theorem retained_le_iff {first second earlier later : Instant} (hle : first ≤ second)
    (hfirst : sixMonthRetainUntil first = .ok earlier)
    (hsecond : sixMonthRetainUntil second = .ok later) :
    earlier ≤ later ↔ ¬ ClampsEarlier first second := by
  obtain ⟨one, oneLater, hone, rfl, hafter⟩ := sixMonthRetainUntil_eq_ok hfirst
  obtain ⟨other, otherLater, hother, rfl, hafter'⟩ := sixMonthRetainUntil_eq_ok hsecond
  have hoffset := Datetime.utcoffset_utc hone
  have hoffset' := Datetime.utcoffset_utc hother
  rw [← Datetime.instant_utc hone, ← Datetime.instant_utc hother] at hle
  rw [clampsEarlier_iff hone hother]
  rcases (Datetime.month_le_of_instant_le hoffset hoffset' hle).lt_or_eq with hlt | hsame
  · have hlater := hafter.le_of_month_lt hafter' hoffset hoffset' hlt
    refine ⟨fun _ hclamps => ?_, fun _ => hlater⟩
    obtain ⟨hyear, hmonth, -⟩ := hclamps
    rw [hyear, hmonth] at hlt
    exact lt_irrefl _ hlt
  · obtain ⟨-, -, hmonth, hmonthLe, -⟩ := one.date_valid
    obtain ⟨-, -, hmonth', hmonthLe', -⟩ := other.date_valid
    have hyears : one.year = other.year := by omega
    have hmonths : one.month = other.month := by omega
    rw [hafter.le_iff_of_month_eq hafter' hoffset hoffset' hyears hmonths hle]
    constructor
    · rintro hnot ⟨-, -, hclamps⟩
      exact hnot hclamps
    · rintro hnot hclamps
      exact hnot ⟨hyears, hmonths, hclamps⟩

/-! ## Registrations -/

namespace ArtifactInventory

variable {scheduledAt createdAt registeredAt : Instant} {inventory : ArtifactInventory}
  {artifact : ArtifactRegistration}

theorem effectiveRetainUntil_of_ok {minimum : Instant}
    (h : sixMonthRetainUntil scheduledAt = .ok minimum) :
    effectiveRetainUntil scheduledAt registeredAt artifact =
      if artifact.retainUntil < minimum then
        .error (.valueError "runtime artifacts must be retained for at least six calendar months")
      else (sixMonthRetainUntil registeredAt).map (max artifact.retainUntil) := by
  unfold effectiveRetainUntil
  rw [h]
  cases sixMonthRetainUntil registeredAt with
  | error failure => rfl
  | ok least => rfl

theorem effectiveRetainUntil_of_error {failure : RetentionFailure}
    (h : sixMonthRetainUntil scheduledAt = .error failure) :
    effectiveRetainUntil scheduledAt registeredAt artifact = .error failure := by
  unfold effectiveRetainUntil
  rw [h]
  rfl

theorem registerArtifact_eq_error {failure : RetentionFailure} :
    registerArtifact scheduledAt registeredAt inventory artifact = .error failure ↔
      effectiveRetainUntil scheduledAt registeredAt artifact = .error failure := by
  unfold registerArtifact
  cases effectiveRetainUntil scheduledAt registeredAt artifact with
  | error raised => exact ⟨fun h => congrArg Except.error (Except.error.inj h),
      fun h => congrArg Except.error (Except.error.inj h)⟩
  | ok retainUntil => exact ⟨nofun, nofun⟩

/-- An artifact is refused for its retention if six months from the schedule are longer. -/
theorem registerArtifact_eq_error_iff :
    registerArtifact scheduledAt registeredAt inventory artifact =
        .error (.valueError
          "runtime artifacts must be retained for at least six calendar months") ↔
      ∃ minimum, sixMonthRetainUntil scheduledAt = .ok minimum ∧
        artifact.retainUntil < minimum := by
  rw [registerArtifact_eq_error]
  cases hscheduled : sixMonthRetainUntil scheduledAt with
  | error failure =>
      rw [effectiveRetainUntil_of_error hscheduled, ← hscheduled]
      refine ⟨fun h => absurd h (sixMonthRetainUntil_ne scheduledAt), ?_⟩
      rintro ⟨minimum, hminimum, -⟩
      rw [hscheduled] at hminimum
      cases hminimum
  | ok minimum =>
      rw [effectiveRetainUntil_of_ok hscheduled]
      by_cases hshort : artifact.retainUntil < minimum
      · rw [if_pos hshort]
        exact ⟨fun _ => ⟨minimum, rfl, hshort⟩, fun _ => rfl⟩
      · rw [if_neg hshort]
        constructor
        · intro h
          have hother := sixMonthRetainUntil_ne registeredAt
          cases hleast : sixMonthRetainUntil registeredAt with
          | error failure =>
              rw [hleast] at h hother
              exact absurd (congrArg Except.error (Except.error.inj h)) hother
          | ok least =>
              rw [hleast] at h
              cases h
        · rintro ⟨other, hsame, hless⟩
          rw [← Except.ok.inj hsame] at hless
          exact absurd hless hshort

/-- No step shortens the retention of a location. -/
theorem RowStepped.retained_le {dates : List Instant} {reading : Instant}
    {row : ArtifactInventoryRow} {after : Option ArtifactInventoryRow}
    (h : RowStepped dates reading (some row) after) :
    ∃ later, after = some later ∧ row.retainUntil ≤ later.retainUntil := by
  cases h with
  | kept _ hdates => exact ⟨row, rfl, le_refl _⟩
  | claimed _ leaseOwner hdates hexpired => exact ⟨_, rfl, le_refl _⟩
  | completed _ error hdates hdeleting =>
      refine ⟨_, rfl, ?_⟩
      cases error <;> exact le_refl _
  | registered _ later hdates hregistered => exact ⟨later, rfl, hregistered.before_le row rfl⟩

end ArtifactInventory

namespace Retention

/-- No run shortens the retention of a location. -/
theorem retained_le_run (store : ArtifactStore) (world : Retention)
    (events : List TimedRetentionEvent) {uri : String} {row : ArtifactInventoryRow}
    (hrow : world.inventory.row? uri = some row) :
    ∃ later, (Runs.final (step store) world events).inventory.row? uri = some later ∧
      row.retainUntil ≤ later.retainUntil := by
  induction events generalizing world row with
  | nil => exact ⟨row, hrow, le_refl _⟩
  | cons timed rest ih =>
      have hstepped : ArtifactInventory.RowStepped _ _ _
          ((world.step store timed).1.inventory.row? uri) := step_row uri
      rw [hrow] at hstepped
      obtain ⟨next, hnext, hle⟩ := hstepped.retained_le
      obtain ⟨later, hlater, hle'⟩ := ih (world.step store timed).1 hnext
      exact ⟨later, hlater, hle.trans hle'⟩

/-- An artifact that is created when or after its cycle is scheduled, and retained for six months
from then, is never refused, and six months from then are not less than six months from the
schedule, unless both days become the last one of a month and it is created earlier on its day.
Whatever is registered, no retention that is recorded is shortened. -/
theorem minimum_iff {scheduledAt createdAt : Instant} {artifact : ArtifactRegistration}
    (hle : scheduledAt ≤ createdAt)
    (hretained : sixMonthRetainUntil createdAt = .ok artifact.retainUntil) :
    ((∀ registeredAt inventory,
        ArtifactInventory.registerArtifact scheduledAt registeredAt inventory artifact ≠
          .error (.valueError
            "runtime artifacts must be retained for at least six calendar months")) ↔
      ¬ ClampsEarlier scheduledAt createdAt) ∧
    ((∀ minimum, sixMonthRetainUntil scheduledAt = .ok minimum →
        minimum ≤ artifact.retainUntil) ↔ ¬ ClampsEarlier scheduledAt createdAt) ∧
    ∀ store world events uri row, world.inventory.row? uri = some row →
      ∃ later, (Runs.final (step store) world events).inventory.row? uri = some later ∧
        row.retainUntil ≤ later.retainUntil := by
  have hdefined : ClampsEarlier scheduledAt createdAt →
      ∃ minimum, sixMonthRetainUntil scheduledAt = .ok minimum := by
    rintro ⟨one, other, hone, hother, hyear, hmonth, -⟩
    unfold sixMonthRetainUntil at hretained ⊢
    simp only [hone, hother] at hretained ⊢
    split at hretained
    · cases hretained
    next hrange =>
      rw [← hyear, ← hmonth] at hrange
      exact ⟨_, dif_neg hrange⟩
  have hminimum : (∀ minimum, sixMonthRetainUntil scheduledAt = .ok minimum →
      minimum ≤ artifact.retainUntil) ↔ ¬ ClampsEarlier scheduledAt createdAt := by
    constructor
    · intro hall hclamps
      obtain ⟨minimum, hminimum⟩ := hdefined hclamps
      exact (retained_le_iff hle hminimum hretained).mp (hall minimum hminimum) hclamps
    · intro hnot minimum hminimum
      exact (retained_le_iff hle hminimum hretained).mpr hnot
  refine ⟨?_, hminimum, fun store world events uri row hrow =>
    retained_le_run store world events hrow⟩
  rw [← hminimum]
  constructor
  · intro hnever minimum hscheduled
    by_contra hshort
    exact hnever createdAt (Retention.start createdAt).inventory
      (ArtifactInventory.registerArtifact_eq_error_iff.mpr ⟨minimum, hscheduled, not_le.mp hshort⟩)
  · intro hall registeredAt inventory hrefused
    obtain ⟨minimum, hscheduled, hshort⟩ :=
      ArtifactInventory.registerArtifact_eq_error_iff.mp hrefused
    exact absurd (hall minimum hscheduled) (not_le.mpr hshort)

end Retention

namespace Sample

/-- On the first of January, six months are 181 days. -/
theorem feeChangesArtifact_minimum :
    ((∀ registeredAt inventory,
        ArtifactInventory.registerArtifact moment.instant registeredAt inventory
            (feeChangesArtifact 181) ≠
          .error (.valueError
            "runtime artifacts must be retained for at least six calendar months")) ↔
      ¬ ClampsEarlier moment.instant moment.instant) ∧
    ((∀ minimum, sixMonthRetainUntil moment.instant = .ok minimum →
        minimum ≤ (feeChangesArtifact 181).retainUntil) ↔
      ¬ ClampsEarlier moment.instant moment.instant) ∧
    ∀ store world events uri row, world.inventory.row? uri = some row →
      ∃ later, (Runs.final (Retention.step store) world events).inventory.row? uri = some later ∧
        row.retainUntil ≤ later.retainUntil :=
  Retention.minimum_iff (le_refl moment.instant) (by decide +kernel)

theorem lateEvening_valid : 1 ≤ 2025 ∧ 2025 ≤ 9999 ∧ 1 ≤ 8 ∧ 8 ≤ 12 ∧ 1 ≤ 30 ∧
    30 ≤ daysInMonth 2025 8 := by decide

theorem lateEvening_clock : 23 < 24 ∧ 0 < 60 ∧ 0 < 60 ∧ 0 < 1000000 := by decide

/-- An hour before the last day of August. -/
def lateEvening : Datetime where
  year := 2025
  month := 8
  day := 30
  hour := 23
  minute := 0
  second := 0
  microsecond := 0
  utcoffset := some 0
  date_valid := lateEvening_valid
  time_valid := lateEvening_clock
  offset_valid := Datetime.utc_offset_valid

theorem afterMidnight_valid : 1 ≤ 2025 ∧ 2025 ≤ 9999 ∧ 1 ≤ 8 ∧ 8 ≤ 12 ∧ 1 ≤ 31 ∧
    31 ≤ daysInMonth 2025 8 := by decide

theorem afterMidnight_clock : 0 < 24 ∧ 5 < 60 ∧ 0 < 60 ∧ 0 < 1000000 := by decide

/-- Five minutes into the last day of August. -/
def afterMidnight : Datetime where
  year := 2025
  month := 8
  day := 31
  hour := 0
  minute := 5
  second := 0
  microsecond := 0
  utcoffset := some 0
  date_valid := afterMidnight_valid
  time_valid := afterMidnight_clock
  offset_valid := Datetime.utc_offset_valid

/-- The empty list of fee changes, retained until the end of February at five past midnight. -/
def augustArtifact : ArtifactRegistration where
  uri := artifactStore.location noFeeChangesDigest
  sha256 := noFeeChangesDigest
  byteLength := 28
  retainUntil := afterMidnight.instant + 181 * 86400000000
  uri_ne_empty := artifactStore.location_ne_empty noFeeChangesDigest

/-- What is created after midnight on the last day of August, for the cycle of the evening before,
is refused: both are retained until the last day of February, at their own clocks. -/
theorem augustArtifact_refused : lateEvening.instant ≤ afterMidnight.instant ∧
    sixMonthRetainUntil afterMidnight.instant = .ok augustArtifact.retainUntil ∧
    ArtifactInventory.registerArtifact lateEvening.instant afterMidnight.instant
        (Retention.start afterMidnight.instant).inventory augustArtifact =
      .error (.valueError
        "runtime artifacts must be retained for at least six calendar months") := by
  refine ⟨by decide +kernel, by decide +kernel, ?_⟩
  exact congrArg (Except.map _) (show ArtifactInventory.effectiveRetainUntil lateEvening.instant
    afterMidnight.instant augustArtifact = .error _ by decide +kernel)

end Sample

end VTrade
