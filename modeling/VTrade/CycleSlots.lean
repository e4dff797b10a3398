/-
# The slots of a schedule

The schedule of an agent points at the next slot of its hourly grid.  Claiming accounts for
all slots up to the current hour: the last one becomes a cycle, unless it is too old, and
the others are skipped, as one range.  So every slot before the next one has been claimed
or skipped exactly once, however irregular the times are at which workers claim.
-/

import VTrade.CycleLeases

namespace VTrade

/-- The agent and the slot of a row, and whether the slot was skipped. -/
def CycleRowFields.slot (row : CycleRowFields) : String × Instant × Bool :=
  (row.agentId, row.scheduledAt, decide (row.status = .skipped))

/-- A range of slots that is skipped. -/
structure SkippedRange where
  agentId : String
  first : Instant
  last : Instant

/-- `generate_series(first, last, interval '1 hour')`. -/
def SkippedRange.slots (range : SkippedRange) : List Instant :=
  (List.range ((range.last - range.first) / CycleTables.hour + 1).toNat).map fun index : ℕ =>
    range.first + index * CycleTables.hour

/-- When an agent is scheduled next. -/
def ScheduleTable.next (table : ScheduleTable) (agentId : String) : Option Instant :=
  (KeyedList.lookup (fun row : ScheduleRow => row.agentId) agentId table.rows).map
    fun row => row.nextScheduledAt

theorem ScheduleTable.next_setNext {table : ScheduleTable} {agentId other : String}
    {nextAt : Instant} : (table.setNext agentId nextAt).next other =
      (table.next other).map fun before => if other = agentId then nextAt else before := by
  unfold next setNext
  rw [KeyedList.lookup_map, Option.map_map, Option.map_map]
  have hkey : (fun row : ScheduleRow => row.agentId) ∘ (fun schedule : ScheduleRow =>
      if schedule.agentId = agentId then { schedule with nextScheduledAt := nextAt }
      else schedule) = fun row => row.agentId := by
    funext schedule
    rw [Function.comp_apply]
    split <;> rfl
  rw [hkey]
  cases hfound : KeyedList.lookup (fun row : ScheduleRow => row.agentId) other table.rows with
  | none => rfl
  | some row =>
      have hagent : row.agentId = other := KeyedList.key_of_lookup_eq_some hfound
      subst hagent
      rw [Option.map_some, Option.map_some, Function.comp_apply, Function.comp_apply]
      split <;> rfl

theorem ScheduleTable.next_of_mem {table : ScheduleTable} {row : ScheduleRow}
    (h : row ∈ table.rows) : table.next row.agentId = some row.nextScheduledAt := by
  rw [next, (KeyedList.lookup_eq_some_iff table.unique).mpr ⟨h, rfl⟩, Option.map_some]

namespace CycleTables

/-- The slots of all rows, in the order in which they were recorded. -/
def slots (tables : CycleTables) : List (String × Instant × Bool) :=
  tables.cycles.map fun row => row.toCycleRowFields.slot

/-- The range that claiming a schedule skips. -/
def skippedRange (terms : LeaseTerms) (now : Instant) (schedule : ScheduleRow) :
    Option SkippedRange :=
  let scheduledAt := latestHourNotAfter now schedule.nextScheduledAt
  let skippedThrough := if now - scheduledAt ≤ terms.missedGrace then scheduledAt - hour
    else scheduledAt
  if schedule.nextScheduledAt ≤ skippedThrough then
    some ⟨schedule.agentId, schedule.nextScheduledAt, skippedThrough⟩
  else none

/-- The ranges that a transaction skips, unless it raises. -/
def skippedRanges (tables : CycleTables) : CycleCall → List SkippedRange
  | .claimDue scheduling terms now =>
      if terms.limit ≤ 0 ∨ scheduling.lockGranted = false then []
      else ((tables.dueSchedules scheduling now.instant).take terms.limit.toNat).filterMap
        (skippedRange terms now.instant)
  | .recoverExpired _ _ _ _ | .renewLease _ _ _ | .beginStage _ _ _ _
  | .completeStage _ _ _ _ _ _ | .failCycle _ _ _ | .completeCycle _ _ _ => []

variable {tables : CycleTables}

/-- A row is written over one with the same slot. -/
theorem slots_setCycle {row old : AgentCycleRow} (hold : tables.cycleRow row.id = some old)
    (hsame : row.toCycleRowFields.slot = old.toCycleRowFields.slot) :
    (tables.setCycle row).slots = tables.slots :=
  @KeyedList.map_upsert_of_lookup _ _ _ AgentCycleRow.key _ tables.cycles row old
    (fun row => row.toCycleRowFields.slot) hold hsame

theorem updateCycle_slots {fields : CycleRowFields} {row : AgentCycleRow} {after : CycleTables}
    (h : tables.updateCycle fields = .ok after) (hrow : tables.cycleRow fields.id = some row)
    (hsame : fields.slot = row.toCycleRowFields.slot) :
    after.slots = tables.slots ∧ after.schedules = tables.schedules := by
  obtain ⟨written, hwritten, h⟩ := Checks.bind_eq_ok.mp h
  cases h
  have hfields := AgentCycleRow.make_eq_ok_iff.mp hwritten
  rw [← hfields] at hrow hsame
  exact ⟨slots_setCycle hrow hsame, rfl⟩

/-- A slot that has no row gets one. -/
theorem insertCycle_slots {fields : CycleRowFields} {after : CycleTables} {inserted : Bool}
    (hfresh : ∀ row ∈ tables.cycles, row.agentId = fields.agentId →
      row.scheduledAt ≠ fields.scheduledAt)
    (h : tables.insertCycle fields = .ok (after, inserted)) :
    inserted = true ∧ after.slots = tables.slots ++ [fields.slot] ∧
      after.schedules = tables.schedules := by
  unfold insertCycle at h
  rw [if_neg] at h
  · split at h
    · cases h
    next hnone =>
      obtain ⟨row, hrow, h⟩ := Checks.bind_eq_ok.mp h
      cases h
      have hfields := AgentCycleRow.make_eq_ok_iff.mp hrow
      refine ⟨rfl, ?_, rfl⟩
      have hnew : ∀ other ∈ tables.cycles, other.key ≠ row.key := by
        apply KeyedList.lookup_eq_none_iff.mp
        have hid : row.key = fields.id := by rw [AgentCycleRow.key, hfields]
        rw [hid]
        exact Option.not_isSome_iff_eq_none.mp hnone
      rw [slots, setCycle, slots]
      dsimp only
      rw [KeyedList.upsert_eq_append hnew, List.map_append, List.map_singleton, hfields]
  · simpa using hfresh

/-! ## One schedule -/

/-- The fields of a row do not say which slots are taken before. -/
theorem mem_slots_of_mem {row : AgentCycleRow} (h : row ∈ tables.cycles) :
    (row.agentId, row.scheduledAt, decide (row.status = .skipped)) ∈ tables.slots :=
  List.mem_map.mpr ⟨row, h, rfl⟩

/-- No slot of an agent is taken from an instant on. -/
def FreeFrom (tables : CycleTables) (agentId : String) (first : Instant) : Prop :=
  ∀ slot ∈ tables.slots, slot.1 = agentId → slot.2.1 < first

theorem FreeFrom.ne {agentId : String} {first scheduledAt : Instant}
    (h : tables.FreeFrom agentId first) (hle : first ≤ scheduledAt) :
    ∀ row ∈ tables.cycles, row.agentId = agentId → row.scheduledAt ≠ scheduledAt := by
  intro row hmem hagent hsame
  have hlt : row.scheduledAt < first := h _ (mem_slots_of_mem hmem) hagent
  rw [hsame] at hlt
  exact hlt.not_ge hle

theorem hour_pos : 0 < hour := by decide

/-- Taking the slots from the first on leaves those after them free. -/
theorem FreeFrom.append {agentId : String} {first : Instant} {count : ℕ} {skipped : Bool}
    {after : CycleTables} (h : tables.FreeFrom agentId first) (hslots : after.slots = tables.slots ++
      (List.range count).map fun index : ℕ => (agentId, first + index * hour, skipped)) :
    after.FreeFrom agentId (first + count * hour) := by
  intro slot hmem hagent
  rw [hslots, List.mem_append] at hmem
  rcases hmem with hmem | hmem
  · have hlt := h slot hmem hagent
    have hnonneg : 0 ≤ (count : ℤ) * hour := mul_nonneg (Int.natCast_nonneg _) hour_pos.le
    exact hlt.trans_le (Int.le_add_of_nonneg_right hnonneg)
  · obtain ⟨index, hindex, rfl⟩ := List.mem_map.mp hmem
    have hlt : (index : ℤ) < count := by exact_mod_cast List.mem_range.mp hindex
    exact Int.add_lt_add_left (mul_lt_mul_of_pos_right hlt hour_pos) first

/-- A range takes its slots one after the other. -/
theorem skipSlots {ids : RandomIds} {agentId : String} {first now : Instant}
    (hfree : tables.FreeFrom agentId first) (count : ℕ) {after : CycleTables}
    (h : (List.range count).foldlM (fun (tables : CycleTables) index => do
      let inserted ← { tables with drawn := tables.drawn + 1 }.insertCycle
        (skippedFields (ids.hex tables.drawn) agentId (first + (index : ℕ) * hour) now)
      .ok inserted.1) tables = (.ok after : Except Raised CycleTables)) :
    after.slots = tables.slots ++
        (List.range count).map (fun index : ℕ => (agentId, first + index * hour, true)) ∧
      after.schedules = tables.schedules := by
  induction count generalizing after with
  | zero =>
      cases h
      simp
  | succ count ih =>
      rw [List.range_succ] at h
      obtain ⟨middle, hmiddle, hlast⟩ := Checks.foldlM_append_eq_ok.mp h
      obtain ⟨hslots, hschedules⟩ := ih hmiddle
      obtain ⟨next, hnext, hlast⟩ := Checks.foldlM_cons_eq_ok.mp hlast
      cases hlast
      obtain ⟨⟨inserted, done⟩, hinserted, hnext⟩ := Checks.bind_eq_ok.mp hnext
      cases hnext
      have hfresh : middle.FreeFrom agentId (first + count * hour) := hfree.append hslots
      obtain ⟨-, hslots', hschedules'⟩ := @insertCycle_slots { middle with drawn := _ } _ _ _
        (hfresh.ne le_rfl) hinserted
      refine ⟨?_, hschedules'.trans hschedules⟩
      rw [hslots', List.range_succ, List.map_append, ← List.append_assoc, ← hslots]
      rfl

/-- The number of slots up to the one before a slot of the grid. -/
theorem slots_count (first : Instant) (count : ℕ) :
    ((first + count * hour - hour - first) / hour + 1).toNat = count := by
  have hspan : first + count * hour - hour - first = ((count : ℤ) - 1) * hour := by ring
  rw [hspan, Int.mul_ediv_cancel _ hour_pos.ne']
  simp

theorem first_le_iff (first : Instant) (count : ℕ) :
    first ≤ first + count * hour - hour ↔ 0 < count := by
  have hspan : first + count * hour - hour = first + ((count : ℤ) - 1) * hour := by ring
  rw [hspan, le_add_iff_nonneg_right, mul_nonneg_iff_of_pos_right hour_pos]
  omega

/-- The slots that a range skips, if there are any. -/
theorem skipMissed_slots {ids : RandomIds} {agentId : String} {first now : Instant} {count : ℕ}
    {after : CycleTables} (hfree : tables.FreeFrom agentId first)
    (h : (if first ≤ first + count * hour - hour then
      tables.recordSkippedRange ids agentId first (first + count * hour - hour) now
      else .ok tables) = .ok after) :
    after.slots = tables.slots ++
        (List.range count).map (fun index : ℕ => (agentId, first + index * hour, true)) ∧
      after.schedules = tables.schedules := by
  split at h
  · unfold recordSkippedRange at h
    rw [slots_count] at h
    exact skipSlots hfree count h
  next hnone =>
    rw [first_le_iff] at hnone
    obtain rfl : count = 0 := by omega
    cases h
    simp

/-- The slots that claiming a schedule skips. -/
theorem skippedRange_slots {terms : LeaseTerms} {now : Instant} {schedule : ScheduleRow}
    {count : ℕ} (hthrough : (if now - latestHourNotAfter now schedule.nextScheduledAt ≤
        terms.missedGrace then latestHourNotAfter now schedule.nextScheduledAt - hour
      else latestHourNotAfter now schedule.nextScheduledAt) =
        schedule.nextScheduledAt + count * hour - hour) :
    (skippedRange terms now schedule).toList.flatMap SkippedRange.slots =
      (List.range count).map fun index : ℕ => schedule.nextScheduledAt + index * hour := by
  unfold skippedRange
  dsimp only
  rw [hthrough]
  by_cases hle : schedule.nextScheduledAt ≤ schedule.nextScheduledAt + count * hour - hour
  · rw [if_pos hle, Option.toList_some, List.flatMap_singleton, SkippedRange.slots, slots_count]
  · rw [if_neg hle, Option.toList_none]
    rw [first_le_iff] at hle
    obtain rfl : count = 0 := by omega
    rfl

theorem next_slot (first : Instant) (count : ℕ) :
    first + count * hour + hour = first + (count + 1 : ℕ) * hour := by
  push_cast
  ring

/-- What claiming a schedule records: `count` slots, one after the other. -/
structure Recorded (schedule : ScheduleRow) (before after : CycleTables)
    (ranges : List SkippedRange) (claims : List CycleClaim) (count : ℕ) : Prop where
  slots : after.slots = before.slots ++
    ((ranges.flatMap SkippedRange.slots).map fun slot => (schedule.agentId, slot, true)) ++
    claims.map fun claim => (schedule.agentId, claim.scheduledAt, false)
  schedules : after.schedules = before.schedules.setNext schedule.agentId
    (schedule.nextScheduledAt + count * hour)
  once : ranges.flatMap SkippedRange.slots ++ claims.map (fun claim => claim.scheduledAt) =
    (List.range count).map fun index : ℕ => schedule.nextScheduledAt + index * hour
  ranges_of : ∀ range ∈ ranges, range.agentId = schedule.agentId
  claims_of : ∀ claim ∈ claims, claim.agentId = schedule.agentId ∧ claim.recovery = false

theorem agentId_of_skippedRange {terms : LeaseTerms} {now : Instant} {schedule : ScheduleRow} :
    ∀ range ∈ (skippedRange terms now schedule).toList, range.agentId = schedule.agentId := by
  intro range hmem
  rw [Option.mem_toList] at hmem
  obtain ⟨-, heq⟩ := Option.ite_none_right_eq_some.mp hmem
  cases heq
  rfl

/-- Claiming a schedule accounts for every slot up to the current hour, once. -/
theorem claimSchedule_recorded {ids : RandomIds} {terms : LeaseTerms} {now : Instant}
    {state next : CycleTables × List CycleClaim} {schedule : ScheduleRow}
    (hle : schedule.nextScheduledAt ≤ now)
    (hfree : state.1.FreeFrom schedule.agentId schedule.nextScheduledAt)
    (h : claimSchedule ids terms now state schedule = .ok next) :
    ∃ (claims : List CycleClaim) (count : ℕ), next.2 = state.2 ++ claims ∧
      Recorded schedule state.1 next.1 (skippedRange terms now schedule).toList claims count := by
  obtain ⟨tables, held⟩ := state
  obtain ⟨whole, hwhole⟩ : ∃ whole : ℕ, (now - schedule.nextScheduledAt) / hour = whole :=
    Int.eq_ofNat_of_zero_le (Int.ediv_nonneg (sub_nonneg.mpr hle) hour_pos.le)
  have hcurrent : latestHourNotAfter now schedule.nextScheduledAt =
      schedule.nextScheduledAt + whole * hour := by rw [latestHourNotAfter, hwhole]
  unfold claimSchedule at h
  dsimp only at h
  by_cases hclaim : now - latestHourNotAfter now schedule.nextScheduledAt ≤ terms.missedGrace
  · -- The current slot is claimed, and those before it are skipped.
    have hrange := @skippedRange_slots terms now schedule whole (by rw [if_pos hclaim, hcurrent])
    rw [hcurrent] at hclaim
    simp only [hcurrent, decide_eq_true hclaim, if_true] at h
    obtain ⟨skipped, hskipped, h⟩ := Checks.bind_eq_ok.mp h
    obtain ⟨hslots, hschedules⟩ := skipMissed_slots hfree hskipped
    obtain ⟨⟨inserted, done⟩, hinserted, h⟩ := Checks.bind_eq_ok.mp h
    have hfree' := hfree.append hslots
    obtain ⟨rfl, hslots', hschedules'⟩ := insertCycle_slots (hfree'.ne le_rfl) hinserted
    cases h
    refine ⟨_, whole + 1, rfl, ?_⟩
    constructor
    case slots =>
      have hafter : inserted.slots = skipped.slots ++
          [(schedule.agentId, schedule.nextScheduledAt + whole * hour, false)] := hslots'
      change inserted.slots = _
      rw [hafter, hslots, hrange, List.map_map]
      rfl
    case schedules =>
      have hnext : inserted.schedules = tables.schedules := hschedules'.trans hschedules
      change inserted.schedules.setNext _ _ = _
      rw [hnext, next_slot]
    case once =>
      rw [hrange, List.range_succ, List.map_append, List.map_singleton, List.map_singleton]
    case ranges_of => exact agentId_of_skippedRange
    case claims_of =>
      intro claim hmem
      obtain rfl := List.mem_singleton.mp hmem
      exact ⟨rfl, rfl⟩
  · -- The current slot is too old, and is skipped too.
    have hrange := @skippedRange_slots terms now schedule (whole + 1) (by
      rw [if_neg hclaim, hcurrent, ← next_slot, add_sub_cancel_right])
    rw [hcurrent] at hclaim
    simp only [hcurrent, decide_eq_false hclaim, Bool.false_eq_true, if_false] at h
    obtain ⟨skipped, hskipped, h⟩ := Checks.bind_eq_ok.mp h
    have hthrough : schedule.nextScheduledAt + whole * hour =
        schedule.nextScheduledAt + (whole + 1 : ℕ) * hour - hour := by
      rw [← next_slot, add_sub_cancel_right]
    rw [hthrough] at hskipped
    obtain ⟨hslots, hschedules⟩ := skipMissed_slots hfree hskipped
    cases h
    refine ⟨[], whole + 1, (List.append_nil _).symm, ?_⟩
    constructor
    case slots =>
      change skipped.slots = _
      rw [hslots, hrange, List.map_map, List.map_nil, List.append_nil]
      rfl
    case schedules =>
      change skipped.schedules.setNext _ _ = _
      rw [hschedules, next_slot]
    case once => rw [hrange, List.map_nil, List.append_nil]
    case ranges_of => exact agentId_of_skippedRange
    case claims_of => exact fun _ hmem => by cases hmem

/-! ## The slots of one agent -/

end CycleTables

/-- The slots of an agent that are skipped, or that are not. -/
def slotsOf (agentId : String) (skipped : Bool) (slots : List (String × Instant × Bool)) :
    List Instant :=
  (slots.filter fun slot => decide (slot.1 = agentId) && decide (slot.2.2 = skipped)).map
    fun slot => slot.2.1

/-- The slots of an agent in ranges that are skipped. -/
def skippedSlots (agentId : String) (ranges : List SkippedRange) : List Instant :=
  (ranges.filter fun range => decide (range.agentId = agentId)).flatMap SkippedRange.slots

/-- The slots of an agent that are claimed; a recovery takes no slot. -/
def claimedSlots (agentId : String) (claims : List CycleClaim) : List Instant :=
  (claims.filter fun claim => decide (claim.agentId = agentId) && !claim.recovery).map
    fun claim => claim.scheduledAt

theorem slotsOf_append (agentId : String) (skipped : Bool)
    (first second : List (String × Instant × Bool)) :
    slotsOf agentId skipped (first ++ second) =
      slotsOf agentId skipped first ++ slotsOf agentId skipped second := by
  rw [slotsOf, List.filter_append, List.map_append, slotsOf, slotsOf]

theorem skippedSlots_append (agentId : String) (first second : List SkippedRange) :
    skippedSlots agentId (first ++ second) =
      skippedSlots agentId first ++ skippedSlots agentId second := by
  rw [skippedSlots, List.filter_append, List.flatMap_append, skippedSlots, skippedSlots]

theorem claimedSlots_append (agentId : String) (first second : List CycleClaim) :
    claimedSlots agentId (first ++ second) =
      claimedSlots agentId first ++ claimedSlots agentId second := by
  rw [claimedSlots, List.filter_append, List.map_append, claimedSlots, claimedSlots]

/-- Slots that are all of one agent, and all skipped or all claimed. -/
theorem slotsOf_map {α : Type} (agentId other : String) (skipped flag : Bool) (items : List α)
    (slot : α → Instant) :
    slotsOf agentId skipped (items.map fun item => (other, slot item, flag)) =
      if other = agentId ∧ flag = skipped then items.map slot else [] := by
  unfold slotsOf
  rw [List.filter_map, List.map_map]
  split
  next h =>
    rw [List.filter_eq_self.mpr]
    · rfl
    · intro item _
      simpa using h
  next h =>
    rw [List.filter_eq_nil_iff.mpr]
    · rfl
    · intro item _
      simpa using h

theorem skippedSlots_of {agentId other : String} {ranges : List SkippedRange}
    (h : ∀ range ∈ ranges, range.agentId = other) :
    skippedSlots agentId ranges =
      if other = agentId then ranges.flatMap SkippedRange.slots else [] := by
  unfold skippedSlots
  split
  next hsame =>
    rw [List.filter_eq_self.mpr]
    intro range hmem
    rw [h range hmem, hsame, decide_eq_true rfl]
  next hne =>
    rw [List.filter_eq_nil_iff.mpr, List.flatMap_nil]
    intro range hmem
    rw [h range hmem, decide_eq_true_iff]
    exact hne

theorem claimedSlots_of {agentId other : String} {claims : List CycleClaim}
    (h : ∀ claim ∈ claims, claim.agentId = other ∧ claim.recovery = false) :
    claimedSlots agentId claims =
      if other = agentId then claims.map (fun claim => claim.scheduledAt) else [] := by
  unfold claimedSlots
  split
  next hsame =>
    rw [List.filter_eq_self.mpr]
    intro claim hmem
    obtain ⟨hagent, hrecovery⟩ := h claim hmem
    rw [hagent, hrecovery, hsame, decide_eq_true rfl]
    rfl
  next hne =>
    rw [List.filter_eq_nil_iff.mpr, List.map_nil]
    intro claim hmem
    simp [(h claim hmem).1, hne]

/-- Recoveries take no slots. -/
theorem claimedSlots_of_recovery {claims : List CycleClaim} (agentId : String)
    (h : ∀ claim ∈ claims, claim.recovery = true) : claimedSlots agentId claims = [] := by
  unfold claimedSlots
  rw [List.filter_eq_nil_iff.mpr, List.map_nil]
  intro claim hmem
  simp [h claim hmem]

namespace CycleTables

/-- An agent that was due first at `start` has had `count` slots: each has a row, and was
claimed or is in one of the ranges that were skipped, once. -/
structure Accounted (agentId : String) (start : Instant) (ranges : List SkippedRange)
    (claims : List CycleClaim) (count : ℕ) (tables : CycleTables) : Prop where
  next : tables.schedules.next agentId = some (start + count * hour)
  skipped : slotsOf agentId true tables.slots = skippedSlots agentId ranges
  claimed : slotsOf agentId false tables.slots = claimedSlots agentId claims
  once : (skippedSlots agentId ranges ++ claimedSlots agentId claims).Perm
    ((List.range count).map fun index : ℕ => start + index * hour)

/-- No slots are taken from the next one on. -/
def NextFree (tables : CycleTables) : Prop :=
  ∀ agentId next, tables.schedules.next agentId = some next → tables.FreeFrom agentId next

/-- What is recorded goes on with the slots of each agent. -/
structure Continues (ranges : List SkippedRange) (claims : List CycleClaim)
    (before after : CycleTables) : Prop where
  nextFree : before.NextFree → after.NextFree
  accounted : ∀ agentId start seen granted count,
    Accounted agentId start seen granted count before →
      ∃ grown, Accounted agentId start (seen ++ ranges) (granted ++ claims) (count + grown) after

theorem Continues.of_slots {claims : List CycleClaim} {before after : CycleTables}
    (hslots : after.slots = before.slots) (hschedules : after.schedules = before.schedules)
    (hclaims : ∀ claim ∈ claims, claim.recovery = true) : Continues [] claims before after where
  nextFree h agentId next hnext := by
    rw [hschedules] at hnext
    unfold FreeFrom
    rw [hslots]
    exact h agentId next hnext
  accounted agentId start seen granted count h := by
    refine ⟨0, ?_⟩
    have hnone := claimedSlots_of_recovery agentId hclaims
    constructor
    case next =>
      rw [hschedules, h.next]
      rfl
    case skipped => rw [hslots, h.skipped, List.append_nil]
    case claimed => rw [hslots, h.claimed, claimedSlots_append, hnone, List.append_nil]
    case once =>
      rw [List.append_nil, claimedSlots_append, hnone, List.append_nil]
      exact h.once

theorem Continues.trans {first second third : CycleTables} {ranges later : List SkippedRange}
    {claims granted : List CycleClaim} (h : Continues ranges claims first second)
    (h' : Continues later granted second third) :
    Continues (ranges ++ later) (claims ++ granted) first third where
  nextFree hfree := h'.nextFree (h.nextFree hfree)
  accounted agentId start seen before count haccounted := by
    obtain ⟨grown, haccounted⟩ := h.accounted agentId start seen before count haccounted
    obtain ⟨more, haccounted⟩ := h'.accounted agentId start _ _ _ haccounted
    refine ⟨grown + more, ?_⟩
    rw [← List.append_assoc, ← List.append_assoc, ← Nat.add_assoc]
    exact haccounted

/-- The slots of a grid up to one, and on from there. -/
theorem slots_add (start : Instant) (count grown : ℕ) :
    ((List.range count).map fun index : ℕ => start + index * hour) ++
        ((List.range grown).map fun index : ℕ => start + count * hour + index * hour) =
      (List.range (count + grown)).map fun index : ℕ => start + index * hour := by
  rw [List.range_add, List.map_append, List.map_map]
  congr 1
  apply List.map_congr_left
  intro index _
  rw [Function.comp_apply]
  push_cast
  ring

section Recorded

variable {schedule : ScheduleRow} {before after : CycleTables} {ranges : List SkippedRange}
  {claims : List CycleClaim} {count : ℕ}

theorem Recorded.mem_slots (h : Recorded schedule before after ranges claims count)
    {slot : String × Instant × Bool} (hmem : slot ∈ after.slots) :
    slot ∈ before.slots ∨ slot.1 = schedule.agentId ∧
      slot.2.1 < schedule.nextScheduledAt + count * hour := by
  rw [h.slots, List.append_assoc, List.mem_append, List.mem_append] at hmem
  have htaken : ∀ taken ∈ ranges.flatMap SkippedRange.slots ++
      claims.map fun claim => claim.scheduledAt, taken < schedule.nextScheduledAt + count * hour := by
    intro taken htaken
    rw [h.once] at htaken
    obtain ⟨index, hindex, rfl⟩ := List.mem_map.mp htaken
    have hlt : (index : ℤ) < count := by exact_mod_cast List.mem_range.mp hindex
    exact Int.add_lt_add_left (mul_lt_mul_of_pos_right hlt hour_pos) _
  rcases hmem with hmem | hmem | hmem
  · exact Or.inl hmem
  · obtain ⟨taken, hrange, rfl⟩ := List.mem_map.mp hmem
    exact Or.inr ⟨rfl, htaken taken (List.mem_append_left _ hrange)⟩
  · obtain ⟨claim, hclaim, rfl⟩ := List.mem_map.mp hmem
    exact Or.inr ⟨rfl, htaken _ (List.mem_append_right _ (List.mem_map.mpr ⟨claim, hclaim, rfl⟩))⟩

theorem Recorded.next (h : Recorded schedule before after ranges claims count) (agentId : String) :
    after.schedules.next agentId = (before.schedules.next agentId).map fun next =>
      if agentId = schedule.agentId then schedule.nextScheduledAt + count * hour else next := by
  rw [h.schedules]
  exact ScheduleTable.next_setNext

theorem Recorded.nextFree (h : Recorded schedule before after ranges claims count)
    (hnext : before.schedules.next schedule.agentId = some schedule.nextScheduledAt)
    (hfree : before.NextFree) : after.NextFree := by
  intro agentId next hnext' slot hmem hagent
  rw [h.next, Option.map_eq_some_iff] at hnext'
  obtain ⟨old, hold, hnext'⟩ := hnext'
  have hbefore := hfree agentId old hold slot
  by_cases hsame : agentId = schedule.agentId
  · subst hsame
    rw [hnext] at hold
    obtain rfl := Option.some.inj hold
    rw [if_pos rfl] at hnext'
    rw [← hnext']
    have hnonneg : 0 ≤ (count : ℤ) * hour := mul_nonneg (Int.natCast_nonneg _) hour_pos.le
    rcases h.mem_slots hmem with hmem | ⟨-, hlt⟩
    · exact (hbefore hmem hagent).trans_le (Int.le_add_of_nonneg_right hnonneg)
    · exact hlt
  · rw [if_neg hsame] at hnext'
    rw [← hnext']
    rcases h.mem_slots hmem with hmem | ⟨hother, -⟩
    · exact hbefore hmem hagent
    · exact absurd (hagent.symm.trans hother) hsame

/-- The slots of an agent after its schedule, or another one, is claimed. -/
theorem Recorded.slotsOf_eq (h : Recorded schedule before after ranges claims count)
    (agentId : String) :
    slotsOf agentId true after.slots =
        slotsOf agentId true before.slots ++ skippedSlots agentId ranges ∧
      slotsOf agentId false after.slots =
        slotsOf agentId false before.slots ++ claimedSlots agentId claims := by
  rw [h.slots, slotsOf_append, slotsOf_append, slotsOf_append, slotsOf_append,
    skippedSlots_of h.ranges_of, claimedSlots_of h.claims_of]
  constructor
  · rw [slotsOf_map _ _ _ _ _ fun slot => slot, slotsOf_map, List.map_id']
    simp
  · rw [slotsOf_map _ _ _ _ _ fun slot => slot, slotsOf_map, List.map_id']
    simp

/-- A schedule that is due goes on from the slot it points at. -/
theorem Recorded.continues (h : Recorded schedule before after ranges claims count)
    (hnext : before.schedules.next schedule.agentId = some schedule.nextScheduledAt) :
    Continues ranges claims before after where
  nextFree := h.nextFree hnext
  accounted agentId start seen granted had haccounted := by
    obtain ⟨hskipped, hclaimed⟩ := h.slotsOf_eq agentId
    have hperm : (skippedSlots agentId (seen ++ ranges) ++
        claimedSlots agentId (granted ++ claims)).Perm
        (((List.range had).map fun index : ℕ => start + index * hour) ++
          (skippedSlots agentId ranges ++ claimedSlots agentId claims)) := by
      rw [skippedSlots_append, claimedSlots_append, List.append_assoc]
      have hswap := List.perm_append_comm_assoc (skippedSlots agentId ranges)
        (claimedSlots agentId granted) (claimedSlots agentId claims)
      apply (hswap.append_left (skippedSlots agentId seen)).trans
      rw [← List.append_assoc]
      exact haccounted.once.append_right _
    by_cases hsame : schedule.agentId = agentId
    · -- The agent of the schedule: its slots go on.
      subst hsame
      have hstart : start + had * hour = schedule.nextScheduledAt :=
        Option.some.inj (haccounted.next.symm.trans hnext)
      refine ⟨count, ?_, ?_, ?_, ?_⟩
      · rw [h.next, hnext, Option.map_some, if_pos rfl, ← hstart]
        push_cast
        ring_nf
      · rw [hskipped, haccounted.skipped, skippedSlots_append]
      · rw [hclaimed, haccounted.claimed, claimedSlots_append]
      · rw [← slots_add, hstart]
        rw [skippedSlots_of h.ranges_of, claimedSlots_of h.claims_of, if_pos rfl, if_pos rfl,
          h.once] at hperm
        exact hperm
    · refine ⟨0, ?_, ?_, ?_, ?_⟩
      · rw [h.next, haccounted.next, Option.map_some, if_neg (Ne.symm hsame), Nat.add_zero]
      · rw [hskipped, haccounted.skipped, skippedSlots_append]
      · rw [hclaimed, haccounted.claimed, claimedSlots_append]
      · rw [skippedSlots_of h.ranges_of, claimedSlots_of h.claims_of, if_neg hsame, if_neg hsame,
          List.append_nil, List.append_nil] at hperm
        exact hperm

end Recorded

/-! ## Transactions -/

/-- The schedules that are due are claimed one after the other. -/
theorem foldlM_claimSchedule_continues {ids : RandomIds} {terms : LeaseTerms} {now : Instant}
    {due : List ScheduleRow} {state final : CycleTables × List CycleClaim}
    (unique : (due.map fun schedule => schedule.agentId).Nodup)
    (hdue : ∀ schedule ∈ due, schedule.nextScheduledAt ≤ now ∧
      state.1.schedules.next schedule.agentId = some schedule.nextScheduledAt)
    (hfree : state.1.NextFree)
    (h : due.foldlM (claimSchedule ids terms now) state = .ok final) :
    ∃ claims, final.2 = state.2 ++ claims ∧
      Continues (due.filterMap (skippedRange terms now)) claims state.1 final.1 := by
  induction due generalizing state with
  | nil =>
      cases h
      exact ⟨[], (List.append_nil _).symm, .of_slots rfl rfl fun _ hmem => by cases hmem⟩
  | cons schedule due ih =>
      obtain ⟨next, hnext, hrest⟩ := Checks.foldlM_cons_eq_ok.mp h
      obtain ⟨hle, hat⟩ := hdue schedule List.mem_cons_self
      obtain ⟨claims, count, hclaims, hrecorded⟩ :=
        claimSchedule_recorded hle (hfree _ _ hat) hnext
      rw [List.map_cons, List.nodup_cons] at unique
      obtain ⟨later, hlater, hcontinues⟩ := ih unique.2 (by
        intro other hmem
        obtain ⟨hle', hat'⟩ := hdue other (List.mem_cons_of_mem _ hmem)
        refine ⟨hle', ?_⟩
        rw [hrecorded.next, hat', Option.map_some, if_neg]
        intro hsame
        exact unique.1 (List.mem_map.mpr ⟨other, hmem, hsame⟩))
        (hrecorded.nextFree hat hfree) hrest
      refine ⟨claims ++ later, ?_, ?_⟩
      · rw [hlater, hclaims, List.append_assoc]
      · have hboth := (hrecorded.continues hat).trans hcontinues
        have hranges : (schedule :: due).filterMap (skippedRange terms now) =
            (skippedRange terms now schedule).toList ++
              due.filterMap (skippedRange terms now) := by
          rw [List.filterMap_cons]
          cases skippedRange terms now schedule <;> rfl
        rw [hranges]
        exact hboth

theorem claimDueCycles_continues {ids : RandomIds} {scheduling : Scheduling} {terms : LeaseTerms}
    {now : Datetime} {after : CycleTables} {claims : List CycleClaim} (hfree : tables.NextFree)
    (h : tables.claimDueCycles ids scheduling terms now = .ok (after, claims)) :
    Continues (tables.skippedRanges (.claimDue scheduling terms now)) claims tables after := by
  obtain ⟨-, h⟩ := Checks.ite_error_eq_ok.mp h
  obtain ⟨-, h⟩ := Checks.ite_error_eq_ok.mp h
  unfold skippedRanges
  dsimp only
  split at h
  next hnone =>
    cases h
    rw [if_pos hnone]
    exact .of_slots rfl rfl fun _ hmem => by cases hmem
  next hsome =>
    rw [if_neg hsome]
    obtain ⟨taken, hperm, hsub⟩ : ((tables.dueSchedules scheduling now.instant).take
        terms.limit.toNat).Subperm tables.schedules.rows :=
      ((List.take_sublist _ _).subperm.trans (List.perm_insertionSort _ _).subperm).trans
        List.filter_sublist.subperm
    have hmem {schedule : ScheduleRow} (hin : schedule ∈ (tables.dueSchedules scheduling
        now.instant).take terms.limit.toNat) : schedule ∈ tables.schedules.rows :=
      hsub.subset (hperm.mem_iff.mpr hin)
    obtain ⟨granted, hgranted, hcontinues⟩ := @foldlM_claimSchedule_continues _ _ _ _ (tables, []) _
      ((hperm.map _).nodup_iff.mp ((hsub.map _).nodup tables.schedules.unique)) (by
        intro schedule hin
        refine ⟨?_, ScheduleTable.next_of_mem (hmem hin)⟩
        have hdue := (List.mem_insertionSort _).mp (List.mem_of_mem_take hin)
        rw [List.mem_filter] at hdue
        simp only [Bool.and_eq_true, decide_eq_true_eq] at hdue
        exact hdue.2.1.1.1.2) hfree h
    rw [List.nil_append] at hgranted
    cases hgranted
    exact hcontinues

theorem failFreeze_slots (tables : CycleTables) (cycleId : String) (now : Instant) :
    (tables.failFreeze cycleId now).schedules = tables.schedules := by
  unfold failFreeze
  split
  · split <;> rfl
  · rfl

/-- Recovering a cycle takes no slot. -/
theorem recoverCycle_slots {ids : RandomIds} {leaseOwner : String} {leaseDuration : ℤ}
    {now : Instant} {state next : CycleTables × List CycleClaim} {row : AgentCycleRow}
    (hfound : state.1.cycleRow row.id = some row) (hstatus : row.status ≠ .skipped)
    (h : recoverCycle ids leaseOwner leaseDuration now state row = .ok next) :
    next.1.slots = state.1.slots ∧ next.1.schedules = state.1.schedules ∧
      (∃ claim : CycleClaim, next.2 = state.2 ++ [claim] ∧ claim.recovery = true) ∧
      ∀ other, other ≠ row.id → next.1.cycleRow other = state.1.cycleRow other := by
  obtain ⟨-, hothers⟩ := recoverCycle_schedules hfound h
  obtain ⟨tables, held⟩ := state
  obtain ⟨updated, hupdated, h⟩ := Checks.bind_eq_ok.mp h
  cases h
  obtain ⟨-, hcycles, -, -⟩ := failFreeze_spec { tables with drawn := tables.drawn + 1 } row.id now
  have hschedules := failFreeze_slots { tables with drawn := tables.drawn + 1 } row.id now
  have hfound' : ({ tables with drawn := tables.drawn + 1 }.failFreeze row.id now).cycleRow
      row.id = some row := by
    rw [cycleRow, hcycles]
    exact hfound
  obtain ⟨hslots, hkept⟩ := updateCycle_slots hupdated hfound' (by simp [CycleRowFields.slot, hstatus])
  refine ⟨?_, hkept.trans hschedules, ⟨_, rfl, rfl⟩, hothers⟩
  rw [hslots, slots, hcycles]
  rfl

theorem foldlM_recoverCycle_slots {ids : RandomIds} {leaseOwner : String} {leaseDuration : ℤ}
    {now : Instant} {rows : List AgentCycleRow} {state final : CycleTables × List CycleClaim}
    (unique : (rows.map AgentCycleRow.key).Nodup)
    (hfound : ∀ row ∈ rows, state.1.cycleRow row.id = some row ∧ row.status ≠ .skipped)
    (h : rows.foldlM (recoverCycle ids leaseOwner leaseDuration now) state = .ok final) :
    final.1.slots = state.1.slots ∧ final.1.schedules = state.1.schedules ∧
      ∃ claims, final.2 = state.2 ++ claims ∧ ∀ claim ∈ claims, claim.recovery = true := by
  induction rows generalizing state with
  | nil =>
      cases h
      exact ⟨rfl, rfl, [], (List.append_nil _).symm, by simp⟩
  | cons row rows ih =>
      obtain ⟨next, hnext, hrest⟩ := Checks.foldlM_cons_eq_ok.mp h
      obtain ⟨hrow, hstatus⟩ := hfound row List.mem_cons_self
      obtain ⟨hslots, hschedules, ⟨claim, hclaim, hrecovery⟩, hothers⟩ :=
        recoverCycle_slots hrow hstatus hnext
      rw [List.map_cons, List.nodup_cons] at unique
      obtain ⟨hslots', hschedules', claims, hclaims, hrecoveries⟩ := ih unique.2 (by
        intro other hmem
        obtain ⟨hother, hstatus'⟩ := hfound other (List.mem_cons_of_mem _ hmem)
        refine ⟨?_, hstatus'⟩
        rw [hothers, hother]
        intro hsame
        exact unique.1 (List.mem_map.mpr ⟨other, hmem, hsame⟩)) hrest
      refine ⟨hslots'.trans hslots, hschedules'.trans hschedules, claim :: claims, ?_, ?_⟩
      · rw [hclaims, hclaim, List.append_assoc, List.singleton_append]
      · exact List.forall_mem_cons.mpr ⟨hrecovery, hrecoveries⟩

theorem recoverExpiredCycles_continues {ids : RandomIds} {scheduling : Scheduling}
    {terms : LeaseTerms} {staleAfter : Option ℤ} {now : Datetime} {after : CycleTables}
    {claims : List CycleClaim}
    (h : tables.recoverExpiredCycles ids scheduling terms staleAfter now = .ok (after, claims)) :
    Continues [] claims tables after := by
  obtain ⟨-, h⟩ := Checks.ite_error_eq_ok.mp h
  split at h
  · cases h
    exact .of_slots rfl rfl fun _ hmem => by cases hmem
  · obtain ⟨taken, hperm, hsub⟩ : ((tables.recoverableCycles scheduling now.instant
        staleAfter).take terms.limit.toNat).Subperm tables.cycles :=
      ((List.take_sublist _ _).subperm.trans (List.perm_insertionSort _ _).subperm).trans
        List.filter_sublist.subperm
    obtain ⟨hslots, hschedules, granted, hgranted, hrecovery⟩ :=
      @foldlM_recoverCycle_slots _ _ _ _ _ (tables, []) _
        ((hperm.map AgentCycleRow.key).nodup_iff.mp ((hsub.map AgentCycleRow.key).nodup tables.cycles_unique))
        (by
          intro row hin
          have hrecoverable := (List.mem_insertionSort _).mp (List.mem_of_mem_take hin)
          rw [List.mem_filter] at hrecoverable
          simp only [Bool.and_eq_true, Bool.or_eq_true, decide_eq_true_eq] at hrecoverable
          refine ⟨?_, ?_⟩
          · apply (KeyedList.lookup_eq_some_iff tables.cycles_unique).mpr
            exact ⟨hsub.subset (hperm.mem_iff.mpr hin), rfl⟩
          · rcases hrecoverable.2.1.1.1 with hrunning | hinterrupted
            · simp [hrunning]
            · simp [hinterrupted]) h
    rw [List.nil_append] at hgranted
    cases hgranted
    exact .of_slots hslots hschedules hrecovery

/-- What is done under a claim takes no slot. -/
def SameSlots (before after : CycleTables) : Prop :=
  after.slots = before.slots ∧ after.schedules = before.schedules

variable {claim : CycleClaim} {after : CycleTables}

theorem renewLease_slots {now : Datetime} {duration : ℤ}
    (h : tables.renewLease claim now duration = .ok after) : SameSlots tables after := by
  obtain ⟨moment, -, h⟩ := Checks.bind_eq_ok.mp h
  obtain ⟨-, h⟩ := Checks.ite_error_eq_ok.mp h
  obtain ⟨row, hleased, h⟩ := Checks.bind_eq_ok.mp h
  obtain ⟨hrow, -, -, -⟩ := assertLease_eq_ok hleased
  have hid := id_of_cycleRow tables hrow
  rw [← hid] at hrow
  exact updateCycle_slots h hrow rfl

theorem beginStage_slots {stage : CycleStage} {inputFingerprint : Sha256} {now : Datetime}
    (h : tables.beginStage claim stage inputFingerprint now = .ok after) :
    SameSlots tables after := by
  obtain ⟨moment, -, h⟩ := Checks.bind_eq_ok.mp h
  obtain ⟨leased, -, h⟩ := Checks.bind_eq_ok.mp h
  split at h
  · cases h
    exact ⟨rfl, rfl⟩
  · obtain ⟨-, h⟩ := Checks.ite_error_eq_ok.mp h
    split at h <;> cases h <;> exact ⟨rfl, rfl⟩

theorem completeStage_slots {fromisoformat : String → Option Datetime} {stage : CycleStage}
    {inputFingerprint : Sha256} {result : StageResult stage} {now : Datetime}
    {registered : Except Raised Unit}
    (h : tables.completeStage fromisoformat claim inputFingerprint result now registered =
      .ok after) : SameSlots tables after := by
  obtain ⟨moment, -, h⟩ := Checks.bind_eq_ok.mp h
  obtain ⟨leased, -, h⟩ := Checks.bind_eq_ok.mp h
  split at h
  · cases h
  next row hrow =>
    obtain ⟨_, -, h⟩ := Checks.bind_eq_ok.mp h
    obtain ⟨leased', hleased', h⟩ := Checks.bind_eq_ok.mp h
    obtain ⟨hrow', -, -, -⟩ := assertLease_eq_ok hleased'
    split at h
    · obtain ⟨cutoff, -, h⟩ := Checks.bind_eq_ok.mp h
      unfold publishCutoff at h
      split at h
      · have hid := id_of_cycleRow _ hrow'
        rw [← hid] at hrow'
        obtain ⟨hslots, hschedules⟩ := updateCycle_slots h hrow' rfl
        exact ⟨hslots, hschedules⟩
      · cases h
    · cases h
      exact ⟨rfl, rfl⟩

theorem completeCycle_slots {now : Datetime} {summary : JsonObject}
    (h : tables.completeCycle claim now summary = .ok after) : SameSlots tables after := by
  obtain ⟨moment, -, h⟩ := Checks.bind_eq_ok.mp h
  obtain ⟨status, -, h⟩ := Checks.bind_eq_ok.mp h
  obtain ⟨row, hleased, h⟩ := Checks.bind_eq_ok.mp h
  obtain ⟨hrow, hrunning, -, -⟩ := assertLease_eq_ok hleased
  have hid := id_of_cycleRow tables hrow
  rw [← hid] at hrow
  exact updateCycle_slots h hrow (by simp [CycleRowFields.slot, hrunning])

theorem failCycle_slots {now : Datetime} {reason : String}
    (h : tables.failCycle claim now reason = .ok after) : SameSlots tables after := by
  obtain ⟨moment, -, h⟩ := Checks.bind_eq_ok.mp h
  split at h
  · cases h
    exact ⟨rfl, rfl⟩
  next row hrow =>
    obtain ⟨hrow, htest⟩ := Option.filter_eq_some_iff.mp hrow
    simp only [Bool.and_eq_true, decide_eq_true_eq] at htest
    obtain ⟨updated, hupdated, h⟩ := Checks.bind_eq_ok.mp h
    cases h
    have hid := id_of_cycleRow tables hrow
    rw [← hid] at hrow
    have hsame : (if row.dataCutoff = none then CycleStatus.interrupted else .failed) ≠
        .skipped := by split <;> simp
    have hslots : SameSlots tables updated :=
      updateCycle_slots hupdated hrow (by simp [CycleRowFields.slot, htest.1, hsame])
    exact hslots

/-- What a transaction records goes on with the slots of each agent. -/
theorem transact_continues {ids : RandomIds} {fromisoformat : String → Option Datetime}
    {request : CycleCall} {claims : List CycleClaim} (hfree : tables.NextFree)
    (h : tables.transact ids fromisoformat request = .ok (after, claims)) :
    Continues (tables.skippedRanges request) claims tables after := by
  have hsame (hslots : SameSlots tables after) : Continues [] [] tables after :=
    .of_slots hslots.1 hslots.2 fun _ hmem => by cases hmem
  cases request with
  | claimDue scheduling terms now => exact claimDueCycles_continues hfree h
  | recoverExpired scheduling terms staleAfter now => exact recoverExpiredCycles_continues h
  | renewLease claim now duration =>
      obtain ⟨written, hwritten, heq⟩ := Checks.map_eq_ok.mp h
      cases heq
      exact hsame (renewLease_slots hwritten)
  | beginStage claim stage inputFingerprint now =>
      obtain ⟨written, hwritten, heq⟩ := Checks.map_eq_ok.mp h
      cases heq
      exact hsame (beginStage_slots hwritten)
  | completeStage claim stage inputFingerprint result now registered =>
      obtain ⟨written, hwritten, heq⟩ := Checks.map_eq_ok.mp h
      cases heq
      exact hsame (completeStage_slots hwritten)
  | failCycle claim now reason =>
      obtain ⟨written, hwritten, heq⟩ := Checks.map_eq_ok.mp h
      cases heq
      exact hsame (failCycle_slots hwritten)
  | completeCycle claim now summary =>
      obtain ⟨written, hwritten, heq⟩ := Checks.map_eq_ok.mp h
      cases heq
      exact hsame (completeCycle_slots hwritten)

/-! ## Runs -/

/-- A transaction with the ranges it skips and the claims it grants. -/
def record (ids : RandomIds) (fromisoformat : String → Option Datetime) (tables : CycleTables)
    (request : CycleCall) : CycleTables × List SkippedRange × List CycleClaim :=
  match tables.call ids fromisoformat request with
  | (after, .ok claims) => (after, tables.skippedRanges request, claims)
  | (after, .error _) => (after, [], [])

/-- The ranges that a run skips. -/
def skippedIn (trace : List (CycleCall × List SkippedRange × List CycleClaim)) :
    List SkippedRange :=
  trace.flatMap fun recorded => recorded.2.1

/-- The claims that a run grants. -/
def grantedIn (trace : List (CycleCall × List SkippedRange × List CycleClaim)) :
    List CycleClaim :=
  trace.flatMap fun recorded => recorded.2.2

theorem record_continues {ids : RandomIds} {fromisoformat : String → Option Datetime}
    (hfree : tables.NextFree) (request : CycleCall) :
    Continues (tables.record ids fromisoformat request).2.1
      (tables.record ids fromisoformat request).2.2 tables
      (tables.record ids fromisoformat request).1 := by
  unfold record
  cases hdone : tables.transact ids fromisoformat request with
  | ok done =>
      rw [call_ok hdone]
      exact transact_continues hfree hdone
  | error error =>
      rw [call_error hdone]
      exact .of_slots rfl rfl fun _ hmem => by cases hmem

/-- A run goes on with the slots of each agent. -/
theorem continues_run {ids : RandomIds} {fromisoformat : String → Option Datetime}
    (hfree : tables.NextFree) (calls : List CycleCall) :
    (Runs.final (record ids fromisoformat) tables calls).NextFree ∧
      Continues (skippedIn (Runs.trace (record ids fromisoformat) tables calls))
        (grantedIn (Runs.trace (record ids fromisoformat) tables calls)) tables
        (Runs.final (record ids fromisoformat) tables calls) := by
  refine Runs.final_invariant (record ids fromisoformat)
    (fun trace after => after.NextFree ∧ Continues (skippedIn trace) (grantedIn trace) tables after)
    ⟨hfree, .of_slots rfl rfl fun _ hmem => by cases hmem⟩ ?_ calls
  intro seen before request ⟨hbefore, hcontinues⟩
  have hstep := @record_continues before ids fromisoformat hbefore request
  unfold skippedIn grantedIn at *
  rw [List.flatMap_append, List.flatMap_singleton, List.flatMap_append, List.flatMap_singleton]
  exact ⟨hstep.nextFree hbefore, hcontinues.trans hstep⟩

/-- Every slot of an agent before its next one has been claimed, or skipped within one range,
and this once, at whatever times the workers claim and whatever else they do; and the next
slot is one of the hourly grid, which never comes before an earlier one. -/
theorem slots_accounted (ids : RandomIds) (fromisoformat : String → Option Datetime)
    (schedules : ScheduleTable) {schedule : ScheduleRow} (h : schedule ∈ schedules.rows)
    (calls later : List CycleCall) :
    ∃ count grown,
      Accounted schedule.agentId schedule.nextScheduledAt
        (skippedIn (Runs.trace (record ids fromisoformat) (unscheduled schedules) calls))
        (grantedIn (Runs.trace (record ids fromisoformat) (unscheduled schedules) calls)) count
        (Runs.final (record ids fromisoformat) (unscheduled schedules) calls) ∧
      Accounted schedule.agentId schedule.nextScheduledAt
        (skippedIn (Runs.trace (record ids fromisoformat) (unscheduled schedules) (calls ++ later)))
        (grantedIn (Runs.trace (record ids fromisoformat) (unscheduled schedules) (calls ++ later)))
        (count + grown)
        (Runs.final (record ids fromisoformat) (unscheduled schedules) (calls ++ later)) := by
  have hfree : (unscheduled schedules).NextFree := fun _ _ _ _ hmem => by cases hmem
  have hstart : Accounted schedule.agentId schedule.nextScheduledAt [] [] 0
      (unscheduled schedules) := by
    refine ⟨?_, rfl, rfl, .nil⟩
    have hnext := ScheduleTable.next_of_mem h
    rw [Nat.cast_zero, zero_mul, add_zero]
    exact hnext
  obtain ⟨hfree', hcontinues⟩ := @continues_run _ ids fromisoformat hfree calls
  obtain ⟨count, hcount⟩ := hcontinues.accounted _ _ _ _ _ hstart
  obtain ⟨grown, hgrown⟩ :=
    (@continues_run _ ids fromisoformat hfree' later).2.accounted _ _ _ _ _ hcount
  rw [List.nil_append, List.nil_append, Nat.zero_add] at hcount hgrown
  refine ⟨count, grown, hcount, ?_⟩
  rw [Runs.final_append, Runs.trace_append, skippedIn, grantedIn, List.flatMap_append,
    List.flatMap_append]
  exact hgrown

end CycleTables

namespace Sample

/-- An hour late, the slot that was missed is skipped and the current one is claimed. -/
def claimedLate : List CycleCall := [.claimDue scheduling leaseTerms nextHour]

theorem hourly_accounted : ∃ count grown,
    CycleTables.Accounted "agent" moment.instant
      (CycleTables.skippedIn (Runs.trace (CycleTables.record randomIds fun _ => none)
        (CycleTables.unscheduled hourly) claimedLate))
      (CycleTables.grantedIn (Runs.trace (CycleTables.record randomIds fun _ => none)
        (CycleTables.unscheduled hourly) claimedLate)) count
      (Runs.final (CycleTables.record randomIds fun _ => none) (CycleTables.unscheduled hourly)
        claimedLate) ∧
    CycleTables.Accounted "agent" moment.instant
      (CycleTables.skippedIn (Runs.trace (CycleTables.record randomIds fun _ => none)
        (CycleTables.unscheduled hourly) (claimedLate ++ [])))
      (CycleTables.grantedIn (Runs.trace (CycleTables.record randomIds fun _ => none)
        (CycleTables.unscheduled hourly) (claimedLate ++ []))) (count + grown)
      (Runs.final (CycleTables.record randomIds fun _ => none) (CycleTables.unscheduled hourly)
        (claimedLate ++ [])) :=
  @CycleTables.slots_accounted randomIds (fun _ => none) hourly ⟨"agent", moment.instant, true⟩
    (List.mem_singleton.mpr rfl) claimedLate []

end Sample

end VTrade
