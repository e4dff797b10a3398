/-
# What a prompt tells of the last hours

The prompt of a cycle lists what happened to the account since the last prompt: the settlements
and the refused orders, the newest 25 of them, and sums up the last 24 hours.  Each kind is read
by a query of its own that is cut to the newest 26 rows before the two are put together, and the
reasons of the refusals are grouped twice, once by the database and once after trimming.

The lists are the 25 newest of all events of the window, and the windows of the prompts of an
agent follow one another without a gap: what has happened falls into exactly one of them.
-/

import VTrade.Cycles
import VTrade.Domain.Execution
import VTrade.Lib.Newest
import VTrade.Lib.Tally
import Mathlib.Algebra.BigOperators.Group.List.Lemmas
import Mathlib.Data.List.DropRight
import Mathlib.Data.Prod.Lex
import Mathlib.Data.String.Basic
import Mathlib.Data.Int.ConditionallyCompleteOrder

namespace VTrade

/-! ## Reasons -/

/-- A text without the characters of a kind at its ends. -/
def trimmed (drop : Char → Bool) (text : String) : String :=
  String.ofList ((text.toList.dropWhile drop).rdropWhile drop)

/-- `COALESCE(NULLIF(BTRIM(reason), ''), 'unknown')`. -/
def rejectionReason (reason : Option String) : String :=
  let code := trimmed (fun c => c = ' ') (reason.getD "")
  if code = "" then "unknown" else code

/-- `_canonical_rejection_code`. -/
def canonicalRejectionCode (value : String) : String :=
  let code := trimmed Text.isSpace value
  if code = "" then "unknown" else code

/-! ## Tables -/

/-- A row of `settlements` with the name of its market. -/
structure SettledRow where
  id : String
  agentId : String
  marketRef : String
  outcomeSide : OutcomeSide
  realizedPnlMicros : ℤ
  settledAt : Instant

/-- A row of `order_operations` with the name of its market and its current state. -/
structure OrderedRow where
  id : String
  agentId : String
  marketRef : String
  outcomeSide : OutcomeSide
  state : OrderState
  createdAt : Instant

/-- A row of `order_lifecycle_events`. -/
structure LifecycleRow where
  id : String
  operationId : String
  sequenceNumber : ℤ
  state : OrderState
  reason : Option String

/-- The tables that the activity of an agent is read from. -/
structure ActivityTables where
  cycles : List AgentCycleRow
  /-- The cycles that have a row of `cycle_contexts`. -/
  contexts : List String
  settlements : List SettledRow
  operations : List OrderedRow
  lifecycleEvents : List LifecycleRow
  /-- `UNIQUE (agent_id, scheduled_at)`. -/
  slots_unique : (cycles.map fun row => (row.agentId, row.scheduledAt)).Nodup
  cycles_unique : (cycles.map AgentCycleRow.key).Nodup
  settlements_unique : (settlements.map SettledRow.id).Nodup
  operations_unique : (operations.map OrderedRow.id).Nodup

/-! ## Events -/

inductive ActivityKind
  | settlement
  | rejection
  deriving DecidableEq

def ActivityKind.value : ActivityKind → String
  | settlement => "settlement"
  | rejection => "rejection"

structure RecentActivityEvent where
  kind : ActivityKind
  marketRef : String
  occurredAt : Instant
  outcome : OutcomeSide
  pnlMicros : Option ℤ
  detail : String
  stableId : String
  deriving DecidableEq

/-- What events are put in order by. -/
abbrev ActivityRank := Instant ×ₗ String ×ₗ String ×ₗ String ×ₗ String

def RecentActivityEvent.rank (event : RecentActivityEvent) : ActivityRank :=
  toLex (event.occurredAt, toLex (event.stableId, toLex (event.kind.value,
    toLex (event.marketRef, event.outcome.value))))

/-- `_activity_event_payload`. -/
def activityEventPayload (isoformat : Instant → String) (event : RecentActivityEvent) :
    JsonObject :=
  [("type", .text event.kind.value), ("market_ref", .text event.marketRef),
    ("outcome", .text event.outcome.value), ("occurred_at", .text (isoformat event.occurredAt))] ++
  match event.kind with
  | .settlement => [("realized_pnl_micros", event.pnlMicros.elim .null .int)]
  | .rejection => [("rejection_code", .text (canonicalRejectionCode event.detail))]

/-! ## Queries -/

/-- How many of some codes there are of each, by code. -/
def counted (codes : List String) : List (String × ℕ) :=
  (codes.dedup.insertionSort fun first second => first ≤ second).map fun code =>
    (code, codes.count code)

/-- Count rows by their canonical codes. -/
def mergeCodes (rows : List (String × ℕ)) : List (String × ℕ) :=
  (Tally.ofRows (rows.map fun row => (canonicalRejectionCode row.1, row.2))).insertionSort
    fun first second => first.1 ≤ second.1

/-! ## Counting twice -/

section Counting

variable {row : String × ℕ}

theorem mem_counted {codes : List String} :
    row ∈ counted codes ↔ row.1 ∈ codes ∧ row.2 = codes.count row.1 := by
  simp only [counted, List.mem_map, List.mem_insertionSort, List.mem_dedup]
  constructor
  · rintro ⟨code, hcode, rfl⟩
    exact ⟨hcode, rfl⟩
  · rintro ⟨hcode, hcount⟩
    exact ⟨row.1, hcode, by rw [← hcount]⟩

theorem counted_pairwise (codes : List String) :
    (counted codes).Pairwise fun first second => first.1 < second.1 := by
  have hnodup : (codes.dedup.insertionSort fun first second => first ≤ second).Nodup :=
    (List.perm_insertionSort _ _).nodup_iff.mpr codes.nodup_dedup
  have hsorted := List.pairwise_insertionSort (fun first second : String => first ≤ second)
    codes.dedup
  rw [counted, List.pairwise_map]
  exact (hsorted.and hnodup).imp fun h => lt_of_le_of_ne h.1 h.2

/-- How many of some codes are canonically the same one. -/
theorem sum_counted (codes : List String) (f : String → String) (code : String) :
    ((((counted codes).map fun row => (f row.1, row.2)).filter fun row => row.1 = code).map
      Prod.snd).sum = (codes.map f).count code := by
  have hperm : (counted codes).Perm (codes.dedup.map fun code => (code, codes.count code)) :=
    (List.perm_insertionSort _ _).map _
  rw [((((hperm.map fun row => (f row.1, row.2)).filter fun row => row.1 = code).map
      Prod.snd).sum_eq)]
  rw [List.map_map, List.filter_map, List.map_map, List.count_eq_countP, List.countP_map]
  exact List.sum_map_count_dedup_filter_eq_countP (fun other => decide (f other = code)) codes

/-- Grouping the codes of the database once more by their canonical form is grouping by that. -/
theorem mergeCodes_counted (codes : List String) :
    mergeCodes (counted codes) = counted (codes.map canonicalRejectionCode) := by
  have hperm := List.perm_insertionSort (fun first second : String × ℕ => first.1 ≤ second.1)
    (Tally.ofRows ((counted codes).map fun row => (canonicalRejectionCode row.1, row.2)))
  have hsorted := List.pairwise_insertionSort (fun first second : String × ℕ =>
    first.1 ≤ second.1)
    (Tally.ofRows ((counted codes).map fun row => (canonicalRejectionCode row.1, row.2)))
  have hne := List.pairwise_map.mp ((hperm.map Prod.fst).nodup_iff.mpr (Tally.nodup_ofRows _))
  refine Newest.eq_of_mem_iff (fun _ _ h => lt_asymm h)
    ((hsorted.and hne).imp fun h => lt_of_le_of_ne h.1 h.2) (counted_pairwise _) fun row => ?_
  rw [mergeCodes, hperm.mem_iff, Tally.mem_ofRows, mem_counted, sum_counted, List.map_map]
  refine and_congr_left fun _ => ?_
  rw [List.mem_map, List.mem_map]
  constructor
  · rintro ⟨counted, hcounted, heq⟩
    exact ⟨counted.1, (mem_counted.mp hcounted).1, heq⟩
  · rintro ⟨code, hcode, heq⟩
    exact ⟨(code, codes.count code), mem_counted.mpr ⟨hcode, rfl⟩, heq⟩

end Counting

structure ActivitySummary where
  settlements : ℕ
  settlementPnlMicros : ℤ
  rejections : List (String × ℕ)
  deriving DecidableEq

structure RecentActivity where
  sinceLastCycle : List JsonObject
  sinceLastCycleTruncated : Bool
  summary24h : ActivitySummary

/-- `_RECENT_ACTIVITY_LIMIT`. -/
def recentActivityLimit : ℕ := 25

/-- A day of microseconds. -/
def summaryHours : ℤ := 24 * 3600000000

namespace ActivityTables

variable (tables : ActivityTables) (agentId : String)

/-- The cycles of an agent before one that have a prompt and a cutoff. -/
def promptedBefore (current : AgentCycleRow) : List AgentCycleRow :=
  tables.cycles.filter fun row =>
    row.agentId = agentId ∧ row.scheduledAt < current.scheduledAt ∧ row.id ∈ tables.contexts ∧
      row.dataCutoff.isSome

/-- The cutoff of the last prompt before a cycle. -/
def previousCutoff (currentCycleId : String) : Option Instant := do
  let current ← (KeyedList.lookup AgentCycleRow.key currentCycleId tables.cycles).filter
    fun row => row.agentId = agentId
  let previous ← (Newest.newest (fun row : AgentCycleRow => toLex (row.scheduledAt, row.id)) 1
    (tables.promptedBefore agentId current)).head?
  previous.dataCutoff

/-- Where the window of a prompt starts. -/
def deltaOldest (currentCycleId : String) (cutoff : Instant) : Instant :=
  (tables.previousCutoff agentId currentCycleId).getD (cutoff - summaryHours)

def settled (oldest cutoff : Instant) : List SettledRow :=
  tables.settlements.filter fun row =>
    row.agentId = agentId ∧ oldest < row.settledAt ∧ row.settledAt ≤ cutoff

def rejected (oldest cutoff : Instant) : List OrderedRow :=
  tables.operations.filter fun row =>
    row.agentId = agentId ∧ row.state = .rejected ∧ oldest < row.createdAt ∧
      row.createdAt ≤ cutoff

/-- The reason of the last refusal among the events of an order. -/
def lastReason (operationId : String) : String :=
  rejectionReason ((Newest.newest (fun row : LifecycleRow => toLex (row.sequenceNumber, row.id)) 1
    (tables.lifecycleEvents.filter fun row =>
      row.operationId = operationId ∧ row.state = .rejected)).head?.bind LifecycleRow.reason)

def settlementEvent (row : SettledRow) : RecentActivityEvent where
  kind := .settlement
  marketRef := row.marketRef
  occurredAt := row.settledAt
  outcome := row.outcomeSide
  pnlMicros := some row.realizedPnlMicros
  detail := ""
  stableId := row.id

def rejectionEvent (row : OrderedRow) : RecentActivityEvent where
  kind := .rejection
  marketRef := row.marketRef
  occurredAt := row.createdAt
  outcome := row.outcomeSide
  pnlMicros := none
  detail := canonicalRejectionCode (tables.lastReason row.id)
  stableId := row.id

/-- The events of both queries, each cut to one more than are shown. -/
def queriedEvents (oldest cutoff : Instant) : List RecentActivityEvent :=
  (Newest.newest (fun row : SettledRow => toLex (row.settledAt, row.id)) (recentActivityLimit + 1)
    (tables.settled agentId oldest cutoff)).map settlementEvent ++
  (Newest.newest (fun row : OrderedRow => toLex (row.createdAt, row.id)) (recentActivityLimit + 1)
    (tables.rejected agentId oldest cutoff)).map tables.rejectionEvent

/-- `_recent_activity`. -/
def recentActivity (isoformat : Instant → String) (cutoff : Instant) (currentCycleId : String) :
    RecentActivity :=
  let summaryOldest := cutoff - summaryHours
  let ordered := Newest.descending RecentActivityEvent.rank
    (tables.queriedEvents agentId (tables.deltaOldest agentId currentCycleId cutoff) cutoff)
  let settlements := tables.settled agentId summaryOldest cutoff
  { sinceLastCycle := (ordered.take recentActivityLimit).map (activityEventPayload isoformat)
    sinceLastCycleTruncated := recentActivityLimit < ordered.length
    summary24h :=
      { settlements := settlements.length
        settlementPnlMicros := (settlements.map SettledRow.realizedPnlMicros).sum
        rejections := mergeCodes (counted
          ((tables.rejected agentId summaryOldest cutoff).map fun row =>
            tables.lastReason row.id)) } }

/-- All that happened to an account in a window. -/
def activity (oldest cutoff : Instant) : List RecentActivityEvent :=
  (tables.settled agentId oldest cutoff).map settlementEvent ++
    (tables.rejected agentId oldest cutoff).map tables.rejectionEvent

end ActivityTables

/-! ## The newest of all -/

section Order

/-- The time and the row of an event put events in order as soon as no two have one row. -/
theorem rank_le_iff {first second : RecentActivityEvent}
    (h : first.stableId = second.stableId → first = second) :
    toLex (first.occurredAt, first.stableId) ≤ toLex (second.occurredAt, second.stableId) ↔
      first.rank ≤ second.rank := by
  by_cases hid : first.stableId = second.stableId
  · rw [h hid]
    exact iff_of_true le_rfl le_rfl
  · have hrest : toLex (first.stableId, toLex (first.kind.value,
          toLex (first.marketRef, first.outcome.value))) ≤
        toLex (second.stableId, toLex (second.kind.value,
          toLex (second.marketRef, second.outcome.value))) ↔
        first.stableId ≤ second.stableId := by
      rw [Prod.Lex.toLex_le_toLex]
      exact ⟨fun h => h.elim le_of_lt fun h => h.1.le,
        fun h => .inl (lt_of_le_of_ne h hid)⟩
    rw [RecentActivityEvent.rank, RecentActivityEvent.rank, Prod.Lex.toLex_le_toLex,
      Prod.Lex.toLex_le_toLex, hrest]

variable (tables : ActivityTables) (agentId : String) {oldest cutoff : Instant}

theorem nodup_settled : ((tables.settled agentId oldest cutoff).map SettledRow.id).Nodup :=
  tables.settlements_unique.sublist (List.filter_sublist.map _)

theorem nodup_rejected : ((tables.rejected agentId oldest cutoff).map OrderedRow.id).Nodup :=
  tables.operations_unique.sublist (List.filter_sublist.map _)

/-- Rows of one identifier are the same row. -/
theorem eq_of_id {α : Type} {rows : List α} {id : α → String} (unique : (rows.map id).Nodup)
    {first second : α} (hfirst : first ∈ rows) (hsecond : second ∈ rows)
    (h : id first = id second) : first = second :=
  List.inj_on_of_nodup_map unique hfirst hsecond h

theorem queriedEvents_eq : tables.queriedEvents agentId oldest cutoff =
    Newest.newest RecentActivityEvent.rank (recentActivityLimit + 1)
        ((tables.settled agentId oldest cutoff).map ActivityTables.settlementEvent) ++
      Newest.newest RecentActivityEvent.rank (recentActivityLimit + 1)
        ((tables.rejected agentId oldest cutoff).map tables.rejectionEvent) := by
  rw [ActivityTables.queriedEvents]
  congr 1
  · refine (Newest.newest_map _ _ _ (fun first hfirst second hsecond => ?_) _).symm
    refine @rank_le_iff (ActivityTables.settlementEvent first)
      (ActivityTables.settlementEvent second) fun hid => ?_
    rw [eq_of_id (nodup_settled tables agentId) hfirst hsecond hid]
  · refine (Newest.newest_map _ _ _ (fun first hfirst second hsecond => ?_) _).symm
    refine @rank_le_iff (tables.rejectionEvent first) (tables.rejectionEvent second) fun hid => ?_
    rw [eq_of_id (nodup_rejected tables agentId) hfirst hsecond hid]

theorem stableId_of_rank_eq {first second : RecentActivityEvent}
    (h : first.rank = second.rank) :
    first.stableId = second.stableId ∧ first.kind.value = second.kind.value := by
  have hparts := toLex.injective h
  have hrest := toLex.injective (Prod.ext_iff.mp hparts).2
  have hkinds := toLex.injective (Prod.ext_iff.mp hrest).2
  exact ⟨(Prod.ext_iff.mp hrest).1, (Prod.ext_iff.mp hkinds).1⟩

/-- No two events of a window have one rank. -/
theorem nodup_activity :
    ((tables.activity agentId oldest cutoff).map RecentActivityEvent.rank).Nodup := by
  rw [ActivityTables.activity, List.map_append, List.map_map, List.map_map]
  refine List.nodup_append.mpr ⟨?_, ?_, ?_⟩
  · refine List.Nodup.map_on ?_ ((nodup_settled tables agentId).of_map _)
    intro first hfirst second hsecond h
    exact eq_of_id (nodup_settled tables agentId) hfirst hsecond (stableId_of_rank_eq h).1
  · refine List.Nodup.map_on ?_ ((nodup_rejected tables agentId).of_map _)
    intro first hfirst second hsecond h
    exact eq_of_id (nodup_rejected tables agentId) hfirst hsecond (stableId_of_rank_eq h).1
  · intro rank hrank other hother heq
    subst heq
    obtain ⟨first, -, hfirst⟩ := List.mem_map.mp hrank
    obtain ⟨second, -, hsecond⟩ := List.mem_map.mp hother
    have hkind := (stableId_of_rank_eq (hfirst.trans hsecond.symm)).2
    exact absurd hkind (show "settlement" ≠ "rejection" by decide)

end Order

/-! ## What is told -/

/-- A prompt lists the newest 25 of all that happened since the last one, and says whether there
was more.  It sums up the settlements and the refusals, by canonical code, of 24 hours. -/
theorem recent_activity (tables : ActivityTables) (agentId currentCycleId : String)
    (isoformat : Instant → String) (cutoff : Instant) :
    let happened :=
      tables.activity agentId (tables.deltaOldest agentId currentCycleId cutoff) cutoff
    let settled := tables.settled agentId (cutoff - summaryHours) cutoff
    let rejected := tables.rejected agentId (cutoff - summaryHours) cutoff
    let told := tables.recentActivity agentId isoformat cutoff currentCycleId
    told.sinceLastCycle = (Newest.newest RecentActivityEvent.rank 25 happened).map
        (activityEventPayload isoformat) ∧
      told.sinceLastCycleTruncated = decide (25 < happened.length) ∧
      told.summary24h = {
        settlements := settled.length
        settlementPnlMicros := (settled.map SettledRow.realizedPnlMicros).sum
        rejections := counted (rejected.map fun row =>
          canonicalRejectionCode (tables.lastReason row.id)) } := by
  intro happened settled rejected told
  have hhappened : happened =
      tables.activity agentId (tables.deltaOldest agentId currentCycleId cutoff) cutoff := rfl
  have hqueried : tables.queriedEvents agentId
      (tables.deltaOldest agentId currentCycleId cutoff) cutoff = _ :=
    queriedEvents_eq tables agentId
  have hunique : ((tables.activity agentId
      (tables.deltaOldest agentId currentCycleId cutoff) cutoff).map
        RecentActivityEvent.rank).Nodup :=
    nodup_activity tables agentId
  refine ⟨?_, ?_, ?_⟩
  · have hnewest := Newest.newest_append hunique (Nat.le_succ recentActivityLimit)
    rw [← hqueried] at hnewest
    rw [hhappened]
    exact congrArg (List.map (activityEventPayload isoformat)) hnewest
  · have hlength : (tables.queriedEvents agentId
        (tables.deltaOldest agentId currentCycleId cutoff) cutoff).length =
        min 26 (tables.settled agentId (tables.deltaOldest agentId currentCycleId cutoff)
            cutoff).length +
          min 26 (tables.rejected agentId (tables.deltaOldest agentId currentCycleId cutoff)
            cutoff).length := by
      rw [ActivityTables.queriedEvents, List.length_append, List.length_map, List.length_map,
        Newest.length_newest, Newest.length_newest]
      rfl
    have hall : happened.length =
        (tables.settled agentId (tables.deltaOldest agentId currentCycleId cutoff) cutoff).length +
          (tables.rejected agentId (tables.deltaOldest agentId currentCycleId cutoff)
            cutoff).length := by
      rw [hhappened, ActivityTables.activity, List.length_append, List.length_map,
        List.length_map]
    simp only [told, ActivityTables.recentActivity]
    rw [(Newest.descending_perm _).length_eq, hlength, hall, decide_eq_decide]
    unfold recentActivityLimit
    omega
  · simp only [told, settled, rejected, ActivityTables.recentActivity, mergeCodes_counted,
      List.map_map, Function.comp_def]

/-! ## Prompt after prompt -/

/-- A prompt: its cycle, the cutoff of that, and the tables it is made from. -/
structure Prompt where
  tables : ActivityTables
  cycle : AgentCycleRow
  cutoff : Instant

namespace Prompt

/-- The first instant that is not told of any more. -/
def oldest (agentId : String) (prompt : Prompt) : Instant :=
  prompt.tables.deltaOldest agentId prompt.cycle.id prompt.cutoff

def activity (agentId : String) (prompt : Prompt) : List RecentActivityEvent :=
  prompt.tables.activity agentId (prompt.oldest agentId) prompt.cutoff

/-- A prompt comes after others: its cycle is a later one, and the tables hold the cycles that
have a prompt as they were. -/
structure Follows (agentId : String) (earlier : List Prompt) (prompt : Prompt) : Prop where
  cycle_mem : prompt.cycle ∈ prompt.tables.cycles
  agent : prompt.cycle.agentId = agentId
  cutoff : prompt.cycle.dataCutoff = some prompt.cutoff
  later : ∀ other ∈ earlier, other.cycle.scheduledAt < prompt.cycle.scheduledAt
  kept : ∀ other ∈ earlier, ∃ row ∈ prompt.tables.cycles, row.id = other.cycle.id ∧
    row.agentId = agentId ∧ row.scheduledAt = other.cycle.scheduledAt ∧
    row.dataCutoff = some other.cutoff ∧ row.id ∈ prompt.tables.contexts
  contexts : ∀ row ∈ prompt.tables.cycles, row.agentId = agentId →
    row.id ∈ prompt.tables.contexts → row.scheduledAt < prompt.cycle.scheduledAt →
    ∃ other ∈ earlier, other.cycle.id = row.id

end Prompt

/-- The prompts of an agent, the last one first. -/
inductive Prompts (agentId : String) : List Prompt → Prop
  | nil : Prompts agentId []
  | cons {earlier : List Prompt} {prompt : Prompt} (earlier_prompts : Prompts agentId earlier)
      (follows : prompt.Follows agentId earlier) : Prompts agentId (prompt :: earlier)

section Windows

variable {agentId : String} {earlier prompts : List Prompt} {prompt previous : Prompt}

theorem Prompt.Follows.previousCutoff (h : prompt.Follows agentId earlier) :
    prompt.tables.previousCutoff agentId prompt.cycle.id =
      (Newest.newest (fun row : AgentCycleRow => toLex (row.scheduledAt, row.id)) 1
        (prompt.tables.promptedBefore agentId prompt.cycle)).head?.bind fun row =>
          row.dataCutoff := by
  have hlookup : KeyedList.lookup AgentCycleRow.key prompt.cycle.id prompt.tables.cycles =
      some prompt.cycle :=
    (KeyedList.lookup_eq_some_iff prompt.tables.cycles_unique).mpr ⟨h.cycle_mem, rfl⟩
  unfold ActivityTables.previousCutoff
  rw [hlookup, Option.filter_some, if_pos (by simpa using h.agent)]
  rfl

/-- The first prompt reaches back a day. -/
theorem Prompt.Follows.oldest_first (h : prompt.Follows agentId []) :
    prompt.oldest agentId = prompt.cutoff - summaryHours := by
  have hnone : prompt.tables.promptedBefore agentId prompt.cycle = [] := by
    refine List.filter_eq_nil_iff.mpr fun row hrow hprompted => ?_
    obtain ⟨hagent, hbefore, hcontext, -⟩ := of_decide_eq_true hprompted
    obtain ⟨other, hother, -⟩ := h.contexts row hrow hagent hcontext hbefore
    cases hother
  rw [Prompt.oldest, ActivityTables.deltaOldest, h.previousCutoff, hnone]
  rfl

/-- Every other one reaches back to the one before. -/
theorem Prompt.Follows.oldest_next (h : prompt.Follows agentId (previous :: earlier))
    (hlater : ∀ other ∈ earlier, other.cycle.scheduledAt < previous.cycle.scheduledAt) :
    prompt.oldest agentId = previous.cutoff := by
  obtain ⟨row, hrow, hid, hagent, hscheduled, hcutoff, hcontext⟩ :=
    h.kept previous List.mem_cons_self
  have hmem : row ∈ prompt.tables.promptedBefore agentId prompt.cycle := by
    refine List.mem_filter.mpr ⟨hrow, decide_eq_true ⟨hagent, ?_, hcontext, by rw [hcutoff]; rfl⟩⟩
    rw [hscheduled]
    exact h.later previous List.mem_cons_self
  have hunique : ((prompt.tables.promptedBefore agentId prompt.cycle).map
      fun row : AgentCycleRow => toLex (row.scheduledAt, row.id)).Nodup := by
    refine List.Nodup.map_on ?_
      ((prompt.tables.cycles_unique.of_map _).sublist List.filter_sublist)
    intro first hfirst second hsecond heq
    exact eq_of_id prompt.tables.cycles_unique (List.mem_of_mem_filter hfirst)
      (List.mem_of_mem_filter hsecond) (Prod.ext_iff.mp (toLex.injective heq)).2
  have hlast : ∀ other ∈ prompt.tables.promptedBefore agentId prompt.cycle,
      toLex (other.scheduledAt, other.id) ≤ toLex (row.scheduledAt, row.id) := by
    intro other hother
    obtain ⟨hmemOther, hprompted⟩ := List.mem_filter.mp hother
    obtain ⟨hagentOther, hbefore, hcontextOther, -⟩ := of_decide_eq_true hprompted
    obtain ⟨told, htold, htoldId⟩ := h.contexts other hmemOther hagentOther hcontextOther hbefore
    obtain ⟨kept, hkept, hkeptId, -, hkeptScheduled, -, -⟩ := h.kept told htold
    have hsame : kept = other := eq_of_id prompt.tables.cycles_unique hkept hmemOther
      (hkeptId.trans htoldId)
    rw [hsame] at hkeptScheduled
    rcases List.mem_cons.mp htold with rfl | hearlier
    · rw [eq_of_id prompt.tables.cycles_unique hmemOther hrow (htoldId.symm.trans hid.symm)]
    · refine Prod.Lex.toLex_le_toLex.mpr (.inl ?_)
      rw [hkeptScheduled, hscheduled]
      exact hlater told hearlier
  rw [Prompt.oldest, ActivityTables.deltaOldest, h.previousCutoff,
    Newest.head?_newest_one hunique hmem hlast, Option.bind_some, hcutoff, Option.getD_some]

theorem Prompts.later (h : Prompts agentId (prompt :: earlier)) :
    ∀ other ∈ earlier, other.cycle.scheduledAt < prompt.cycle.scheduledAt := by
  cases h with
  | cons _ hfollows => exact hfollows.later

/-- The windows of the prompts leave nothing out between the first and the last. -/
theorem Prompts.covered (h : Prompts agentId prompts) (hne : prompts ≠ []) {time : Instant}
    (hfirst : (prompts.getLast hne).cutoff - summaryHours < time)
    (hlast : time ≤ (prompts.head hne).cutoff) :
    ∃ prompt ∈ prompts, prompt.oldest agentId < time ∧ time ≤ prompt.cutoff := by
  induction h with
  | nil => exact absurd rfl hne
  | @cons earlier prompt hearlier hfollows ih =>
      cases earlier with
      | nil =>
          refine ⟨prompt, List.mem_cons_self, ?_, hlast⟩
          rw [hfollows.oldest_first]
          exact hfirst
      | cons previous rest =>
          by_cases htime : previous.cutoff < time
          · refine ⟨prompt, List.mem_cons_self, ?_, hlast⟩
            rw [hfollows.oldest_next hearlier.later]
            exact htime
          · obtain ⟨found, hfound, hwindow⟩ := ih (List.cons_ne_nil _ _)
              (by rw [← List.getLast_cons (List.cons_ne_nil _ _)]; exact hfirst)
              (not_lt.mp htime)
            exact ⟨found, List.mem_cons_of_mem _ hfound, hwindow⟩

/-- They do not overlap as long as no cutoff goes back. -/
theorem Prompts.apart (h : Prompts agentId prompts)
    (hcutoffs : prompts.Pairwise fun later earlier => earlier.cutoff ≤ later.cutoff) :
    prompts.Pairwise fun later earlier => earlier.cutoff ≤ later.oldest agentId := by
  induction h with
  | nil => exact List.Pairwise.nil
  | @cons earlier prompt hearlier hfollows ih =>
      obtain ⟨-, hrest⟩ := List.pairwise_cons.mp hcutoffs
      refine List.pairwise_cons.mpr ⟨fun other hother => ?_, ih hrest⟩
      cases earlier with
      | nil => cases hother
      | cons previous rest =>
          rw [hfollows.oldest_next hearlier.later]
          rcases List.mem_cons.mp hother with rfl | hmem
          · exact le_rfl
          · exact (List.pairwise_cons.mp hrest).1 other hmem

theorem Prompts.eq_of_window (h : Prompts agentId prompts)
    (hcutoffs : prompts.Pairwise fun later earlier => earlier.cutoff ≤ later.cutoff)
    {first second : Prompt} (hfirst : first ∈ prompts) (hsecond : second ∈ prompts)
    {time : Instant} (hin : first.oldest agentId < time ∧ time ≤ first.cutoff)
    (hin' : second.oldest agentId < time ∧ time ≤ second.cutoff) : first = second := by
  have hapart := h.apart hcutoffs
  have hall : ∀ ⦃first⦄, first ∈ prompts → ∀ ⦃second⦄, second ∈ prompts →
      first.oldest agentId < time → time ≤ first.cutoff → second.oldest agentId < time →
      time ≤ second.cutoff → first = second := by
    refine List.Pairwise.forall_of_forall_of_flip (fun _ _ _ _ _ _ => rfl)
      (hapart.imp fun hle holdest _ _ hcutoff => ?_)
      (hapart.imp fun hle _ hcutoff holdest _ => ?_)
    · exact absurd (hcutoff.trans hle) (not_le.mpr holdest)
    · exact absurd (hcutoff.trans hle) (not_le.mpr holdest)
  exact hall hfirst hsecond hin.1 hin.2 hin'.1 hin'.2

/-- What lies in the window of a prompt. -/
theorem occurredAt_of_mem_activity {event : RecentActivityEvent}
    (h : event ∈ prompt.activity agentId) :
    prompt.oldest agentId < event.occurredAt ∧ event.occurredAt ≤ prompt.cutoff := by
  rcases List.mem_append.mp h with hsettled | hrejected
  · obtain ⟨row, hrow, rfl⟩ := List.mem_map.mp hsettled
    exact (of_decide_eq_true (List.mem_filter.mp hrow).2).2
  · obtain ⟨row, hrow, rfl⟩ := List.mem_map.mp hrejected
    exact (of_decide_eq_true (List.mem_filter.mp hrow).2).2.2

/-- Over the prompts of an agent nothing that happened at one time is told twice, and what the
tables hold by the time of its cutoff is told, unless there is too much of it to be listed: a
settlement, and an order that has been refused by then. -/
theorem prompts_tell_once (h : Prompts agentId prompts)
    (hcutoffs : prompts.Pairwise fun later earlier => earlier.cutoff ≤ later.cutoff) :
    (∀ first ∈ prompts, ∀ second ∈ prompts, ∀ event ∈ first.activity agentId,
      ∀ other ∈ second.activity agentId, event.occurredAt = other.occurredAt → first = second) ∧
      ∀ hne : prompts ≠ [],
        let told := Set.Ioc ((prompts.getLast hne).cutoff - summaryHours) (prompts.head hne).cutoff
        (∀ row : SettledRow, row.agentId = agentId → row.settledAt ∈ told →
          (∀ prompt ∈ prompts, row.settledAt ≤ prompt.cutoff →
            row ∈ prompt.tables.settlements) →
          ∃ prompt ∈ prompts, ActivityTables.settlementEvent row ∈ prompt.activity agentId) ∧
        ∀ row : OrderedRow, row.agentId = agentId → row.state = .rejected →
          row.createdAt ∈ told →
          (∀ prompt ∈ prompts, row.createdAt ≤ prompt.cutoff → row ∈ prompt.tables.operations) →
          ∃ prompt ∈ prompts, prompt.tables.rejectionEvent row ∈ prompt.activity agentId := by
  refine ⟨?_, fun hne => ⟨?_, ?_⟩⟩
  · intro first hfirst second hsecond event hevent other hother htime
    refine h.eq_of_window hcutoffs hfirst hsecond (occurredAt_of_mem_activity hevent) ?_
    rw [htime]
    exact occurredAt_of_mem_activity hother
  · intro row hagent htold hheld
    obtain ⟨prompt, hprompt, hwindow⟩ := h.covered hne htold.1 htold.2
    refine ⟨prompt, hprompt, List.mem_append_left _ (List.mem_map_of_mem ?_)⟩
    exact List.mem_filter.mpr ⟨hheld prompt hprompt hwindow.2, decide_eq_true ⟨hagent, hwindow⟩⟩
  · intro row hagent hstate htold hheld
    obtain ⟨prompt, hprompt, hwindow⟩ := h.covered hne htold.1 htold.2
    refine ⟨prompt, hprompt, List.mem_append_right _ (List.mem_map_of_mem ?_)⟩
    exact List.mem_filter.mpr
      ⟨hheld prompt hprompt hwindow.2, decide_eq_true ⟨hagent, hstate, hwindow⟩⟩

end Windows

/-! ## Two prompts -/

namespace Sample

/-- A finished cycle an hour after another, with a cutoff five minutes after its slot. -/
def promptedFields (id : String) (hour : ℤ) : CycleRowFields where
  id := id
  agentId := "agent"
  scheduledAt := hour * 3600000000
  dataCutoff := some (hour * 3600000000 + 300000000)
  status := .completed
  startedAt := none
  completedAt := none
  leaseOwner := none
  leaseExpiresAt := none
  attemptCount := 1
  modelTerminationStatus := none
  finalSummary := none
  failureReason := none

theorem promptedFields_accepted (id : String) (hour : ℤ) :
    (promptedFields id hour).Accepted where
  cutoff_known := .inl rfl
  cutoff_ge cutoff hcutoff := by
    rw [← Option.mem_some_iff.mp hcutoff]
    change hour * 3600000000 ≤ hour * 3600000000 + 300000000
    omega
  lease_owned := .inl rfl
  completed_ge _ hcompleted := by cases hcompleted

def promptedCycle (id : String) (hour : ℤ) : AgentCycleRow :=
  ⟨promptedFields id hour, promptedFields_accepted id hour⟩

def settledRow : SettledRow where
  id := "settlement"
  agentId := "agent"
  marketRef := "MARKET"
  outcomeSide := .yes
  realizedPnlMicros := 250000
  settledAt := 100 * 3600000000 + 600000000

/-- The tables when the second of two prompts is made. -/
def activityTables (contexts : List String) : ActivityTables where
  cycles := [promptedCycle "first" 100, promptedCycle "second" 101]
  contexts := contexts
  settlements := [settledRow]
  operations := []
  lifecycleEvents := []
  slots_unique := by decide
  cycles_unique := by decide
  settlements_unique := by decide
  operations_unique := by decide

def prompt (contexts : List String) (id : String) (hour : ℤ) : Prompt :=
  ⟨activityTables contexts, promptedCycle id hour, hour * 3600000000 + 300000000⟩

theorem prompts : Prompts "agent" [prompt ["first"] "second" 101, prompt [] "first" 100] := by
  refine .cons (.cons .nil ?_) ?_
  · exact {
      cycle_mem := List.mem_cons_self
      agent := rfl
      cutoff := rfl
      later := fun _ hother => by cases hother
      kept := fun _ hother => by cases hother
      contexts := fun _ _ _ hcontext => by cases hcontext }
  · exact {
      cycle_mem := List.mem_cons_of_mem _ List.mem_cons_self
      agent := rfl
      cutoff := rfl
      later := fun other hother => by
        rw [List.mem_singleton.mp hother]
        decide
      kept := fun other hother => by
        rw [List.mem_singleton.mp hother]
        exact ⟨promptedCycle "first" 100, List.mem_cons_self, rfl, rfl, rfl, rfl,
          List.mem_singleton_self _⟩
      contexts := fun row _ _ hcontext _ =>
        ⟨_, List.mem_singleton_self _, (List.mem_singleton.mp hcontext).symm⟩ }

end Sample

/-- A settlement between two prompts is told in one of them. -/
theorem settlement_told_once :
    ∃ prompt ∈ [Sample.prompt ["first"] "second" 101, Sample.prompt [] "first" 100],
      ActivityTables.settlementEvent Sample.settledRow ∈ prompt.activity "agent" :=
  ((prompts_tell_once Sample.prompts (by
    refine List.pairwise_pair.mpr ?_
    decide)).2 (List.cons_ne_nil _ _)).1 Sample.settledRow rfl (by
      constructor
      · decide
      · decide) fun prompt hprompt _ => by
        rcases List.mem_cons.mp hprompt with rfl | hprompt
        · exact List.mem_singleton_self _
        · rw [List.mem_singleton.mp hprompt]
          exact List.mem_singleton_self _

end VTrade
