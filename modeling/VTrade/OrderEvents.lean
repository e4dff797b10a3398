/-
# The events of orders

Beside an order the repository keeps what happened to it, in two append-only tables of
numbered events: the states it went through, and what was found out about it.  The
state and the reconciliation that an order is taken to be in are columns of its own,
written along with the events and not computed from them.

An event that is appended later has a name made from its operation and its number; the
events an order is recorded with are named otherwise.
-/

import Mathlib
import VTrade.Lib.Json
import VTrade.Transitions

namespace VTrade

def SubmissionState.value : SubmissionState → String
  | notSubmitted => "NOT_SUBMITTED"
  | unknown => "UNKNOWN"
  | submitted => "SUBMITTED"

/-- How the program reads and digests JSON texts. -/
structure JsonTexts where
  loads : String → Option Json
  sha256 : Json → Sha256

namespace JsonTexts

variable (texts : JsonTexts)

/-- The digest of the text of a value with sorted keys. -/
def digest (value : Json) : Sha256 := texts.sha256 value.sorted

/-- `_json_mapping`. -/
def jsonMapping : Json → JsonObject
  | .object fields => fields
  | .text value =>
      match texts.loads value with
      | some (.object fields) => fields
      | _ => []
  | _ => []

/-- The evidence of an event, which has to be an object. -/
def storedEvidence : Json → Except Raised JsonObject
  | .object fields => .ok fields
  | .text value =>
      match texts.loads value with
      | some (.object fields) => .ok fields
      | some _ => .error (.valueError "stored reconciliation evidence is not an object")
      | none => .error (.valueError "Expecting value")
  | _ => .error (.valueError "stored reconciliation evidence is not an object")

end JsonTexts

/-! ## Numbered events -/

/-- A row of one of the two tables of events. -/
structure EventRow (σ δ : Type) where
  id : String
  operationId : String
  sequenceNumber : ℤ
  state : σ
  detail : δ
  observedAt : Instant
  idempotencyKey : String

namespace EventRow

variable {σ δ : Type}

def place (row : EventRow σ δ) : String × ℤ := (row.operationId, row.sequenceNumber)

/-- The order of rows by their numbers, the highest one first. -/
def Succeeds (first second : EventRow σ δ) : Prop := second.sequenceNumber ≤ first.sequenceNumber

instance : DecidableRel (Succeeds : EventRow σ δ → EventRow σ δ → Prop) :=
  fun first second => inferInstanceAs (Decidable (second.sequenceNumber ≤ first.sequenceNumber))

instance : IsTrans (EventRow σ δ) Succeeds := ⟨fun _ _ _ h h' => le_trans h' h⟩

instance : Std.Total (Succeeds : EventRow σ δ → EventRow σ δ → Prop) :=
  ⟨fun first second => le_total second.sequenceNumber first.sequenceNumber⟩

/-- Whether two rows cannot both be there. -/
def clashes (first second : EventRow σ δ) : Bool :=
  first.id = second.id ∨ first.idempotencyKey = second.idempotencyKey ∨
    first.place = second.place

end EventRow

/-- How the events that are appended later are named, from a first number on. -/
structure EventNames where
  first : ℤ
  id : String → ℤ → String
  idempotencyKey : String → ℤ → String
  id_injective : ∀ {operationId other : String} {n m : ℤ},
    id operationId n = id other m → (operationId, n) = (other, m)
  key_injective : ∀ {operationId other : String} {n m : ℤ},
    idempotencyKey operationId n = idempotencyKey other m → (operationId, n) = (other, m)

namespace EventNames

variable {σ δ : Type} (names : EventNames)

/-- The names of other events are not those of a row. -/
def Respects (row : EventRow σ δ) : Prop :=
  ∀ operationId n, names.first ≤ n →
    row.id = names.id operationId n ∨ row.idempotencyKey = names.idempotencyKey operationId n →
      row.place = (operationId, n)

/-- An event under its own name. -/
def row (operationId : String) (n : ℤ) (state : σ) (detail : δ) (observedAt : Instant) :
    EventRow σ δ where
  id := names.id operationId n
  operationId := operationId
  sequenceNumber := n
  state := state
  detail := detail
  observedAt := observedAt
  idempotencyKey := names.idempotencyKey operationId n

theorem row_respects (operationId : String) (n : ℤ) (state : σ) (detail : δ)
    (observedAt : Instant) : names.Respects (names.row operationId n state detail observedAt) := by
  intro other m _ h
  rcases h with hid | hkey
  · exact names.id_injective hid
  · exact names.key_injective hkey

end EventNames

/-- A table of events. -/
@[ext]
structure EventTable (names : EventNames) (σ δ : Type) where
  rows : List (EventRow σ δ)
  places_unique : (rows.map EventRow.place).Nodup
  numbers_nonneg : ∀ row ∈ rows, 0 ≤ row.sequenceNumber
  named : ∀ row ∈ rows, names.Respects row

namespace EventTable

variable {names : EventNames} {σ δ : Type} (table : EventTable names σ δ)

def ofOperation (operationId : String) : List (EventRow σ δ) :=
  table.rows.filter fun row => row.operationId = operationId

/-- The event of an operation with a number. -/
def numbered (operationId : String) (sequenceNumber : ℤ) : Option (EventRow σ δ) :=
  KeyedList.lookup EventRow.place (operationId, sequenceNumber) table.rows

/-- `ORDER BY sequence_number DESC, id DESC LIMIT 1`. -/
def latest (operationId : String) : Option (EventRow σ δ) :=
  ((table.ofOperation operationId).insertionSort EventRow.Succeeds).head?

/-- `COALESCE(max(sequence_number), -1) + 1`. -/
def nextSequence (operationId : String) : ℤ :=
  (table.latest operationId).elim 0 fun row => row.sequenceNumber + 1

/-- Append an event, if its number is one of an `integer` column and nothing of it is
taken. -/
def insert (row : EventRow σ δ) (respects : names.Respects row) :
    Except Raised (EventTable names σ δ) :=
  if hrange : 0 ≤ row.sequenceNumber ∧ row.sequenceNumber < 2 ^ 31 then
    if hclash : table.rows.any (fun other => other.clashes row) = true then
      .error (.databaseError "duplicate key value violates a unique constraint of order events")
    else .ok {
      rows := table.rows ++ [row]
      places_unique := by
        rw [List.map_append, List.map_singleton]
        refine table.places_unique.append (List.nodup_singleton _) ?_
        intro place hplace hrow
        obtain ⟨other, hother, rfl⟩ := List.mem_map.mp hplace
        apply hclash
        refine List.any_eq_true.mpr ⟨other, hother, ?_⟩
        simp [EventRow.clashes, List.mem_singleton.mp hrow]
      numbers_nonneg := by
        intro other hother
        rcases List.mem_append.mp hother with hold | hnew
        · exact table.numbers_nonneg other hold
        · rw [List.mem_singleton.mp hnew]
          exact hrange.1
      named := by
        intro other hother
        rcases List.mem_append.mp hother with hold | hnew
        · exact table.named other hold
        · rw [List.mem_singleton.mp hnew]
          exact respects }
  else .error (.databaseError "sequence_number is out of range")

variable {table} {operationId : String} {row : EventRow σ δ}

theorem mem_ofOperation :
    row ∈ table.ofOperation operationId ↔ row ∈ table.rows ∧ row.operationId = operationId := by
  simp [ofOperation]

/-- Events of other operations do not show among those of an operation. -/
theorem ofOperation_append {next : EventTable names σ δ} {appended : List (EventRow σ δ)}
    (hrows : next.rows = table.rows ++ appended)
    (hother : ∀ event ∈ appended, event.operationId ≠ operationId) :
    next.ofOperation operationId = table.ofOperation operationId := by
  have hnone : (appended.filter fun event => event.operationId = operationId) = [] := by
    apply List.filter_eq_nil_iff.mpr
    intro event hevent
    simpa using hother event hevent
  rw [ofOperation, hrows, List.filter_append, hnone, List.append_nil]
  rfl

/-- The latest event of an operation has the highest number. -/
theorem latest_eq_some_iff :
    table.latest operationId = some row ↔
      row ∈ table.ofOperation operationId ∧
        ∀ other ∈ table.ofOperation operationId, other.sequenceNumber ≤ row.sequenceNumber := by
  have hperm := List.perm_insertionSort EventRow.Succeeds (table.ofOperation operationId)
  have hsorted := List.pairwise_insertionSort EventRow.Succeeds (table.ofOperation operationId)
  unfold latest
  cases hlist : (table.ofOperation operationId).insertionSort EventRow.Succeeds with
  | nil =>
      rw [hlist] at hperm
      rw [← hperm.nil_eq]
      simp
  | cons head rest =>
      rw [hlist] at hperm hsorted
      have hhead : ∀ other ∈ table.ofOperation operationId,
          other.sequenceNumber ≤ head.sequenceNumber := by
        intro other hother
        rcases List.mem_cons.mp (hperm.mem_iff.mpr hother) with rfl | hrest
        · exact le_refl _
        · exact (List.pairwise_cons.mp hsorted).1 other hrest
      have hmem : head ∈ table.ofOperation operationId :=
        hperm.mem_iff.mp List.mem_cons_self
      rw [List.head?_cons, Option.some_inj]
      constructor
      · rintro rfl
        exact ⟨hmem, hhead⟩
      · rintro ⟨hrow, hhighest⟩
        have hnumber : head.sequenceNumber = row.sequenceNumber :=
          le_antisymm (hhighest head hmem) (hhead row hrow)
        have hplace : head.place = row.place :=
          Prod.ext_iff.mpr ⟨(mem_ofOperation.mp hmem).2.trans (mem_ofOperation.mp hrow).2.symm,
            hnumber⟩
        exact List.inj_on_of_nodup_map table.places_unique (mem_ofOperation.mp hmem).1
          (mem_ofOperation.mp hrow).1 hplace

theorem latest_eq_none_iff :
    table.latest operationId = none ↔ table.ofOperation operationId = [] := by
  rw [latest, List.head?_eq_none_iff]
  constructor
  · intro h
    have hperm := List.perm_insertionSort EventRow.Succeeds (table.ofOperation operationId)
    rw [h] at hperm
    exact hperm.nil_eq.symm
  · intro h
    rw [h]
    rfl

theorem numbered_eq_some_iff {sequenceNumber : ℤ} :
    table.numbered operationId sequenceNumber = some row ↔
      row ∈ table.ofOperation operationId ∧ row.sequenceNumber = sequenceNumber := by
  rw [numbered, KeyedList.lookup_eq_some_iff table.places_unique, mem_ofOperation, and_assoc]
  exact and_congr_right fun _ => Prod.ext_iff

/-- The number after the highest one is free, and it is not the first one of an operation
that has events. -/
theorem numbered_nextSequence :
    table.numbered operationId (table.nextSequence operationId) = none := by
  cases hrow : table.numbered operationId (table.nextSequence operationId) with
  | none => rfl
  | some row =>
      obtain ⟨hmem, hnumber⟩ := numbered_eq_some_iff.mp hrow
      cases hlatest : table.latest operationId with
      | none => rw [latest_eq_none_iff.mp hlatest] at hmem; cases hmem
      | some last =>
          have hle := (latest_eq_some_iff.mp hlatest).2 row hmem
          rw [hnumber, nextSequence, hlatest] at hle
          simp at hle

theorem nextSequence_nonneg (operationId : String) : 0 ≤ table.nextSequence operationId := by
  unfold nextSequence
  cases hlatest : table.latest operationId with
  | none => exact le_refl 0
  | some row =>
      have hmem := (mem_ofOperation.mp (latest_eq_some_iff.mp hlatest).1).1
      exact (table.numbers_nonneg row hmem).trans (by simp)

/-! ### Appending -/

variable {respects : names.Respects row} {next : EventTable names σ δ}

theorem insert_rows (h : table.insert row respects = .ok next) :
    next.rows = table.rows ++ [row] := by
  unfold insert at h
  split at h
  · split at h
    · cases h
    · cases h
      rfl
  · cases h

theorem insert_ofOperation (h : table.insert row respects = .ok next) (operationId : String) :
    next.ofOperation operationId = table.ofOperation operationId ++
      if row.operationId = operationId then [row] else [] := by
  rw [ofOperation, insert_rows h, List.filter_append]
  congr 1
  by_cases hrow : row.operationId = operationId
  · simp [hrow]
  · simp [hrow]

/-- The latest event after one is appended. -/
theorem latest_insert (h : table.insert row respects = .ok next) :
    next.latest row.operationId = some
      ((table.latest row.operationId).elim row fun last =>
        if last.sequenceNumber < row.sequenceNumber then row else last) := by
  have hrows := insert_ofOperation h row.operationId
  rw [if_pos rfl] at hrows
  rw [latest_eq_some_iff, hrows]
  cases hlatest : table.latest row.operationId with
  | none => simp [latest_eq_none_iff.mp hlatest]
  | some last =>
      obtain ⟨hmem, hhighest⟩ := latest_eq_some_iff.mp hlatest
      rw [Option.elim_some]
      split
      next hlt =>
        refine ⟨List.mem_append_right _ (List.mem_singleton_self row), ?_⟩
        intro other hother
        rcases List.mem_append.mp hother with hold | hnew
        · exact (hhighest other hold).trans hlt.le
        · rw [List.mem_singleton.mp hnew]
      next hle =>
        refine ⟨List.mem_append_left _ hmem, ?_⟩
        intro other hother
        rcases List.mem_append.mp hother with hold | hnew
        · exact hhighest other hold
        · rw [List.mem_singleton.mp hnew]
          exact not_lt.mp hle

/-- An event is appended exactly if its number is one of the column and nothing of it is
taken. -/
theorem insert_isOk_iff :
    (table.insert row respects).isOk = true ↔
      (0 ≤ row.sequenceNumber ∧ row.sequenceNumber < 2 ^ 31) ∧
        table.rows.any (fun other => other.clashes row) = false := by
  unfold insert
  split
  next hrange =>
    split
    next hclash => exact iff_of_false Bool.false_ne_true (by rw [hclash]; exact fun h => by cases h.2)
    next hclash => exact iff_of_true rfl ⟨hrange, Bool.eq_false_iff.mpr hclash⟩
  next hrange => exact iff_of_false Bool.false_ne_true fun h => hrange h.1

/-- Nothing of an event under its own name is taken when its number is free. -/
theorem named_not_clashes {n : ℤ} {state : σ} {detail : δ} {observedAt : Instant}
    (hfirst : names.first ≤ n) (hfree : table.numbered operationId n = none) :
    table.rows.any (fun other =>
      other.clashes (names.row operationId n state detail observedAt)) = false := by
  apply List.any_eq_false.mpr
  intro other hother hclashes
  have hplace : other.place = (operationId, n) := by
    rcases of_decide_eq_true hclashes with hid | hkey | hplace
    · exact table.named other hother operationId n hfirst (Or.inl hid)
    · exact table.named other hother operationId n hfirst (Or.inr hkey)
    · exact hplace
  exact KeyedList.lookup_eq_none_iff.mp hfree other hother hplace

/-- The next event of an operation is appended exactly if its number is one of the column. -/
theorem insert_next_isOk_iff {state : σ} {detail : δ} {observedAt : Instant}
    (hfirst : names.first ≤ table.nextSequence operationId) :
    (table.insert
        (names.row operationId (table.nextSequence operationId) state detail observedAt)
        (names.row_respects operationId _ state detail observedAt)).isOk = true ↔
      table.nextSequence operationId < 2 ^ 31 := by
  rw [insert_isOk_iff, and_iff_left (named_not_clashes hfirst numbered_nextSequence)]
  exact and_iff_right (nextSequence_nonneg operationId)

end EventTable

/-! ## Names -/

/-- A number has no colon in it. -/
theorem colon_not_mem_repr (n : ℤ) : ':' ∉ (Int.repr n).toList := by
  have hdigits (m : ℕ) : ':' ∉ (Nat.repr m).toList := by
    intro h
    rw [Nat.repr, String.toList_ofList] at h
    simpa using Nat.isDigit_of_mem_toDigits (by decide) (by decide) h
  cases n with
  | ofNat m => exact hdigits m
  | negSucc m =>
      intro h
      rw [Int.repr, String.toList_append] at h
      rcases List.mem_append.mp h with hsign | hrest
      · simp at hsign
      · exact hdigits _ hrest

/-- What stands before the last colon, and the number after it, are determined by the whole. -/
theorem numbered_inj {front a b : String} {n m : ℤ}
    (h : front ++ a ++ ":" ++ Int.repr n = front ++ b ++ ":" ++ Int.repr m) :
    (a, n) = (b, m) := by
  have hlist := congrArg String.toList h
  simp only [String.toList_append] at hlist
  rw [show ":".toList = [':'] from rfl, List.append_assoc _ [':'], List.append_assoc _ [':'],
    List.singleton_append, List.singleton_append] at hlist
  obtain ⟨hfront, hnumber⟩ := Text.append_cons_inj_of_not_mem (colon_not_mem_repr n)
    (colon_not_mem_repr m) hlist
  rw [String.toList_injective (List.append_cancel_left hfront),
    Int.repr_inj.mp (String.toList_injective hnumber)]

/-- The event an order is recorded with has the number zero and another name. -/
def reconciliationNames : EventNames where
  first := 1
  id operationId n := "reconciliation-event:" ++ operationId ++ ":" ++ Int.repr n
  idempotencyKey operationId n := "reconciliation:" ++ operationId ++ ":" ++ Int.repr n
  id_injective := numbered_inj
  key_injective := numbered_inj

theorem cancelled_inj {front a b : String} {n m : ℤ}
    (h : front ++ (a ++ ":cancelled") ++ ":" ++ Int.repr n =
      front ++ (b ++ ":cancelled") ++ ":" ++ Int.repr m) : (a, n) = (b, m) := by
  obtain ⟨hoperation, rfl⟩ := Prod.ext_iff.mp (numbered_inj h)
  have hlist := congrArg String.toList hoperation
  rw [String.toList_append, String.toList_append] at hlist
  rw [String.toList_injective (List.append_cancel_right hlist)]

/-- The cancellations among the states of an order. -/
def cancellationNames : EventNames where
  first := 0
  id operationId n := "lifecycle-event:" ++ (operationId ++ ":cancelled") ++ ":" ++ Int.repr n
  idempotencyKey operationId n :=
    "lifecycle:" ++ (operationId ++ ":cancelled") ++ ":" ++ Int.repr n
  id_injective := cancelled_inj
  key_injective := cancelled_inj

/-! ## The tables of orders -/

/-- An order with the columns that only reading it back and reconciling it use. -/
structure OrderRow extends OperationRow where
  cashAmountMicros : Option ℤ
  contractUnits : Option ℤ
  createdAt : Instant
  stateVersion : ℤ
  updatedAt : Instant
  deriving DecidableEq

namespace OrderRow

/-- `UPDATE order_operation_current`. -/
def moved (row : OrderRow) (state : OrderState) (reconciliation : ReconciliationState)
    (updatedAt : Instant) : OrderRow :=
  { row with
    state := state
    reconciliationState := reconciliation
    stateVersion := row.stateVersion + 1
    updatedAt := updatedAt }

/-- `ORDER BY agent_id, id`. -/
def precedes (first second : OrderRow) : Bool :=
  first.agentId < second.agentId ∨ first.agentId = second.agentId ∧ first.id ≤ second.id

end OrderRow

abbrev LifecycleTable := EventTable cancellationNames OrderState (Option String)

abbrev ReconciliationTable := EventTable reconciliationNames ReconciliationState Json

/-- The tables with the events of the orders. -/
@[ext]
structure OrderTables where
  db : Database
  orders : List OrderRow
  lifecycleEvents : LifecycleTable
  reconciliationEvents : ReconciliationTable
  orders_unique : (orders.map fun row => row.id).Nodup
  operations_eq : db.operations = orders.map OrderRow.toOperationRow

namespace OrderTables

variable (texts : JsonTexts) (tables : OrderTables)

def order (operationId : String) : Option OrderRow :=
  KeyedList.lookup (fun row : OrderRow => row.id) operationId tables.orders

variable {tables} in
theorem mem_of_order {operationId : String} {row : OrderRow}
    (h : tables.order operationId = some row) : row ∈ tables.orders ∧ row.id = operationId :=
  (KeyedList.lookup_eq_some_iff tables.orders_unique).mp h

variable {tables} in
theorem order_of_mem {row : OrderRow} (h : row ∈ tables.orders) :
    tables.order row.id = some row :=
  (KeyedList.lookup_eq_some_iff tables.orders_unique).mpr ⟨h, rfl⟩

def hasFills (operationId : String) : Bool :=
  tables.db.fills.any fun row => row.operationId = operationId

/-- Change an operation of an agent in place. -/
def moveOrder (operationId agentId : String) (state : OrderRow → OrderState)
    (reconciliation : ReconciliationState) (updatedAt : Instant) : OrderTables :=
  let orders := tables.orders.map fun row =>
    if row.id = operationId ∧ row.agentId = agentId then
      row.moved (state row) reconciliation updatedAt
    else row
  { tables with
    db := { tables.db with operations := orders.map OrderRow.toOperationRow }
    orders := orders
    orders_unique := by
      have hids : orders.map (fun row => row.id) = tables.orders.map fun row => row.id := by
        rw [List.map_map]
        apply List.map_congr_left
        intro row _
        rw [Function.comp_apply]
        split
        · rfl
        · rfl
      rw [hids]
      exact tables.orders_unique
    operations_eq := rfl }

/-- An order after one is changed in place. -/
theorem order_moveOrder (operationId agentId : String) (state : OrderRow → OrderState)
    (reconciliation : ReconciliationState) (updatedAt : Instant) (other : String) :
    (tables.moveOrder operationId agentId state reconciliation updatedAt).order other =
      (tables.order other).map fun row =>
        if row.id = operationId ∧ row.agentId = agentId then
          row.moved (state row) reconciliation updatedAt
        else row := by
  unfold order moveOrder
  rw [KeyedList.lookup_map]
  congr 2
  funext row
  rw [Function.comp_apply]
  split
  · rfl
  · rfl

/-- Append an event to what was found out about an order. -/
def insertReconciliationEvent (operationId : String) (n : ℤ) (state : ReconciliationState)
    (evidence : JsonObject) (observedAt : Instant) : Except Raised OrderTables :=
  if tables.order operationId = none then
    .error (.databaseError "order_reconciliation_events_operation_id_fkey")
  else do
    let events ← tables.reconciliationEvents.insert
      (reconciliationNames.row operationId n state (Json.object evidence).jsonb observedAt)
      (reconciliationNames.row_respects operationId n state _ observedAt)
    .ok { tables with reconciliationEvents := events }

/-- Append a cancellation to the states of an order. -/
def insertCancellation (operationId : String) (n : ℤ) (reason : String) (observedAt : Instant) :
    Except Raised OrderTables :=
  if tables.order operationId = none then
    .error (.databaseError "order_lifecycle_events_operation_id_fkey")
  else do
    let events ← tables.lifecycleEvents.insert
      (cancellationNames.row operationId n .cancelled (some reason) observedAt)
      (cancellationNames.row_respects operationId n _ _ observedAt)
    .ok { tables with lifecycleEvents := events }

variable {tables} in
theorem insertReconciliationEvent_eq {operationId : String} {row : OrderRow}
    (h : tables.order operationId = some row) (n : ℤ) (state : ReconciliationState)
    (evidence : JsonObject) (observedAt : Instant) :
    tables.insertReconciliationEvent operationId n state evidence observedAt =
      (tables.reconciliationEvents.insert
        (reconciliationNames.row operationId n state (Json.object evidence).jsonb observedAt)
        (reconciliationNames.row_respects operationId n state _ observedAt)).map
          fun events => { tables with reconciliationEvents := events } := by
  rw [insertReconciliationEvent, if_neg (by rw [h]; exact fun h => by cases h)]
  rfl

variable {tables} in
theorem insertCancellation_eq {operationId : String} {row : OrderRow}
    (h : tables.order operationId = some row) (n : ℤ) (reason : String) (observedAt : Instant) :
    tables.insertCancellation operationId n reason observedAt =
      (tables.lifecycleEvents.insert
        (cancellationNames.row operationId n .cancelled (some reason) observedAt)
        (cancellationNames.row_respects operationId n _ _ observedAt)).map
          fun events => { tables with lifecycleEvents := events } := by
  rw [insertCancellation, if_neg (by rw [h]; exact fun h => by cases h)]
  rfl

/-! ## Later observations -/

/-- Append and project one later terminal reconciliation observation. -/
def persistReconciliationEvent (operationId agentId : String) (sequenceNumber : ℤ)
    (state : ReconciliationState) (evidence : JsonObject) (observedAt : Instant) :
    Except Raised (OrderTables × PersistenceResult) :=
  if sequenceNumber < 0 then
    .error (.valueError "reconciliation sequence cannot be negative")
  else
    match tables.reconciliationEvents.numbered operationId sequenceNumber with
    | some existing => do
        let stored ← texts.storedEvidence existing.detail
        if texts.digest (.object stored) ≠ texts.digest (.object evidence) then
          .error (.valueError "reconciliation sequence was reused with divergent evidence")
        else .ok (tables, ⟨existing.id, false⟩)
    | none => do
        let inserted ← tables.insertReconciliationEvent operationId sequenceNumber state evidence
          observedAt
        .ok (inserted.moveOrder operationId agentId (fun row => row.state) state observedAt,
          ⟨reconciliationNames.id operationId sequenceNumber, true⟩)

/-! ## Automatic reconciliation -/

/-- What an order is cancelled on. -/
def cancellationEvidence (row : OrderRow) : JsonObject := [
  ("automatic", .bool true),
  ("submission_state", .text SubmissionState.notSubmitted.value),
  ("venue_submission_occurred", .bool false),
  ("cancelled_contract_units", row.contractUnits.elim .null .int),
  ("cancelled_cash_amount_micros", row.cashAmountMicros.elim .null .int)]

/-- Whether the latest evidence of an order says that it was not submitted. -/
def notSubmitted (operationId : String) : Bool :=
  let evidence := (tables.reconciliationEvents.latest operationId).elim [] fun row =>
    texts.jsonMapping row.detail
  (Json.get evidence "submission_state").any
    (Json.isText SubmissionState.notSubmitted.value)

/-- Cancel an order that was not submitted. -/
def cancelNotSubmitted (row : OrderRow) (now : Instant) : Except Raised OrderTables := do
  let resolved ← tables.insertReconciliationEvent row.id
    (tables.reconciliationEvents.nextSequence row.id) .resolved (cancellationEvidence row) now
  let cancelled ← resolved.insertCancellation row.id
    (resolved.lifecycleEvents.nextSequence row.id) "automatic reconciliation: NOT_SUBMITTED" now
  .ok (cancelled.moveOrder row.id row.agentId (fun _ => .cancelled) .resolved now)

/-- What is done about one candidate: it is cancelled, or its agent is noted. -/
def reconcileCandidate (now : Instant) (tables : OrderTables) (unresolvedAgents : List String)
    (candidate : OrderRow) : Except Raised (OrderTables × List String) :=
  match (tables.order candidate.id).filter fun row => row.agentId = candidate.agentId with
  | none => .ok (tables, unresolvedAgents)
  | some current =>
      if ¬ current.unresolved then .ok (tables, unresolvedAgents)
      else if current.state ≠ .pending ∨ current.reconciliationState ≠ .required then
        .ok (tables, candidate.agentId :: unresolvedAgents)
      else if tables.hasFills candidate.id then
        .ok (tables, candidate.agentId :: unresolvedAgents)
      else if ¬ tables.notSubmitted texts candidate.id then
        .ok (tables, candidate.agentId :: unresolvedAgents)
      else do
        let cancelled ← tables.cancelNotSubmitted current now
        .ok (cancelled, unresolvedAgents)

/-- The orders that wait for reconciliation. -/
def candidates : List OrderRow :=
  (tables.orders.filter fun row => row.unresolved).insertionSort fun first second =>
    first.precedes second

/-- Cancel only pending operations explicitly proven not to be submitted. -/
def reconcileNotSubmittedOperations (now : Instant) :
    Except Raised (OrderTables × List String) := do
  let (reconciled, unresolvedAgents) ← tables.candidates.foldlM
    (fun state candidate => reconcileCandidate texts now state.1 state.2 candidate) (tables, [])
  .ok (reconciled, unresolvedAgents.dedup.insertionSort fun first second => first ≤ second)

end OrderTables

end VTrade
