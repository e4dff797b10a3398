/-
# Retaining and deleting the objects of artifacts

The content of an artifact is put into the object store by the digest of its content, and the
inventory registers it with a date until which it is retained.  Cleaners claim the rows whose date
has passed, delete their objects and record the deletion.  The put, the registration, the claim,
the deletion and its completion are steps of their own, and those of several parties interleave.
-/

import VTrade.ArtifactRegistration
import VTrade.Lib.Checks
import VTrade.Lib.KeyedList
import Mathlib.Data.List.Sort

namespace VTrade

/-- What registering an artifact raises. -/
inductive RetentionFailure
  | valueError (message : String)
  | overflowError
  /-- A CHECK of the inventory refuses the row. -/
  | checkViolation
  deriving DecidableEq

/-- The year and the month that are six months after a month. -/
def sixMonthsAfter (year month : ℕ) : ℕ × ℕ :=
  (year + (month + 5) / 12, (month + 5) % 12 + 1)

theorem sixMonthsAfter_valid {year month day : ℕ} (hdate : 1 ≤ year ∧ 1 ≤ day)
    (h : ¬ ((sixMonthsAfter year month).1 = 10000 ∨
      (sixMonthsAfter year month).1 = 9999 ∧ (sixMonthsAfter year month).2 = 12))
    (hyear : year ≤ 9999) (hmonth : month ≤ 12) :
    1 ≤ (sixMonthsAfter year month).1 ∧ (sixMonthsAfter year month).1 ≤ 9999 ∧
      1 ≤ (sixMonthsAfter year month).2 ∧ (sixMonthsAfter year month).2 ≤ 12 ∧
      1 ≤ min day (daysInMonth (sixMonthsAfter year month).1 (sixMonthsAfter year month).2) ∧
      min day (daysInMonth (sixMonthsAfter year month).1 (sixMonthsAfter year month).2) ≤
        daysInMonth (sixMonthsAfter year month).1 (sixMonthsAfter year month).2 := by
  have hdays : ∀ year month, 1 ≤ daysInMonth year month := by
    intro year month
    unfold daysInMonth
    split
    · split <;> decide
    · split <;> decide
  unfold sixMonthsAfter at h ⊢
  have hleast := hdays (year + (month + 5) / 12) ((month + 5) % 12 + 1)
  dsimp only at h ⊢
  omega

/-- `six_month_retain_until`. -/
def sixMonthRetainUntil (createdAt : Instant) : Except RetentionFailure Instant :=
  match Datetime.utc createdAt with
  | none => .error .overflowError
  | some createdAt =>
      if h : (sixMonthsAfter createdAt.year createdAt.month).1 = 10000 ∨
          (sixMonthsAfter createdAt.year createdAt.month).1 = 9999 ∧
            (sixMonthsAfter createdAt.year createdAt.month).2 = 12 then
        .error (.valueError "year 10000 is out of range")
      else
        .ok { createdAt with
          year := (sixMonthsAfter createdAt.year createdAt.month).1
          month := (sixMonthsAfter createdAt.year createdAt.month).2
          day := min createdAt.day (daysInMonth (sixMonthsAfter createdAt.year createdAt.month).1
            (sixMonthsAfter createdAt.year createdAt.month).2)
          date_valid := sixMonthsAfter_valid
            ⟨createdAt.date_valid.1, createdAt.date_valid.2.2.2.2.1⟩ h createdAt.date_valid.2.1
            createdAt.date_valid.2.2.2.1 : Datetime }.instant

/-- An artifact that a stage hands in for registration. -/
structure ArtifactRegistration where
  uri : String
  sha256 : Sha256
  byteLength : ℕ
  retainUntil : Instant
  uri_ne_empty : uri ≠ ""

/-- The identifiers of inventory rows: drawn at random, or named after the location. -/
inductive InventoryId
  | uuid4 (n : ℕ)
  | uuid5 (name : String)
  deriving DecidableEq

inductive ArtifactStatus
  | active
  | deleting
  | deleted
  deriving DecidableEq

/-- A row of `artifact_inventory`. -/
structure ArtifactInventoryRow where
  id : InventoryId
  uri : String
  sha256 : Sha256
  byteLength : ℕ
  retainUntil : Instant
  status : ArtifactStatus
  leaseOwner : Option String
  leaseExpiresAt : Option Instant
  deletionAttempts : ℕ
  deletionError : Option String
  deletedAt : Option Instant
  createdAt : Instant

/-- The inventory: no location and no identifier twice. -/
structure ArtifactInventory where
  rows : List ArtifactInventoryRow
  /-- How many random identifiers have been drawn. -/
  drawn : ℕ
  uri_unique : (rows.map ArtifactInventoryRow.uri).Nodup
  id_unique : (rows.map ArtifactInventoryRow.id).Nodup
  id_known : ∀ row ∈ rows, row.id = .uuid5 row.uri ∨ ∃ n < drawn, row.id = .uuid4 n

namespace ArtifactInventory

variable (inventory : ArtifactInventory)

/-- The row of a location. -/
def row? (uri : String) : Option ArtifactInventoryRow :=
  KeyedList.lookup ArtifactInventoryRow.uri uri inventory.rows

theorem row?_eq_some {inventory : ArtifactInventory} {uri : String} {row : ArtifactInventoryRow} :
    inventory.row? uri = some row ↔ row ∈ inventory.rows ∧ row.uri = uri :=
  KeyedList.lookup_eq_some_iff inventory.uri_unique

/-- The row an artifact is registered as when its location is new.  The run of a harness is
`persisted` under the name of the location. -/
def newRow (persisted : Bool) (artifact : ArtifactRegistration) (retainUntil createdAt : Instant) :
    ArtifactInventoryRow where
  id := if persisted then .uuid5 artifact.uri else .uuid4 inventory.drawn
  uri := artifact.uri
  sha256 := artifact.sha256
  byteLength := artifact.byteLength
  retainUntil := retainUntil
  status := .active
  leaseOwner := none
  leaseExpiresAt := none
  deletionAttempts := 0
  deletionError := none
  deletedAt := none
  createdAt := createdAt

/-- The row of a location that is registered again. -/
def conflictRow (persisted : Bool) (artifact : ArtifactRegistration) (retainUntil : Instant)
    (row : ArtifactInventoryRow) : ArtifactInventoryRow :=
  { row with
    retainUntil := max row.retainUntil retainUntil
    byteLength := if persisted then artifact.byteLength else row.byteLength
    status := .active
    leaseOwner := none
    leaseExpiresAt := none
    deletionError := none
    deletedAt := none }

/-- The row that is written for an artifact. -/
def writtenRow (persisted : Bool) (artifact : ArtifactRegistration)
    (retainUntil createdAt : Instant) : ArtifactInventoryRow :=
  (inventory.row? artifact.uri).elim (inventory.newRow persisted artifact retainUntil createdAt)
    (conflictRow persisted artifact retainUntil)

theorem writtenRow_uri (persisted : Bool) (artifact : ArtifactRegistration)
    (retainUntil createdAt : Instant) :
    (inventory.writtenRow persisted artifact retainUntil createdAt).uri = artifact.uri := by
  unfold writtenRow
  cases h : inventory.row? artifact.uri with
  | none => rfl
  | some row => exact (row?_eq_some.mp h).2

theorem id_unique_upsert (persisted : Bool) (artifact : ArtifactRegistration)
    (retainUntil createdAt : Instant) :
    ((KeyedList.upsert ArtifactInventoryRow.uri
      (inventory.writtenRow persisted artifact retainUntil createdAt) inventory.rows).map
        ArtifactInventoryRow.id).Nodup := by
  have huri := inventory.writtenRow_uri persisted artifact retainUntil createdAt
  cases h : inventory.row? artifact.uri with
  | some row =>
      have hold : KeyedList.lookup ArtifactInventoryRow.uri
          (inventory.writtenRow persisted artifact retainUntil createdAt).uri inventory.rows =
            some row := by
        rw [huri]
        exact h
      have hid : (inventory.writtenRow persisted artifact retainUntil createdAt).id = row.id := by
        rw [writtenRow, h]
        rfl
      rw [KeyedList.map_upsert_of_lookup hold hid]
      exact inventory.id_unique
  | none =>
      have hnew : ∀ other ∈ inventory.rows, other.uri ≠ artifact.uri :=
        KeyedList.lookup_eq_none_iff.mp h
      rw [KeyedList.upsert_eq_append (by rw [huri]; exact hnew), List.map_append,
        List.nodup_append]
      refine ⟨inventory.id_unique, List.nodup_singleton _, ?_⟩
      intro id hid other hother
      obtain ⟨row, hrow, rfl⟩ := List.mem_map.mp hid
      rw [List.mem_singleton.mp hother, writtenRow, h]
      dsimp only [Option.elim_none, newRow]
      intro hsame
      rcases inventory.id_known row hrow with hname | ⟨n, hn, hdrawn⟩
      · cases persisted with
        | true => exact hnew row hrow (by simpa [hname] using hsame)
        | false => simp [hname] at hsame
      · cases persisted with
        | true => simp [hdrawn] at hsame
        | false =>
            have hn' : n = inventory.drawn := by simpa [hdrawn] using hsame
            omega

/-- `INSERT INTO artifact_inventory … ON CONFLICT (uri) DO UPDATE`. -/
def upsert (persisted : Bool) (artifact : ArtifactRegistration) (retainUntil createdAt : Instant) :
    ArtifactInventory where
  rows := KeyedList.upsert ArtifactInventoryRow.uri
    (inventory.writtenRow persisted artifact retainUntil createdAt) inventory.rows
  drawn := if persisted then inventory.drawn else inventory.drawn + 1
  uri_unique := KeyedList.nodup_upsert inventory.uri_unique _
  id_unique := inventory.id_unique_upsert persisted artifact retainUntil createdAt
  id_known := by
    intro row hrow
    have hdrawn : inventory.drawn ≤ if persisted then inventory.drawn else inventory.drawn + 1 := by
      split <;> omega
    rcases KeyedList.mem_upsert hrow with rfl | hrow
    · unfold writtenRow
      cases h : inventory.row? artifact.uri with
      | none =>
          cases persisted with
          | true => exact .inl rfl
          | false => exact .inr ⟨inventory.drawn, Nat.lt_succ_self _, rfl⟩
      | some old =>
          obtain ⟨hmem, -⟩ := row?_eq_some.mp h
          exact (inventory.id_known old hmem).imp id
            fun ⟨n, hn, hid⟩ => ⟨n, hn.trans_le hdrawn, hid⟩
    · exact (inventory.id_known row hrow).imp id
        fun ⟨n, hn, hid⟩ => ⟨n, hn.trans_le hdrawn, hid⟩

/-- The date until which `_register_artifact` retains an artifact. -/
def effectiveRetainUntil (scheduledAt createdAt : Instant) (artifact : ArtifactRegistration) :
    Except RetentionFailure Instant := do
  let minimum ← sixMonthRetainUntil scheduledAt
  if artifact.retainUntil < minimum then
    .error (.valueError "runtime artifacts must be retained for at least six calendar months")
  else
    let least ← sixMonthRetainUntil createdAt
    .ok (max artifact.retainUntil least)

/-- `_register_artifact`. -/
def registerArtifact (scheduledAt createdAt : Instant) (inventory : ArtifactInventory)
    (artifact : ArtifactRegistration) : Except RetentionFailure ArtifactInventory :=
  (effectiveRetainUntil scheduledAt createdAt artifact).map
    fun retainUntil => inventory.upsert false artifact retainUntil createdAt

/-- The date until which the run of a harness retains an artifact, as the CHECK of the inventory
lets it. -/
def persistedRetainUntil (completedAt : Instant) (artifact : ArtifactRegistration) :
    Except RetentionFailure Instant := do
  let least ← sixMonthRetainUntil completedAt
  if artifact.retainUntil < least then .error .checkViolation else .ok artifact.retainUntil

/-- The registration of an artifact in `persist_run`. -/
def persistArtifact (completedAt : Instant) (inventory : ArtifactInventory)
    (artifact : ArtifactRegistration) : Except RetentionFailure ArtifactInventory :=
  (persistedRetainUntil completedAt artifact).map
    fun retainUntil => inventory.upsert true artifact retainUntil completedAt

/-- An inventory whose rows are rewritten, each for the same location and identifier. -/
def rewrite (write : ArtifactInventoryRow → ArtifactInventoryRow)
    (huri : ∀ row, (write row).uri = row.uri) (hid : ∀ row, (write row).id = row.id) :
    ArtifactInventory where
  rows := inventory.rows.map write
  drawn := inventory.drawn
  uri_unique := by
    rw [List.map_map, show ArtifactInventoryRow.uri ∘ write = ArtifactInventoryRow.uri from
      funext huri]
    exact inventory.uri_unique
  id_unique := by
    rw [List.map_map, show ArtifactInventoryRow.id ∘ write = ArtifactInventoryRow.id from
      funext hid]
    exact inventory.id_unique
  id_known := by
    intro row hrow
    obtain ⟨old, hold, rfl⟩ := List.mem_map.mp hrow
    rw [huri, hid]
    exact inventory.id_known old hold

end ArtifactInventory

/-- What a cleaner is handed for a row that it has claimed. -/
structure ExpiredArtifact where
  inventoryId : InventoryId
  uri : String
  sha256 : Sha256
  deriving DecidableEq

namespace ArtifactInventoryRow

/-- The WHERE clause of `claim_expired_artifacts`. -/
def Expired (now : Instant) (row : ArtifactInventoryRow) : Prop :=
  (row.status = .active ∧ row.retainUntil ≤ now) ∨
    (row.status = .deleting ∧ ∃ expiry ∈ row.leaseExpiresAt, expiry ≤ now)

instance (now : Instant) (row : ArtifactInventoryRow) : Decidable (row.Expired now) := by
  unfold Expired
  infer_instance

/-- The row as a cleaner claims it. -/
def claimed (now : Instant) (leaseOwner : String) (row : ArtifactInventoryRow) :
    ArtifactInventoryRow :=
  { row with
    status := .deleting
    leaseOwner := some leaseOwner
    -- Ten minutes.
    leaseExpiresAt := some (now + 600000000)
    deletionAttempts := row.deletionAttempts + 1 }

/-- The row as the deletion of its object is recorded. -/
def completed (now : Instant) (error : Option String) (row : ArtifactInventoryRow) :
    ArtifactInventoryRow :=
  match error with
  | none =>
      { row with
        status := .deleted
        deletedAt := some now
        leaseOwner := none
        leaseExpiresAt := none
        deletionError := none }
  | some error =>
      { row with
        status := .active
        leaseOwner := none
        leaseExpiresAt := none
        deletionError := some (String.ofList (error.toList.take 4000)) }

end ArtifactInventoryRow

namespace ArtifactInventory

variable (inventory : ArtifactInventory)

/-- The rows that a claim finds: rows that another transaction has locked are skipped. -/
def expiredRows (now : Instant) (limit : ℤ) (locked : List InventoryId) :
    List ArtifactInventoryRow :=
  ((inventory.rows.filter fun row => row.Expired now ∧ row.id ∉ locked).mergeSort
    fun first second => first.retainUntil ≤ second.retainUntil).take limit.toNat

/-- `claim_expired_artifacts`. -/
def claimExpiredArtifacts (now : Instant) (leaseOwner : String) (limit : ℤ)
    (locked : List InventoryId) : ArtifactInventory × List ExpiredArtifact :=
  if leaseOwner = "" ∨ limit ≤ 0 then (inventory, [])
  else
    let rows := inventory.expiredRows now limit locked
    (inventory.rewrite
        (fun row => if row.id ∈ rows.map ArtifactInventoryRow.id then row.claimed now leaseOwner
          else row)
        (fun row => by split <;> rfl) (fun row => by split <;> rfl),
      rows.map fun row => ⟨row.id, row.uri, row.sha256⟩)

theorem completed_uri (now : Instant) (error : Option String) (row : ArtifactInventoryRow) :
    (row.completed now error).uri = row.uri := by
  cases error <;> rfl

theorem completed_id (now : Instant) (error : Option String) (row : ArtifactInventoryRow) :
    (row.completed now error).id = row.id := by
  cases error <;> rfl

/-- `complete_artifact_deletion`. -/
def completeArtifactDeletion (artifact : ExpiredArtifact) (now : Instant) (error : Option String) :
    ArtifactInventory :=
  inventory.rewrite
    (fun row => if row.id = artifact.inventoryId ∧ row.status = .deleting then
      row.completed now error else row)
    (fun row => by split <;> simp [completed_uri])
    (fun row => by split <;> simp [completed_id])

end ArtifactInventory

/-! ## The parties -/

/-- What the object store answers to the deletion of an object.  An error is the text that
`redact_runtime_error` makes of it. -/
inductive DeletionAnswer
  | deleted
  | refused (error : String)
  /-- The object is deleted, and the answer is lost. -/
  | lost (error : String)

/-- Where a cleaner is in its `run_once`. -/
inductive CleanerPhase
  | idle
  /-- The object of an artifact is to be deleted. -/
  | deleting (artifact : ExpiredArtifact) (rest : List ExpiredArtifact)
  /-- Its deletion is to be recorded. -/
  | completing (artifact : ExpiredArtifact) (error : Option String) (rest : List ExpiredArtifact)

namespace CleanerPhase

/-- A cleaner that has artifacts to delete. -/
def next : List ExpiredArtifact → CleanerPhase
  | [] => .idle
  | artifact :: rest => .deleting artifact rest

/-- The artifacts whose objects a cleaner is still to delete. -/
def held : CleanerPhase → List ExpiredArtifact
  | .idle => []
  | .deleting artifact rest => artifact :: rest
  | .completing _ _ rest => rest

theorem held_next (artifacts : List ExpiredArtifact) : (next artifacts).held = artifacts := by
  cases artifacts <;> rfl

end CleanerPhase

/-- A step of one of the parties. -/
inductive RetentionEvent
  /-- `put` of a content. -/
  | put (content : List UInt8)
  /-- The registrations of `complete_stage`, in one transaction. -/
  | completeStage (scheduledAt : Instant) (artifacts : List ArtifactRegistration)
  /-- The registrations of `persist_run`, in one transaction. -/
  | persistRun (artifacts : List ArtifactRegistration)
  /-- A cleaner begins a `run_once`, be it that an earlier one was cut off. -/
  | claim (cleaner : ℕ) (leaseOwner : String) (limit : ℤ) (locked : List InventoryId)
  | delete (cleaner : ℕ) (answer : DeletionAnswer)
  | complete (cleaner : ℕ)

/-- A step with the reading of the clock of the party that takes it. -/
structure TimedRetentionEvent where
  now : Instant
  event : RetentionEvent

/-- The inventory, the object store and the cleaners. -/
structure Retention where
  inventory : ArtifactInventory
  /-- The locations of the store whose object has been deleted and not been put again. -/
  deletedObjects : List String
  cleaners : ℕ → CleanerPhase
  /-- The latest reading of any clock. -/
  now : Instant

namespace Retention

/-- No artifact has been registered, and no cleaner has begun. -/
def start (began : Instant) : Retention :=
  ⟨⟨[], 0, List.nodup_nil, List.nodup_nil, by simp⟩, [], fun _ => .idle, began⟩

variable (store : ArtifactStore) (world : Retention)

/-- `delete` of the object store: whether the object is deleted, and what is raised. -/
def deleteObject (artifact : ExpiredArtifact) (answer : DeletionAnswer) : Bool × Option String :=
  if artifact.uri ≠ store.location artifact.sha256 then
    (false, some
      "ValueError: artifact URI does not match the configured bucket and SHA path")
  else
    match answer with
    | .deleted => (true, none)
    | .refused error => (false, some error)
    | .lost error => (true, some error)

/-- A step of one of the parties. -/
def step (timed : TimedRetentionEvent) : Retention × Except RetentionFailure Unit :=
  let later := { world with now := max world.now timed.now }
  match timed.event with
  | .put content =>
      ({ later with deletedObjects :=
        world.deletedObjects.filter (· ≠ store.location (store.sha256 content)) }, .ok ())
  | .completeStage scheduledAt artifacts =>
      match artifacts.foldlM (ArtifactInventory.registerArtifact scheduledAt timed.now)
        world.inventory with
      | .error failure => (later, .error failure)
      | .ok inventory => ({ later with inventory := inventory }, .ok ())
  | .persistRun artifacts =>
      match artifacts.foldlM (ArtifactInventory.persistArtifact timed.now) world.inventory with
      | .error failure => (later, .error failure)
      | .ok inventory => ({ later with inventory := inventory }, .ok ())
  | .claim cleaner leaseOwner limit locked =>
      let (inventory, expired) :=
        world.inventory.claimExpiredArtifacts timed.now leaseOwner limit locked
      ({ later with
        inventory := inventory
        cleaners := Function.update world.cleaners cleaner (.next expired) }, .ok ())
  | .delete cleaner answer =>
      match world.cleaners cleaner with
      | .deleting artifact rest =>
          let (deleted, error) := deleteObject store artifact answer
          ({ later with
            deletedObjects := if deleted then artifact.uri :: world.deletedObjects
              else world.deletedObjects
            cleaners := Function.update world.cleaners cleaner (.completing artifact error rest) },
            .ok ())
      | .idle | .completing _ _ _ => (later, .ok ())
  | .complete cleaner =>
      match world.cleaners cleaner with
      | .completing artifact error rest =>
          ({ later with
            inventory := world.inventory.completeArtifactDeletion artifact timed.now error
            cleaners := Function.update world.cleaners cleaner (.next rest) }, .ok ())
      | .idle | .deleting _ _ => (later, .ok ())

/-- A row is active with a retention date in the future, and its object has been deleted. -/
def Lost : Prop :=
  ∃ row ∈ world.inventory.rows, row.status = .active ∧ world.now < row.retainUntil ∧
    row.uri ∈ world.deletedObjects

instance : Decidable world.Lost := by
  unfold Lost
  infer_instance

end Retention

/-! ## What a step does -/

/-- The dates of a location among some registrations. -/
def ArtifactInventory.datesAmong (registered : List (ArtifactRegistration × Instant)) (uri : String) :
    List Instant :=
  (registered.filter fun entry => entry.1.uri = uri).map Prod.snd

namespace TimedRetentionEvent

variable (store : ArtifactStore) (timed : TimedRetentionEvent)

/-- The artifacts that a step registers, each with the date until which it is retained. -/
def registers : List (ArtifactRegistration × Instant) :=
  match timed.event with
  | .completeStage scheduledAt artifacts =>
      (artifacts.mapM fun artifact => (ArtifactInventory.effectiveRetainUntil scheduledAt timed.now
        artifact).map (Prod.mk artifact)).toOption.getD []
  | .persistRun artifacts =>
      (artifacts.mapM fun artifact => (ArtifactInventory.persistedRetainUntil timed.now
        artifact).map (Prod.mk artifact)).toOption.getD []
  | .put _ | .claim _ _ _ _ | .delete _ _ | .complete _ => []

/-- The dates until which a step registers the artifacts of a location. -/
def dates (uri : String) : List Instant :=
  ArtifactInventory.datesAmong timed.registers uri

/-- The location that a step puts an object at. -/
def putUri : Option String :=
  match timed.event with
  | .put content => some (store.location (store.sha256 content))
  | .completeStage _ _ | .persistRun _ | .claim _ _ _ _ | .delete _ _ | .complete _ => none

/-- The cleaner that a step claims rows for. -/
def claims : Option ℕ :=
  match timed.event with
  | .claim cleaner _ _ _ => some cleaner
  | .put _ | .completeStage _ _ | .persistRun _ | .delete _ _ | .complete _ => none

/-- The cleaner whose deletion takes effect in a step, and the location whose object it deletes. -/
def emptied (world : Retention) : Option (ℕ × String) :=
  match timed.event with
  | .delete cleaner answer =>
      match world.cleaners cleaner with
      | .deleting artifact _ =>
          if (Retention.deleteObject store artifact answer).1 then some (cleaner, artifact.uri)
          else none
      | .idle | .completing _ _ _ => none
  | .put _ | .completeStage _ _ | .persistRun _ | .claim _ _ _ _ | .complete _ => none

end TimedRetentionEvent

namespace ArtifactInventory

/-- What registering a location with some dates leaves of its row. -/
structure Registered (dates : List Instant) (before : Option ArtifactInventoryRow)
    (row : ArtifactInventoryRow) : Prop where
  active : row.status = .active
  dates_le : ∀ date ∈ dates, date ≤ row.retainUntil
  before_le : ∀ old ∈ before, old.retainUntil ≤ row.retainUntil
  date : row.retainUntil ∈ dates ∨ ∃ old ∈ before, row.retainUntil = old.retainUntil

/-- Registrations of a location, one after the other. -/
theorem Registered.trans {first second : List Instant} {before : Option ArtifactInventoryRow}
    {middle row : ArtifactInventoryRow} (hfirst : Registered first before middle)
    (hsecond : Registered second (some middle) row) : Registered (first ++ second) before row := by
  have hle := hsecond.before_le middle rfl
  refine ⟨hsecond.active, fun date hdate => ?_, fun old hold => (hfirst.before_le old hold).trans hle,
    ?_⟩
  · rcases List.mem_append.mp hdate with hdate | hdate
    · exact (hfirst.dates_le date hdate).trans hle
    · exact hsecond.dates_le date hdate
  · rcases hsecond.date with hdate | ⟨old, hold, hsame⟩
    · exact .inl (List.mem_append_right _ hdate)
    · cases hold
      rw [hsame]
      exact hfirst.date.imp_left (List.mem_append_left _)

theorem row?_upsert_self (inventory : ArtifactInventory) (persisted : Bool)
    (artifact : ArtifactRegistration) (retainUntil createdAt : Instant) :
    (inventory.upsert persisted artifact retainUntil createdAt).row? artifact.uri =
      some (inventory.writtenRow persisted artifact retainUntil createdAt) := by
  have huri := inventory.writtenRow_uri persisted artifact retainUntil createdAt
  unfold row? upsert
  rw [← huri]
  exact KeyedList.lookup_upsert_self _ _

theorem row?_upsert_of_ne (inventory : ArtifactInventory) (persisted : Bool)
    {artifact : ArtifactRegistration} {uri : String} (h : uri ≠ artifact.uri)
    (retainUntil createdAt : Instant) :
    (inventory.upsert persisted artifact retainUntil createdAt).row? uri = inventory.row? uri := by
  have huri := inventory.writtenRow_uri persisted artifact retainUntil createdAt
  apply KeyedList.lookup_upsert_of_ne
  rw [huri]
  exact h

/-- One registration of a location. -/
theorem registered_upsert (inventory : ArtifactInventory) (persisted : Bool)
    (artifact : ArtifactRegistration) (retainUntil createdAt : Instant) :
    Registered [retainUntil] (inventory.row? artifact.uri)
      (inventory.writtenRow persisted artifact retainUntil createdAt) := by
  unfold writtenRow
  cases inventory.row? artifact.uri with
  | none => exact ⟨rfl, by simp [newRow], by simp, .inl (by simp [newRow])⟩
  | some row =>
      refine ⟨rfl, by simp [conflictRow], by simp [conflictRow], ?_⟩
      rcases max_choice row.retainUntil retainUntil with hmax | hmax
      · exact .inr ⟨row, rfl, hmax⟩
      · exact .inl (List.mem_singleton.mpr hmax)

/-- The registrations of a transaction. -/
theorem registered_foldl (persisted : Bool) (createdAt : Instant) (uri : String)
    (registered : List (ArtifactRegistration × Instant)) (inventory : ArtifactInventory) :
    (datesAmong registered uri = [] → (registered.foldl (fun inventory entry =>
        inventory.upsert persisted entry.1 entry.2 createdAt) inventory).row? uri =
      inventory.row? uri) ∧
    (datesAmong registered uri ≠ [] → ∃ row, (registered.foldl (fun inventory entry =>
        inventory.upsert persisted entry.1 entry.2 createdAt) inventory).row? uri = some row ∧
      Registered (datesAmong registered uri) (inventory.row? uri) row) := by
  induction registered generalizing inventory with
  | nil => exact ⟨fun _ => rfl, fun h => absurd rfl h⟩
  | cons entry rest ih =>
      rw [List.foldl_cons]
      obtain ⟨hkept, hwritten⟩ := ih (inventory.upsert persisted entry.1 entry.2 createdAt)
      by_cases huri : entry.1.uri = uri
      · subst huri
        have hdates : datesAmong (entry :: rest) entry.1.uri =
            [entry.2] ++ datesAmong rest entry.1.uri := by
          unfold datesAmong
          rw [List.filter_cons_of_pos (by simp)]
          rfl
        rw [row?_upsert_self] at hkept hwritten
        have hfirst := inventory.registered_upsert persisted entry.1 entry.2 createdAt
        refine ⟨fun h => ?_, fun _ => ?_⟩
        · rw [hdates] at h
          cases h
        · rw [hdates]
          by_cases hrest : datesAmong rest entry.1.uri = []
          · rw [hrest, List.append_nil]
            exact ⟨_, hkept hrest, hfirst⟩
          · obtain ⟨row, hrow, hsecond⟩ := hwritten hrest
            exact ⟨row, hrow, hfirst.trans hsecond⟩
      · have hdates : datesAmong (entry :: rest) uri = datesAmong rest uri := by
          unfold datesAmong
          rw [List.filter_cons_of_neg (by simp [huri])]
        rw [row?_upsert_of_ne inventory persisted (Ne.symm huri)] at hkept hwritten
        rw [hdates]
        exact ⟨hkept, hwritten⟩

/-- What a step does to the row of a location, by the dates it registers for it and the reading of
its clock. -/
inductive RowStepped (dates : List Instant) (reading : Instant) :
    Option ArtifactInventoryRow → Option ArtifactInventoryRow → Prop
  | kept (row : Option ArtifactInventoryRow) (h : dates = []) : RowStepped dates reading row row
  | claimed (row : ArtifactInventoryRow) (leaseOwner : String) (h : dates = [])
      (hexpired : row.Expired reading) :
      RowStepped dates reading (some row) (some (row.claimed reading leaseOwner))
  | completed (row : ArtifactInventoryRow) (error : Option String) (h : dates = [])
      (hdeleting : row.status = .deleting) :
      RowStepped dates reading (some row) (some (row.completed reading error))
  | registered (before : Option ArtifactInventoryRow) (row : ArtifactInventoryRow)
      (h : dates ≠ []) (hregistered : Registered dates before row) :
      RowStepped dates reading before (some row)

/-- A row that is active and retained beyond the reading stays active, and is retained as long. -/
theorem RowStepped.live {dates : List Instant} {reading : Instant} {row : ArtifactInventoryRow}
    {after : Option ArtifactInventoryRow} (h : RowStepped dates reading (some row) after)
    (hactive : row.status = .active) (hfuture : reading < row.retainUntil) :
    ∃ row', after = some row' ∧ row'.status = .active ∧ row.retainUntil ≤ row'.retainUntil := by
  cases h with
  | kept _ hdates => exact ⟨row, rfl, hactive, le_refl _⟩
  | claimed _ leaseOwner hdates hexpired =>
      rcases hexpired with ⟨-, hpast⟩ | ⟨hdeleting, -⟩
      · exact absurd hpast (not_le.mpr hfuture)
      · rw [hactive] at hdeleting
        cases hdeleting
  | completed _ error hdates hdeleting =>
      rw [hactive] at hdeleting
      cases hdeleting
  | registered _ row' hdates hregistered =>
      exact ⟨row', rfl, hregistered.active, hregistered.before_le row rfl⟩

/-- A row that a step registers is active, and retained until the date at least. -/
theorem RowStepped.registers {dates : List Instant} {reading date : Instant}
    {before after : Option ArtifactInventoryRow} (h : RowStepped dates reading before after)
    (hdate : date ∈ dates) :
    ∃ row, after = some row ∧ row.status = .active ∧ date ≤ row.retainUntil := by
  have hne : dates ≠ [] := List.ne_nil_of_mem hdate
  cases h with
  | kept _ hdates => exact absurd hdates hne
  | claimed _ _ hdates _ => exact absurd hdates hne
  | completed _ _ hdates _ => exact absurd hdates hne
  | registered _ row hdates hregistered =>
      exact ⟨row, rfl, hregistered.active, hregistered.dates_le date hdate⟩

/-- A row is retained until a date that the step registers, or as it was before. -/
theorem RowStepped.date {dates : List Instant} {reading : Instant}
    {before : Option ArtifactInventoryRow} {row : ArtifactInventoryRow}
    (h : RowStepped dates reading before (some row)) :
    row.retainUntil ∈ dates ∨ ∃ old ∈ before, row.retainUntil = old.retainUntil := by
  cases h with
  | kept _ hdates => exact .inr ⟨row, rfl, rfl⟩
  | claimed old leaseOwner hdates hexpired => exact .inr ⟨old, rfl, rfl⟩
  | completed old error hdates hdeleting =>
      exact .inr ⟨old, rfl, by cases error <;> rfl⟩
  | registered _ _ hdates hregistered => exact hregistered.date

/-- What a transaction that registers artifacts leaves of the row of a location. -/
theorem registered_stepped {register : ArtifactInventory → ArtifactRegistration →
      Except RetentionFailure ArtifactInventory}
    {check : ArtifactRegistration → Except RetentionFailure Instant} {persisted : Bool}
    {createdAt : Instant} (hregister : register = fun inventory artifact =>
      (check artifact).map fun retainUntil =>
        inventory.upsert persisted artifact retainUntil createdAt)
    (artifacts : List ArtifactRegistration) (inventory : ArtifactInventory) (reading : Instant)
    (uri : String) :
    RowStepped (datesAmong ((artifacts.mapM fun artifact =>
        (check artifact).map (Prod.mk artifact)).toOption.getD []) uri) reading
      (inventory.row? uri)
      (((artifacts.foldlM register inventory).toOption.getD inventory).row? uri) := by
  have hloop := Checks.foldlM_check check
    (fun (inventory : ArtifactInventory) artifact retainUntil =>
      inventory.upsert persisted artifact retainUntil createdAt) artifacts inventory
  rw [hregister, hloop]
  cases artifacts.mapM fun artifact => (check artifact).map (Prod.mk artifact) with
  | error failure => exact .kept _ rfl
  | ok registered =>
      obtain ⟨hkept, hwritten⟩ := registered_foldl persisted createdAt uri registered inventory
      by_cases hdates : datesAmong registered uri = []
      · refine (congrArg (RowStepped _ _ _) (hkept hdates)).mpr (.kept _ hdates)
      · obtain ⟨row, hrow, hregistered⟩ := hwritten hdates
        exact (congrArg (RowStepped _ _ _) hrow).mpr (.registered _ row hdates hregistered)

theorem row?_rewrite (inventory : ArtifactInventory)
    {write : ArtifactInventoryRow → ArtifactInventoryRow} (huri : ∀ row, (write row).uri = row.uri)
    (hid : ∀ row, (write row).id = row.id) (uri : String) :
    (inventory.rewrite write huri hid).row? uri = (inventory.row? uri).map write := by
  have hkey : ArtifactInventoryRow.uri ∘ write = ArtifactInventoryRow.uri := funext huri
  unfold row? rewrite
  rw [KeyedList.lookup_map, hkey]

theorem mem_expiredRows {inventory : ArtifactInventory} {now : Instant} {limit : ℤ}
    {locked : List InventoryId} {row : ArtifactInventoryRow}
    (h : row ∈ inventory.expiredRows now limit locked) :
    row ∈ inventory.rows ∧ row.Expired now := by
  have hsorted := List.mem_mergeSort.mp (List.mem_of_mem_take h)
  obtain ⟨hmem, htest⟩ := List.mem_filter.mp hsorted
  exact ⟨hmem, (of_decide_eq_true htest).1⟩

/-- What a claim leaves of the row of a location. -/
theorem claimExpiredArtifacts_stepped (inventory : ArtifactInventory) (reading : Instant)
    (leaseOwner : String) (limit : ℤ) (locked : List InventoryId) (uri : String) :
    RowStepped [] reading (inventory.row? uri)
      ((inventory.claimExpiredArtifacts reading leaseOwner limit locked).1.row? uri) := by
  unfold claimExpiredArtifacts
  split
  · exact .kept _ rfl
  · rw [row?_rewrite]
    cases hrow : inventory.row? uri with
    | none => exact .kept _ rfl
    | some row =>
        rw [Option.map_some]
        split
        next hid =>
          obtain ⟨other, hother, hsame⟩ := List.mem_map.mp hid
          obtain ⟨hmem, hexpired⟩ := mem_expiredRows hother
          have hrow' := List.inj_on_of_nodup_map inventory.id_unique hmem
            (row?_eq_some.mp hrow).1 hsame
          exact .claimed row leaseOwner rfl (hrow' ▸ hexpired)
        next hid => exact .kept _ rfl

/-- The artifacts that a claim hands out are of rows that have expired. -/
theorem claimExpiredArtifacts_held {inventory : ArtifactInventory} {now : Instant}
    {leaseOwner : String} {limit : ℤ} {locked : List InventoryId} {artifact : ExpiredArtifact}
    (h : artifact ∈ (inventory.claimExpiredArtifacts now leaseOwner limit locked).2) :
    ∃ row ∈ inventory.rows, row.uri = artifact.uri ∧ row.Expired now := by
  unfold claimExpiredArtifacts at h
  split at h
  · cases h
  · obtain ⟨row, hrow, rfl⟩ := List.mem_map.mp h
    obtain ⟨hmem, hexpired⟩ := mem_expiredRows hrow
    exact ⟨row, hmem, rfl, hexpired⟩

/-- What recording a deletion leaves of the row of a location. -/
theorem completeArtifactDeletion_stepped (inventory : ArtifactInventory)
    (artifact : ExpiredArtifact) (reading : Instant) (error : Option String) (uri : String) :
    RowStepped [] reading (inventory.row? uri)
      ((inventory.completeArtifactDeletion artifact reading error).row? uri) := by
  unfold completeArtifactDeletion
  rw [row?_rewrite]
  cases inventory.row? uri with
  | none => exact .kept _ rfl
  | some row =>
      rw [Option.map_some]
      split
      next h => exact .completed row error rfl h.2
      next => exact .kept _ rfl

end ArtifactInventory

namespace Retention

open ArtifactInventory

variable {store : ArtifactStore} {world : Retention} {timed : TimedRetentionEvent}

theorem step_now : (world.step store timed).1.now = max world.now timed.now := by
  obtain ⟨now, event⟩ := timed
  cases event with
  | put content => rfl
  | completeStage scheduledAt artifacts =>
      unfold step
      dsimp only
      split <;> rfl
  | persistRun artifacts =>
      unfold step
      dsimp only
      split <;> rfl
  | claim cleaner leaseOwner limit locked => rfl
  | delete cleaner answer =>
      unfold step
      dsimp only
      split <;> rfl
  | complete cleaner =>
      unfold step
      dsimp only
      split <;> rfl

/-- What a step does to the row of a location. -/
theorem step_row (uri : String) :
    RowStepped (timed.dates uri) timed.now (world.inventory.row? uri)
      ((world.step store timed).1.inventory.row? uri) := by
  obtain ⟨now, event⟩ := timed
  cases event with
  | put content => exact .kept _ rfl
  | completeStage scheduledAt artifacts =>
      have hstepped := registered_stepped
        (show registerArtifact scheduledAt now = fun inventory artifact =>
          (effectiveRetainUntil scheduledAt now artifact).map fun retainUntil =>
            inventory.upsert false artifact retainUntil now from rfl)
        artifacts world.inventory now uri
      unfold step
      dsimp only
      split
      next hloop =>
        rw [hloop] at hstepped
        exact hstepped
      next hloop =>
        rw [hloop] at hstepped
        exact hstepped
  | persistRun artifacts =>
      have hstepped := registered_stepped
        (show persistArtifact now = fun inventory artifact =>
          (persistedRetainUntil now artifact).map fun retainUntil =>
            inventory.upsert true artifact retainUntil now from rfl)
        artifacts world.inventory now uri
      unfold step
      dsimp only
      split
      next hloop =>
        rw [hloop] at hstepped
        exact hstepped
      next hloop =>
        rw [hloop] at hstepped
        exact hstepped
  | claim cleaner leaseOwner limit locked =>
      exact claimExpiredArtifacts_stepped world.inventory now leaseOwner limit locked uri
  | delete cleaner answer =>
      unfold step
      dsimp only
      split <;> exact .kept _ rfl
  | complete cleaner =>
      unfold step
      dsimp only
      split
      · exact completeArtifactDeletion_stepped _ _ _ _ _
      · exact .kept _ rfl
      · exact .kept _ rfl

/-- What a step leaves of the objects that have been deleted. -/
theorem mem_deletedObjects_step (uri : String) :
    uri ∈ (world.step store timed).1.deletedObjects ↔
      (∃ cleaner, timed.emptied store world = some (cleaner, uri)) ∨
        uri ∈ world.deletedObjects ∧ timed.putUri store ≠ some uri := by
  obtain ⟨now, event⟩ := timed
  cases event with
  | put content =>
      unfold step TimedRetentionEvent.emptied TimedRetentionEvent.putUri
      simp [@eq_comm _ uri]
  | completeStage scheduledAt artifacts =>
      unfold step TimedRetentionEvent.emptied TimedRetentionEvent.putUri
      dsimp only
      split <;> simp
  | persistRun artifacts =>
      unfold step TimedRetentionEvent.emptied TimedRetentionEvent.putUri
      dsimp only
      split <;> simp
  | claim cleaner leaseOwner limit locked =>
      unfold step TimedRetentionEvent.emptied TimedRetentionEvent.putUri
      simp
  | delete cleaner answer =>
      unfold step TimedRetentionEvent.emptied TimedRetentionEvent.putUri
      dsimp only
      split
      · split <;> simp_all [@eq_comm _ uri]
      · simp
      · simp
  | complete cleaner =>
      unfold step TimedRetentionEvent.emptied TimedRetentionEvent.putUri
      dsimp only
      split <;> simp

/-- A deletion writes no row. -/
theorem inventory_step_of_emptied {emptied : ℕ × String}
    (h : timed.emptied store world = some emptied) :
    (world.step store timed).1.inventory = world.inventory := by
  obtain ⟨now, event⟩ := timed
  cases event with
  | delete cleaner answer =>
      unfold step
      dsimp only
      split <;> rfl
  | put content => cases h
  | completeStage scheduledAt artifacts => cases h
  | persistRun artifacts => cases h
  | claim cleaner leaseOwner limit locked => cases h
  | complete cleaner => cases h

/-- A cleaner whose deletion takes effect holds the artifact. -/
theorem held_of_emptied {cleaner : ℕ} {uri : String}
    (h : timed.emptied store world = some (cleaner, uri)) :
    ∃ artifact ∈ (world.cleaners cleaner).held, artifact.uri = uri := by
  obtain ⟨now, event⟩ := timed
  cases event with
  | delete other answer =>
      unfold TimedRetentionEvent.emptied at h
      dsimp only at h
      split at h
      next artifact rest hphase =>
        split at h
        · cases h
          exact ⟨artifact, by rw [hphase]; exact List.mem_cons_self, rfl⟩
        · cases h
      · cases h
      · cases h
  | put content => cases h
  | completeStage scheduledAt artifacts => cases h
  | persistRun artifacts => cases h
  | claim other leaseOwner limit locked => cases h
  | complete other => cases h

/-- A step that registers neither puts nor deletes an object. -/
theorem emptied_of_dates (store : ArtifactStore) (world : Retention) {uri : String}
    (h : timed.dates uri ≠ []) :
    timed.emptied store world = none ∧ timed.putUri store = none := by
  obtain ⟨now, event⟩ := timed
  cases event with
  | completeStage scheduledAt artifacts => exact ⟨rfl, rfl⟩
  | persistRun artifacts => exact ⟨rfl, rfl⟩
  | put content => exact absurd rfl h
  | claim cleaner leaseOwner limit locked => exact absurd rfl h
  | delete cleaner answer => exact absurd rfl h
  | complete cleaner => exact absurd rfl h

/-- A step that claims registers nothing. -/
theorem dates_of_claims {cleaner : ℕ} (h : timed.claims = some cleaner) (uri : String) :
    timed.dates uri = [] := by
  obtain ⟨now, event⟩ := timed
  cases event with
  | claim other leaseOwner limit locked => rfl
  | put content => cases h
  | completeStage scheduledAt artifacts => cases h
  | persistRun artifacts => cases h
  | delete other answer => cases h
  | complete other => cases h

/-- A cleaner holds what it has just claimed, or what it has held. -/
theorem held_step {cleaner : ℕ} {artifact : ExpiredArtifact}
    (h : artifact ∈ ((world.step store timed).1.cleaners cleaner).held) :
    (timed.claims = some cleaner ∧
        ∃ row ∈ world.inventory.rows, row.uri = artifact.uri ∧ row.Expired timed.now) ∨
      (timed.claims ≠ some cleaner ∧ artifact ∈ (world.cleaners cleaner).held) := by
  obtain ⟨now, event⟩ := timed
  cases event with
  | put content => exact .inr ⟨nofun, h⟩
  | completeStage scheduledAt artifacts =>
      refine .inr ⟨nofun, ?_⟩
      unfold step at h
      dsimp only at h
      split at h <;> exact h
  | persistRun artifacts =>
      refine .inr ⟨nofun, ?_⟩
      unfold step at h
      dsimp only at h
      split at h <;> exact h
  | claim other leaseOwner limit locked =>
      unfold step at h
      dsimp only at h
      by_cases hother : cleaner = other
      · subst hother
        rw [Function.update_self, CleanerPhase.held_next] at h
        exact .inl ⟨rfl, claimExpiredArtifacts_held h⟩
      · rw [Function.update_of_ne hother] at h
        exact .inr ⟨fun hsame => hother (Option.some.inj hsame).symm, h⟩
  | delete other answer =>
      refine .inr ⟨nofun, ?_⟩
      unfold step at h
      dsimp only at h
      split at h
      next claimed rest hphase =>
        dsimp only at h
        by_cases hother : cleaner = other
        · subst hother
          rw [Function.update_self] at h
          rw [hphase]
          exact List.mem_cons_of_mem _ h
        · rw [Function.update_of_ne hother] at h
          exact h
      · exact h
      · exact h
  | complete other =>
      refine .inr ⟨nofun, ?_⟩
      unfold step at h
      dsimp only at h
      split at h
      next claimed error rest hphase =>
        dsimp only at h
        by_cases hother : cleaner = other
        · subst hother
          rw [Function.update_self, CleanerPhase.held_next] at h
          rw [hphase]
          exact h
        · rw [Function.update_of_ne hother] at h
          exact h
      · exact h
      · exact h

/-! ## Runs -/

/-- The steps since the last claim of a cleaner. -/
def sinceClaim (cleaner : ℕ) (history : List TimedRetentionEvent) : List TimedRetentionEvent :=
  history.foldl (fun since timed => if timed.claims = some cleaner then [] else since ++ [timed]) []

theorem sinceClaim_concat (cleaner : ℕ) (history : List TimedRetentionEvent)
    (timed : TimedRetentionEvent) :
    sinceClaim cleaner (history ++ [timed]) =
      if timed.claims = some cleaner then [] else sinceClaim cleaner history ++ [timed] := by
  unfold sinceClaim
  rw [List.foldl_append]
  rfl

theorem mem_of_mem_sinceClaim {cleaner : ℕ} {history : List TimedRetentionEvent}
    (h : timed ∈ sinceClaim cleaner history) : timed ∈ history := by
  induction history using List.reverseRecOn with
  | nil => exact h
  | append_singleton history last ih =>
      rw [sinceClaim_concat] at h
      split at h
      · cases h
      · exact (List.mem_append.mp h).elim (fun h => List.mem_append_left _ (ih h))
          (List.mem_append_right _)

/-- A deletion of the object at a location has taken effect, and none has been put since. -/
def EmptiedSince (store : ArtifactStore) (began : Instant) (history : List TimedRetentionEvent)
    (uri : String) : Prop :=
  ∃ early deletion late cleaner, history = early ++ deletion :: late ∧
    deletion.emptied store (Runs.final (step store) (start began) early) = some (cleaner, uri) ∧
    ∀ put ∈ late, put.putUri store ≠ some uri

/-- The objects that have been deleted, by what has happened. -/
theorem mem_deletedObjects_iff (began : Instant) (history : List TimedRetentionEvent)
    (uri : String) :
    uri ∈ (Runs.final (step store) (start began) history).deletedObjects ↔
      EmptiedSince store began history uri := by
  induction history using List.reverseRecOn with
  | nil =>
      refine iff_of_false (by simp [start]) ?_
      rintro ⟨early, deletion, late, _, hsplit, -⟩
      simp at hsplit
  | append_singleton history last ih =>
      rw [Runs.final_concat, mem_deletedObjects_step, ih]
      constructor
      · rintro (⟨cleaner, hemptied⟩ | ⟨⟨early, deletion, late, cleaner, rfl, hemptied, hlate⟩, hlast⟩)
        · exact ⟨history, last, [], cleaner, rfl, hemptied, by simp⟩
        · refine ⟨early, deletion, late ++ [last], cleaner, by simp, hemptied, fun put hput => ?_⟩
          rcases List.mem_append.mp hput with hput | hput
          · exact hlate put hput
          · rw [List.mem_singleton.mp hput]
            exact hlast
      · rintro ⟨early, deletion, late, cleaner, hsplit, hemptied, hlate⟩
        induction late using List.reverseRecOn with
        | nil =>
            obtain ⟨rfl, hlast⟩ := List.append_inj' hsplit rfl
            cases hlast
            exact .inl ⟨cleaner, hemptied⟩
        | append_singleton late other _ =>
            rw [← List.cons_append, ← List.append_assoc] at hsplit
            obtain ⟨rfl, hlast⟩ := List.append_inj' hsplit rfl
            cases hlast
            exact .inr ⟨⟨early, deletion, late, cleaner, rfl, hemptied, fun put hput =>
              hlate put (List.mem_append_left _ hput)⟩, hlate last (by simp)⟩

/-- Only active rows are retained into the future. -/
def Dated (world : Retention) : Prop :=
  ∀ uri row, world.inventory.row? uri = some row → row.status ≠ .active →
    row.retainUntil ≤ world.now

/-- An expired row is not retained into the future. -/
theorem Dated.expired (h : world.Dated) {uri : String} {row : ArtifactInventoryRow}
    (hrow : world.inventory.row? uri = some row) (hexpired : row.Expired timed.now) :
    row.retainUntil ≤ max world.now timed.now := by
  rcases hexpired with ⟨-, hpast⟩ | ⟨hdeleting, -⟩
  · exact le_max_of_le_right hpast
  · exact le_max_of_le_left (h uri row hrow (by rw [hdeleting]; exact nofun))

theorem Dated.step (h : world.Dated) : (world.step store timed).1.Dated := by
  intro uri row hrow hstatus
  rw [step_now]
  have hstepped : RowStepped (timed.dates uri) timed.now (world.inventory.row? uri)
      ((world.step store timed).1.inventory.row? uri) := step_row uri
  rw [hrow] at hstepped
  generalize hbefore : world.inventory.row? uri = before at hstepped
  cases hstepped with
  | kept _ hdates => exact le_max_of_le_left (h uri row hbefore hstatus)
  | claimed old leaseOwner hdates hexpired =>
      exact (h.expired hbefore hexpired : old.retainUntil ≤ _)
  | completed old error hdates hdeleting =>
      have hold := h uri old hbefore (by rw [hdeleting]; exact nofun)
      cases error <;> exact le_max_of_le_left hold
  | registered _ _ hdates hregistered => exact absurd hregistered.active hstatus

/-- What the steps of a run have left: what they have registered into the future is active, and a
cleaner holds only what has expired or was registered since. -/
structure Traced (history : List TimedRetentionEvent) (world : Retention) : Prop where
  dated : world.Dated
  live : ∀ timed ∈ history, ∀ uri, ∀ date ∈ timed.dates uri, world.now < date →
    ∃ row, world.inventory.row? uri = some row ∧ row.status = .active ∧ date ≤ row.retainUntil
  held : ∀ cleaner, ∀ artifact ∈ (world.cleaners cleaner).held, ∀ row,
    world.inventory.row? artifact.uri = some row → row.retainUntil ≤ world.now ∨
      ∃ timed ∈ sinceClaim cleaner history, row.retainUntil ∈ timed.dates artifact.uri

theorem Traced.step {history : List TimedRetentionEvent} (h : Traced history world) :
    Traced (history ++ [timed]) (world.step store timed).1 := by
  refine ⟨h.dated.step, ?_, ?_⟩
  · intro earlier hearlier uri date hdate hfuture
    rw [step_now] at hfuture
    have hstepped : RowStepped (timed.dates uri) timed.now (world.inventory.row? uri)
        ((world.step store timed).1.inventory.row? uri) := step_row uri
    rcases List.mem_append.mp hearlier with hearlier | hearlier
    · obtain ⟨row, hrow, hactive, hle⟩ := h.live earlier hearlier uri date hdate
        ((le_max_left _ _).trans_lt hfuture)
      rw [hrow] at hstepped
      obtain ⟨row', hrow', hactive', hle'⟩ := hstepped.live hactive
        (((le_max_right _ _).trans_lt hfuture).trans_le hle)
      exact ⟨row', hrow', hactive', hle.trans hle'⟩
    · rw [List.mem_singleton.mp hearlier] at hdate
      exact hstepped.registers hdate
  · intro cleaner artifact hartifact row hrow
    have hstepped : RowStepped (timed.dates artifact.uri) timed.now
        (world.inventory.row? artifact.uri)
        ((world.step store timed).1.inventory.row? artifact.uri) := step_row artifact.uri
    rw [hrow] at hstepped
    rw [step_now, sinceClaim_concat]
    rcases held_step hartifact with ⟨hclaims, old, hold, huri, hexpired⟩ | ⟨hclaims, hheld⟩
    · left
      have hbefore := row?_eq_some.mpr ⟨hold, huri⟩
      rcases hstepped.date with hdate | ⟨other, hother, hsame⟩
      · rw [dates_of_claims hclaims] at hdate
        cases hdate
      · rw [hbefore] at hother
        cases hother
        rw [hsame]
        exact h.dated.expired hbefore hexpired
    · rw [if_neg hclaims]
      rcases hstepped.date with hdate | ⟨old, hold, hsame⟩
      · exact .inr ⟨timed, by simp, hdate⟩
      · rw [hsame]
        rcases h.held cleaner artifact hheld old hold with hpast | ⟨earlier, hearlier, hdate⟩
        · exact .inl (le_max_of_le_left hpast)
        · exact .inr ⟨earlier, List.mem_append_left _ hearlier, hdate⟩

theorem traced_run (began : Instant) (history : List TimedRetentionEvent) :
    Traced history (Runs.final (Retention.step store) (start began) history) := by
  induction history using List.reverseRecOn with
  | nil => exact ⟨by simp [Dated, start, row?], by simp, by simp [start, CleanerPhase.held]⟩
  | append_singleton history last ih =>
      rw [Runs.final_concat]
      exact ih.step

/-! ## Nothing is lost -/

/-- What keeps a step from losing an artifact: what it registers into the future is in the store,
and what it deletes is not active into the future. -/
def Keeps (store : ArtifactStore) (world : Retention) (timed : TimedRetentionEvent) : Prop :=
  (∀ uri, ∀ date ∈ timed.dates uri, max world.now timed.now < date → uri ∉ world.deletedObjects) ∧
    ∀ cleaner uri, timed.emptied store world = some (cleaner, uri) → ∀ row,
      world.inventory.row? uri = some row → row.status = .active →
        row.retainUntil ≤ max world.now timed.now

theorem lost_iff : world.Lost ↔ ∃ uri row, world.inventory.row? uri = some row ∧
    row.status = .active ∧ world.now < row.retainUntil ∧ uri ∈ world.deletedObjects := by
  constructor
  · rintro ⟨row, hrow, hactive, hfuture, hdeleted⟩
    exact ⟨row.uri, row, row?_eq_some.mpr ⟨hrow, rfl⟩, hactive, hfuture, hdeleted⟩
  · rintro ⟨uri, row, hrow, hactive, hfuture, hdeleted⟩
    obtain ⟨hmem, rfl⟩ := row?_eq_some.mp hrow
    exact ⟨row, hmem, hactive, hfuture, hdeleted⟩

/-- A step loses nothing exactly if it keeps. -/
theorem not_lost_step_iff (hdated : world.Dated) (hlost : ¬ world.Lost) :
    ¬ (world.step store timed).1.Lost ↔ Keeps store world timed := by
  have hstepped : ∀ uri, RowStepped (timed.dates uri) timed.now (world.inventory.row? uri)
      ((world.step store timed).1.inventory.row? uri) := fun uri => step_row uri
  constructor
  · intro hkept
    refine ⟨fun uri date hdate hfuture hdeleted => ?_, fun cleaner uri hemptied row hrow hactive => ?_⟩
    · have hne : timed.dates uri ≠ [] := List.ne_nil_of_mem hdate
      obtain ⟨-, hput⟩ := emptied_of_dates store world hne
      have hdeleted' : uri ∈ (world.step store timed).1.deletedObjects :=
        (mem_deletedObjects_step uri).mpr (.inr ⟨hdeleted, by rw [hput]; exact nofun⟩)
      obtain ⟨row, hrow, hactive, hle⟩ := (hstepped uri).registers hdate
      refine hkept (lost_iff.mpr ⟨uri, row, hrow, hactive, ?_, hdeleted'⟩)
      rw [step_now]
      exact hfuture.trans_le hle
    · by_contra hfuture
      refine hkept (lost_iff.mpr ⟨uri, row, ?_, hactive, ?_,
        (mem_deletedObjects_step uri).mpr (.inl ⟨cleaner, hemptied⟩)⟩)
      · rw [inventory_step_of_emptied hemptied]
        exact hrow
      · rw [step_now]
        exact not_le.mp hfuture
  · intro hkeeps hlost'
    obtain ⟨uri, row, hrow, hactive, hfuture, hdeleted⟩ := lost_iff.mp hlost'
    rw [step_now] at hfuture
    have hpresent := (le_max_left world.now timed.now).trans_lt hfuture
    rcases (mem_deletedObjects_step uri).mp hdeleted with ⟨cleaner, hemptied⟩ | ⟨hdeleted, -⟩
    · rw [inventory_step_of_emptied hemptied] at hrow
      exact absurd (hkeeps.2 cleaner uri hemptied row hrow hactive) (not_le.mpr hfuture)
    · have hstepped := hstepped uri
      rw [hrow] at hstepped
      rcases hstepped.date with hdate | ⟨old, hold, hsame⟩
      · exact hkeeps.1 uri _ hdate hfuture hdeleted
      · -- The row was retained as long before, so it was active, and its object lost already.
        rw [hsame] at hpresent
        refine hlost (lost_iff.mpr ⟨uri, old, hold, ?_, hpresent, hdeleted⟩)
        by_contra hstatus
        exact absurd (hdated uri old hold hstatus) (not_le.mpr hpresent)

/-- No deletion takes effect between the put of a content and a registration of it with a date still
to come, and none after such a registration that was made since the cleaner's claim. -/
def Undisturbed (store : ArtifactStore) (began : Instant) (history : List TimedRetentionEvent)
    (timed : TimedRetentionEvent) : Prop :=
  let world := Runs.final (step store) (start began) history
  (∀ uri, ∀ date ∈ timed.dates uri, max world.now timed.now < date →
    ¬ EmptiedSince store began history uri) ∧
  ∀ cleaner uri, timed.emptied store world = some (cleaner, uri) →
    ∀ earlier ∈ sinceClaim cleaner history, ∀ date ∈ earlier.dates uri,
      date ≤ max world.now timed.now

theorem keeps_iff_undisturbed (began : Instant) (history : List TimedRetentionEvent) :
    Keeps store (Runs.final (step store) (start began) history) timed ↔
      Undisturbed store began history timed := by
  have htraced : Traced history (Runs.final (step store) (start began) history) :=
    traced_run began history
  unfold Keeps Undisturbed
  refine and_congr ?_ ?_
  · simp only [mem_deletedObjects_iff]
  · refine forall_congr' fun cleaner => forall_congr' fun uri => forall_congr' fun hemptied => ?_
    constructor
    · intro h earlier hearlier date hdate
      by_contra hfuture
      have hfuture := not_le.mp hfuture
      obtain ⟨row, hrow, hactive, hle⟩ := htraced.live earlier (mem_of_mem_sinceClaim hearlier) uri
        date hdate ((le_max_left _ _).trans_lt hfuture)
      exact absurd (hle.trans (h row hrow hactive)) (not_le.mpr hfuture)
    · intro h row hrow hactive
      obtain ⟨artifact, hheld, rfl⟩ := held_of_emptied hemptied
      rcases htraced.held cleaner artifact hheld row hrow with hpast | ⟨earlier, hearlier, hdate⟩
      · exact le_max_of_le_left hpast
      · exact h earlier hearlier _ hdate

/-- No row is ever active with a retention date in the future while its object has been deleted,
exactly in the interleavings that are undisturbed. -/
theorem nothing_lost_iff (store : ArtifactStore) (began : Instant)
    (events : List TimedRetentionEvent) :
    Runs.Always (step store) (fun world => ¬ world.Lost) (start began) events ↔
      ∀ history timed later, events = history ++ timed :: later →
        Undisturbed store began history timed := by
  have hstart : Dated (start began) := by simp [Dated, start, row?]
  have hkeeps : Runs.Always (step store) (fun world => ¬ world.Lost) (start began) events ↔
      Runs.Along (step store) (Keeps store) (start began) events :=
    Runs.always_iff_along (step store) (fun _ _ h => Dated.step h)
      (fun _ _ => not_lost_step_iff) events hstart (by simp [Lost, start])
  rw [hkeeps, Runs.along_iff]
  refine forall_congr' fun history => forall_congr' fun timed => forall_congr' fun later =>
    forall_congr' fun _ => ?_
  exact keeps_iff_undisturbed began history

end Retention

namespace Sample

/-- The registration of the empty list of fee changes, retained for some days from the first of
January on. -/
def feeChangesArtifact (days : ℕ) : ArtifactRegistration where
  uri := artifactStore.location noFeeChangesDigest
  sha256 := noFeeChangesDigest
  byteLength := 28
  retainUntil := moment.instant + days * 86400000000
  uri_ne_empty := artifactStore.location_ne_empty noFeeChangesDigest

/-- A step some days after the first of January. -/
def onDay (days : ℕ) (event : RetentionEvent) : TimedRetentionEvent :=
  ⟨moment.instant + days * 86400000000, event⟩

/-- A body is archived, and archived again half a year later, between the claim of its row and the
deletion of its object. -/
def revivedArtifact : List TimedRetentionEvent := [
  onDay 0 (.put noFeeChanges),
  onDay 0 (.completeStage moment.instant [feeChangesArtifact 181]),
  onDay 181 (.claim 0 "retention:1" 100 []),
  onDay 181 (.put noFeeChanges),
  onDay 181 (.completeStage (moment.instant + 181 * 86400000000) [feeChangesArtifact 365]),
  onDay 181 (.delete 0 .deleted),
  onDay 181 (.complete 0)]

/-- The object of an active row that is retained until the next year is deleted. -/
theorem revivedArtifact_lost :
    (Runs.final (Retention.step artifactStore) (Retention.start moment.instant)
      revivedArtifact).Lost := by
  decide +kernel

end Sample

end VTrade
