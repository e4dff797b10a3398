/-
# The memory of the agents

An agent keeps beliefs, a configured number of them at most, and plans.  Its tools append to both
and give beliefs up; every call is one transaction of several statements, and the statements of
different workers come in any order.  A belief is appended under a lock on the row of its agent, a
plan is not.

The tables of the beliefs are those of a private memory to which every agent adds beliefs of its
own, and from which those are gone that it has given up.  Nobody ever has more active beliefs than
are configured.
-/

import VTrade.Lib.Newest
import VTrade.Lib.Runs
import VTrade.OrderEvents
import Mathlib.Data.Fintype.Basic
import Mathlib.Data.Prod.Lex
import Mathlib.Data.Rat.Floor

namespace VTrade

/-! ## Records -/

/-- `BELIEF_CATEGORIES`. -/
def beliefCategories : List String :=
  ["event_analysis", "trading_strategy", "market_sentiment", "market_structure",
    "risk_assessment"]

/-- A decimal with the text that it is printed as. -/
structure PrintedDecimal where
  text : String
  value : ℚ
  deriving DecidableEq

structure BeliefFields where
  id : String
  agentId : String
  confidence : PrintedDecimal
  content : String
  category : String
  evidence : List String
  createdAt : Datetime
  deriving DecidableEq

structure BeliefRecord extends BeliefFields where
  confidence_range : 0 ≤ confidence.value ∧ confidence.value ≤ 1
  category_mem : category ∈ beliefCategories
  deriving DecidableEq

def BeliefRecord.make (fields : BeliefFields) : Except Raised BeliefRecord :=
  if hconfidence : 0 ≤ fields.confidence.value ∧ fields.confidence.value ≤ 1 then
    if hcategory : fields.category ∈ beliefCategories then .ok ⟨fields, hconfidence, hcategory⟩
    else .error (.valueError ("belief category must be one of ('event_analysis', " ++
      "'trading_strategy', 'market_sentiment', 'market_structure', 'risk_assessment')"))
  else .error (.valueError "belief confidence must be between zero and one")

inductive PlanType
  | longTerm | nextCycle
  deriving DecidableEq

def PlanType.value : PlanType → String
  | longTerm => "long_term"
  | nextCycle => "next_cycle"

structure PlanRecord where
  id : String
  agentId : String
  planType : PlanType
  content : String
  dueAt : Option Datetime
  createdAt : Datetime
  deriving DecidableEq

/-- What `append_belief` and `append_plan` take. -/
inductive MemoryRecord
  | belief (belief : BeliefRecord)
  | plan (plan : PlanRecord)
  deriving DecidableEq

inductive MemoryFailure
  | permissionError (message : String)
  | valueError (message : String)
  | databaseError (message : String)
  | toolContextUnavailable (message : String)
  deriving DecidableEq

/-- The digest that a belief is told apart by, `_memory_fingerprint`. -/
def BeliefRecord.fingerprint (texts : JsonTexts) (belief : BeliefRecord) : Sha256 :=
  texts.digest (.object [
    ("confidence", .text belief.confidence.text),
    ("content", .text belief.content),
    ("category", .text belief.category),
    ("evidence", .array (belief.evidence.map .text)),
    ("created_at", .text belief.createdAt.isoformat)])

def PlanRecord.fingerprint (texts : JsonTexts) (plan : PlanRecord) : Sha256 :=
  texts.digest (.object [
    ("type", .text plan.planType.value),
    ("content", .text plan.content),
    ("due_at", (plan.dueAt.map fun due => Json.text due.isoformat).getD .null),
    ("created_at", .text plan.createdAt.isoformat)])

/-! ## The memory that the tables stand for -/

/-- `PrivateAgentMemory`. -/
structure PrivateAgentMemory where
  beliefs : String → List BeliefRecord
  plans : String → List PlanRecord

namespace PrivateAgentMemory

def empty : PrivateAgentMemory := ⟨fun _ => [], fun _ => []⟩

variable (memory : PrivateAgentMemory)

/-- `_add_belief`. -/
def addBelief (agentId : String) (belief : BeliefRecord) :
    Except MemoryFailure PrivateAgentMemory :=
  if belief.agentId ≠ agentId then
    .error (.permissionError "agent cannot write another agent's belief")
  else .ok { memory with
    beliefs := Function.update memory.beliefs agentId (memory.beliefs agentId ++ [belief]) }

/-- `_add_plan`. -/
def addPlan (agentId : String) (plan : PlanRecord) : Except MemoryFailure PrivateAgentMemory :=
  if plan.agentId ≠ agentId then
    .error (.permissionError "agent cannot write another agent's plan")
  else .ok { memory with
    plans := Function.update memory.plans agentId
      ((memory.plans agentId).filter (fun item => item.planType ≠ plan.planType) ++ [plan]) }

/-- The view of its agent adds a record. -/
def add : MemoryRecord → Except MemoryFailure PrivateAgentMemory
  | .belief belief => memory.addBelief belief.agentId belief
  | .plan plan => memory.addPlan plan.agentId plan

/-- Records that are added one after another. -/
def addAll (records : List MemoryRecord) : Except MemoryFailure PrivateAgentMemory :=
  records.foldlM add memory

variable {memory}

theorem addAll_concat {after : PrivateAgentMemory} {records : List MemoryRecord}
    (h : memory.addAll records = .ok after) (record : MemoryRecord) :
    memory.addAll (records ++ [record]) = after.add record := by
  unfold addAll at h ⊢
  rw [List.foldlM_append, h]
  change List.foldlM add after [record] = _
  rw [List.foldlM_cons]
  exact bind_pure _

theorem add_belief (belief : BeliefRecord) :
    memory.add (.belief belief) = .ok { memory with
      beliefs := Function.update memory.beliefs belief.agentId
        (memory.beliefs belief.agentId ++ [belief]) } :=
  if_neg (not_not.mpr rfl)

theorem add_plan (plan : PlanRecord) :
    memory.add (.plan plan) = .ok { memory with
      plans := Function.update memory.plans plan.agentId
        ((memory.plans plan.agentId).filter (fun item => item.planType ≠ plan.planType) ++
          [plan]) } :=
  if_neg (not_not.mpr rfl)

end PrivateAgentMemory

/-! ## Tables -/

/-- A row of `beliefs` with its only revision. -/
structure BeliefRow where
  belief : BeliefRecord
  cycleId : String
  fingerprint : Sha256
  active : Bool

/-- A row of `plans` with its only revision. -/
structure PlanRow where
  plan : PlanRecord
  cycleId : String
  fingerprint : Sha256
  active : Bool

structure MemoryTables where
  agents : List String
  cycles : List String
  beliefs : List BeliefRow
  plans : List PlanRow

/-- What `read_beliefs` returns of a belief; the column keeps ten places of its confidence. -/
structure BeliefPayload where
  id : String
  confidenceTenBillionths : ℤ
  content : String
  category : String
  evidence : List String
  createdAt : Instant
  deriving DecidableEq

def BeliefRecord.payload (belief : BeliefRecord) : BeliefPayload where
  id := belief.id
  confidenceTenBillionths := ⌊belief.confidence.value * 10 ^ 10 + 1 / 2⌋
  content := belief.content
  category := belief.category
  evidence := belief.evidence
  createdAt := belief.createdAt.instant

namespace MemoryTables

variable (tables : MemoryTables)

def belief? (id : String) : Option BeliefRow := tables.beliefs.find? fun row => row.belief.id = id

def plan? (id : String) : Option PlanRow := tables.plans.find? fun row => row.plan.id = id

/-- The active beliefs of an agent, as they were inserted. -/
def activeBeliefs (agentId : String) : List BeliefRecord :=
  (tables.beliefs.filter fun row => row.belief.agentId = agentId ∧ row.active).map
    BeliefRow.belief

/-- The active plans of an agent, as they were inserted. -/
def activePlans (agentId : String) : List PlanRecord :=
  (tables.plans.filter fun row => row.plan.agentId = agentId ∧ row.active).map PlanRow.plan

/-- `ORDER BY r.created_at DESC, b.id DESC`. -/
def beliefRank (belief : BeliefPayload) : Instant ×ₗ String := toLex (belief.createdAt, belief.id)

def readBeliefs (actorId targetAgentId : String) : Except MemoryFailure (List BeliefPayload) :=
  if actorId ≠ targetAgentId then
    .error (.permissionError "agent cannot read another agent's beliefs")
  else .ok (Newest.descending beliefRank
    ((tables.activeBeliefs actorId).map BeliefRecord.payload))

/-- An agent gives up a belief. -/
def deactivate (agentId beliefId : String) : MemoryTables :=
  { tables with beliefs := tables.beliefs.map fun row =>
      if row.belief.id = beliefId ∧ row.belief.agentId = agentId then { row with active := false }
      else row }

/-- A belief comes in. -/
def insertBelief (row : BeliefRow) : MemoryTables :=
  { tables with beliefs := tables.beliefs ++ [row] }

/-- The plans of some identifiers are archived, and another comes in. -/
def replacePlans (archived : List String) (row : PlanRow) : MemoryTables :=
  { tables with plans := tables.plans.map (fun old =>
      if old.plan.id ∈ archived then { old with active := false } else old) ++ [row] }

end MemoryTables

/-! ## Workers -/

/-- The statements of `append_belief` after the first. -/
inductive BeliefPoint
  | locking | counting | inserting | committing
  deriving DecidableEq

/-- The statements of `append_plan` after the first.  The update that archives finds its rows
first and waits for those that another transaction has updated; it leaves out what is no longer
active then, and does not see what has come in while it waited. -/
inductive PlanPoint
  | archiving
  | waiting (found : List String)
  | inserting (archived : List String)
  | committing (archived : List String)
  deriving DecidableEq

inductive MemoryStage
  | idle
  | belief (point : BeliefPoint) (belief : BeliefRecord) (cycleId : String)
  | plan (point : PlanPoint) (plan : PlanRecord) (cycleId : String)
  /-- `_delete_belief` has found nothing to deactivate. -/
  | deleting (agentId beliefId : String)

namespace MemoryStage

/-- The agent whose row a worker has locked. -/
def lock? : MemoryStage → Option String
  | belief .counting item _ | belief .inserting item _ | belief .committing item _ =>
      some item.agentId
  | idle | belief .locking _ _ | plan _ _ _ | deleting _ _ => none

/-- The belief that a worker has counted the others for. -/
def counted? : MemoryStage → Option BeliefRecord
  | belief .inserting item _ | belief .committing item _ => some item
  | idle | belief .locking _ _ | belief .counting _ _ | plan _ _ _ | deleting _ _ => none

/-- The belief that a worker has inserted and not committed. -/
def inserted? : MemoryStage → Option BeliefRecord
  | belief .committing item _ => some item
  | idle | belief .locking _ _ | belief .counting _ _ | belief .inserting _ _ | plan _ _ _
  | deleting _ _ => none

/-- The plan that a worker has inserted and not committed. -/
def insertedPlan? : MemoryStage → Option PlanRecord
  | plan (.committing _) item _ => some item
  | idle | belief _ _ _ | plan .archiving _ _ | plan (.waiting _) _ _ | plan (.inserting _) _ _
  | deleting _ _ => none

/-- The plans that a worker has archived and not committed. -/
def archived : MemoryStage → List String
  | plan (.inserting ids) _ _ | plan (.committing ids) _ _ => ids
  | idle | belief _ _ _ | plan .archiving _ _ | plan (.waiting _) _ _ | deleting _ _ => []

/-- The plans that a worker has found to archive, with the one that it appends. -/
def chosen? : MemoryStage → Option (PlanRecord × List String)
  | plan (.waiting ids) item _ | plan (.inserting ids) item _ | plan (.committing ids) item _ =>
      some (item, ids)
  | idle | belief _ _ _ | plan .archiving _ _ | deleting _ _ => none

/-- The plan that a worker is appending. -/
def plan? : MemoryStage → Option PlanRecord
  | plan _ item _ => some item
  | idle | belief _ _ _ | deleting _ _ => none

/-- What a worker is appending. -/
def record? : MemoryStage → Option MemoryRecord
  | belief _ item _ => some (.belief item)
  | plan _ item _ => some (.plan item)
  | idle | deleting _ _ => none

theorem lock?_of_record? {stage : MemoryStage} (h : stage.record? = none) :
    stage.lock? = none := by
  cases stage with
  | idle => rfl
  | belief point item cycleId => cases h
  | plan point item cycleId => cases h
  | deleting agentId beliefId => rfl

theorem plan?_of_record? {stage : MemoryStage} (h : stage.record? = none) :
    stage.plan? = none := by
  cases stage with
  | idle => rfl
  | belief point item cycleId => cases h
  | plan point item cycleId => cases h
  | deleting agentId beliefId => rfl

theorem plan?_of_chosen? {stage : MemoryStage} {item : PlanRecord} {ids : List String}
    (h : stage.chosen? = some (item, ids)) : stage.plan? = some item := by
  unfold chosen? at h
  split at h
  case h_1 => cases h; rfl
  case h_2 => cases h; rfl
  case h_3 => cases h; rfl
  all_goals cases h

theorem plan?_of_insertedPlan? {stage : MemoryStage} {item : PlanRecord}
    (h : stage.insertedPlan? = some item) : stage.plan? = some item := by
  unfold insertedPlan? at h
  split at h
  · exact h
  all_goals cases h

/-- A worker that has inserted a belief has counted the others. -/
theorem counted?_of_inserted? {stage : MemoryStage} {item : BeliefRecord}
    (h : stage.inserted? = some item) : stage.counted? = some item := by
  unfold inserted? at h
  split at h
  · exact h
  all_goals cases h

/-- A worker that has counted the beliefs of an agent holds the lock on it. -/
theorem lock?_of_counted? {stage : MemoryStage} {item : BeliefRecord}
    (h : stage.counted? = some item) : stage.lock? = some item.agentId := by
  unfold counted? at h
  split at h
  case h_1 => cases h; rfl
  case h_2 => cases h; rfl
  all_goals cases h

end MemoryStage

/-- The tables, the workers, and the records that have been committed. -/
structure MemoryWorld (n : ℕ) where
  tables : MemoryTables
  stages : Fin n → MemoryStage
  stored : List MemoryRecord

inductive MemoryEvent (n : ℕ)
  | appendBelief (worker : Fin n) (belief : BeliefRecord) (actorId cycleId : String)
  | appendPlan (worker : Fin n) (plan : PlanRecord) (actorId cycleId : String)
  | deleteBelief (worker : Fin n) (agentId beliefId : String)
  /-- A worker issues its next statement, which may have to wait. -/
  | advance (worker : Fin n)
  /-- A worker is gone, and its transaction with it. -/
  | stop (worker : Fin n)

/-- What a call returns or raises. -/
inductive MemoryAnswer
  | appended (record : MemoryRecord)
  | deleted (agentId beliefId : String) (alreadyInactive : Bool)
  | raised (failure : MemoryFailure)
  deriving DecidableEq

namespace MemoryWorld

/-- Nothing is remembered. -/
def start (agents cycles : List String) {n : ℕ} : MemoryWorld n :=
  ⟨⟨agents, cycles, [], []⟩, fun _ => .idle, []⟩

variable {n : ℕ} (texts : JsonTexts) (maximum : ℕ) (world : MemoryWorld n) (worker : Fin n)

/-- A worker moves on. -/
def move (stage : MemoryStage) : MemoryWorld n :=
  { world with stages := Function.update world.stages worker stage }

/-- A call raises; its transaction is rolled back. -/
def fail (failure : MemoryFailure) : MemoryWorld n × Option MemoryAnswer :=
  (world.move worker .idle, some (.raised failure))

/-- A transaction is committed. -/
def commit (tables : MemoryTables) (record : MemoryRecord) : MemoryWorld n × Option MemoryAnswer :=
  ({ tables, stages := Function.update world.stages worker .idle,
     stored := world.stored ++ [record] }, some (.appended record))

/-- Another worker holds the lock on an agent. -/
def Locked (agentId : String) : Prop :=
  ∃ other, other ≠ worker ∧ (world.stages other).lock? = some agentId

/-- Another worker has inserted a belief of the same identifier. -/
def BeliefInFlight (id : String) : Prop :=
  ∃ other, other ≠ worker ∧ ∃ belief ∈ (world.stages other).inserted?, belief.id = id

/-- Another worker has inserted a plan of the same identifier. -/
def PlanInFlight (id : String) : Prop :=
  ∃ other, other ≠ worker ∧ ∃ plan ∈ (world.stages other).insertedPlan?, plan.id = id

/-- Another worker has archived one of some plans. -/
def ArchivedInFlight (ids : List String) : Prop :=
  ∃ other, other ≠ worker ∧ ∃ id ∈ ids, id ∈ (world.stages other).archived

instance (agentId : String) : Decidable (world.Locked worker agentId) :=
  inferInstanceAs (Decidable (∃ _, _))

instance (id : String) : Decidable (world.BeliefInFlight worker id) :=
  inferInstanceAs (Decidable (∃ _, _))

instance (id : String) : Decidable (world.PlanInFlight worker id) :=
  inferInstanceAs (Decidable (∃ _, _))

instance (ids : List String) : Decidable (world.ArchivedInFlight worker ids) :=
  inferInstanceAs (Decidable (∃ _, _))

/-- The first statement of `append_belief`. -/
def beginBelief (belief : BeliefRecord) (actorId cycleId : String) :
    MemoryWorld n × Option MemoryAnswer :=
  if actorId ≠ belief.agentId then
    (world, some (.raised (.permissionError "agent cannot write another agent's belief")))
  else
    match world.tables.belief? belief.id with
    | some row =>
        if row.fingerprint ≠ belief.fingerprint texts then
          (world, some (.raised
            (.valueError "belief idempotency key reused with different content")))
        else (world, some (.appended (.belief belief)))
    | none => (world.move worker (.belief .locking belief cycleId), none)

/-- The other statements of `append_belief`. -/
def advanceBelief (belief : BeliefRecord) (cycleId : String) :
    BeliefPoint → MemoryWorld n × Option MemoryAnswer
  | .locking =>
      if world.Locked worker belief.agentId then (world, none)
      else if belief.agentId ∉ world.tables.agents then
        world.fail worker (.valueError "belief agent does not exist")
      else (world.move worker (.belief .counting belief cycleId), none)
  | .counting =>
      if maximum ≤ (world.tables.activeBeliefs belief.agentId).length then
        world.fail worker (.valueError s!"maximum active beliefs per agent reached ({maximum})")
      else (world.move worker (.belief .inserting belief cycleId), none)
  | .inserting =>
      if world.BeliefInFlight worker belief.id then (world, none)
      else if (world.tables.belief? belief.id).isSome then
        world.fail worker (.databaseError "duplicate key value violates unique constraint")
      else if belief.createdAt.isAware = false then
        world.fail worker (.valueError "timestamps must be timezone-aware")
      else if cycleId ∉ world.tables.cycles then
        world.fail worker (.databaseError "insert or update violates foreign key constraint")
      else (world.move worker (.belief .committing belief cycleId), none)
  | .committing =>
      world.commit worker
        (world.tables.insertBelief ⟨belief, cycleId, belief.fingerprint texts, true⟩)
        (.belief belief)

/-- The first statement of `append_plan`. -/
def beginPlan (plan : PlanRecord) (actorId cycleId : String) :
    MemoryWorld n × Option MemoryAnswer :=
  if actorId ≠ plan.agentId then
    (world, some (.raised (.permissionError "agent cannot write another agent's plan")))
  else
    match world.tables.plan? plan.id with
    | some row =>
        if row.fingerprint ≠ plan.fingerprint texts then
          (world, some (.raised
            (.valueError "plan idempotency key reused with different content")))
        else (world, some (.appended (.plan plan)))
    | none => (world.move worker (.plan .archiving plan cycleId), none)

/-- The rows that the update of `append_plan` finds. -/
def plansToArchive (plan : PlanRecord) : List String :=
  (world.tables.plans.filter fun row => row.plan.agentId = plan.agentId ∧
    row.plan.planType = plan.planType ∧ row.active).map fun row => row.plan.id

/-- The other statements of `append_plan`. -/
def advancePlan (plan : PlanRecord) (cycleId : String) :
    PlanPoint → MemoryWorld n × Option MemoryAnswer
  | .archiving =>
      (world.move worker (.plan (.waiting (world.plansToArchive plan)) plan cycleId), none)
  | .waiting found =>
      if world.ArchivedInFlight worker found then (world, none)
      else
        let archived := found.filter fun id => id ∈ world.plansToArchive plan
        (world.move worker (.plan (.inserting archived) plan cycleId), none)
  | .inserting archived =>
      if world.PlanInFlight worker plan.id then (world, none)
      else if (world.tables.plan? plan.id).isSome then
        world.fail worker (.databaseError "duplicate key value violates unique constraint")
      else if plan.agentId ∉ world.tables.agents then
        world.fail worker (.databaseError "insert or update violates foreign key constraint")
      else if plan.createdAt.isAware = false then
        world.fail worker (.valueError "timestamps must be timezone-aware")
      else if cycleId ∉ world.tables.cycles then
        world.fail worker (.databaseError "insert or update violates foreign key constraint")
      else (world.move worker (.plan (.committing archived) plan cycleId), none)
  | .committing archived =>
      world.commit worker
        (world.tables.replacePlans archived ⟨plan, cycleId, plan.fingerprint texts, true⟩)
        (.plan plan)

/-- The first statement of `_delete_belief`, which commits if it has changed a row. -/
def beginDelete (agentId beliefId : String) : MemoryWorld n × Option MemoryAnswer :=
  if world.tables.beliefs.any fun row =>
      row.belief.id = beliefId ∧ row.belief.agentId = agentId ∧ row.active then
    ({ world with tables := world.tables.deactivate agentId beliefId },
      some (.deleted agentId beliefId false))
  else (world.move worker (.deleting agentId beliefId), none)

/-- The second statement of `_delete_belief`. -/
def advanceDelete (agentId beliefId : String) : MemoryWorld n × Option MemoryAnswer :=
  match world.tables.beliefs.find? fun row =>
      row.belief.id = beliefId ∧ row.belief.agentId = agentId with
  | none => world.fail worker (.toolContextUnavailable "belief is missing or foreign")
  | some row =>
      if row.active then
        world.fail worker (.toolContextUnavailable "belief deactivation did not persist")
      else (world.move worker .idle, some (.deleted agentId beliefId true))

/-- One statement.  A worker has one call at a time. -/
def step : MemoryEvent n → MemoryWorld n × Option MemoryAnswer
  | .appendBelief worker belief actorId cycleId =>
      match world.stages worker with
      | .idle => world.beginBelief texts worker belief actorId cycleId
      | .belief _ _ _ | .plan _ _ _ | .deleting _ _ => (world, none)
  | .appendPlan worker plan actorId cycleId =>
      match world.stages worker with
      | .idle => world.beginPlan texts worker plan actorId cycleId
      | .belief _ _ _ | .plan _ _ _ | .deleting _ _ => (world, none)
  | .deleteBelief worker agentId beliefId =>
      match world.stages worker with
      | .idle => world.beginDelete worker agentId beliefId
      | .belief _ _ _ | .plan _ _ _ | .deleting _ _ => (world, none)
  | .advance worker =>
      match world.stages worker with
      | .idle => (world, none)
      | .belief point belief cycleId =>
          world.advanceBelief texts maximum worker belief cycleId point
      | .plan point plan cycleId => world.advancePlan texts worker plan cycleId point
      | .deleting agentId beliefId => world.advanceDelete worker agentId beliefId
  | .stop worker => (world.move worker .idle, none)

/-! ## What a statement does -/

/-- A call goes on or raises. -/
def Unanswered (answer : Option MemoryAnswer) : Prop := ∀ given ∈ answer, ∃ failure,
  given = .raised failure

/-- The effects of a statement, one for each of its kinds. -/
inductive Statement : MemoryEvent n → MemoryWorld n → Option MemoryAnswer → Prop
  | stays (event : MemoryEvent n) (answer : Option MemoryAnswer) (h : Unanswered answer) :
      Statement event world answer
  | finds (event : MemoryEvent n) (belief : BeliefRecord) (row : BeliefRow)
      (hrow : row ∈ world.tables.beliefs) (hid : row.belief.id = belief.id)
      (hfingerprint : row.fingerprint = belief.fingerprint texts) :
      Statement event world (some (.appended (.belief belief)))
  | findsPlan (event : MemoryEvent n) (plan : PlanRecord) (row : PlanRow)
      (hrow : row ∈ world.tables.plans) (hid : row.plan.id = plan.id)
      (hfingerprint : row.fingerprint = plan.fingerprint texts) :
      Statement event world (some (.appended (.plan plan)))
  | leaves (event : MemoryEvent n) (worker : Fin n) (stage : MemoryStage)
      (answer : Option MemoryAnswer) (hrecord : stage.record? = none)
      (h : Unanswered answer) : Statement event (world.move worker stage) answer
  | begins (worker : Fin n) (belief : BeliefRecord) (cycleId : String)
      (hstage : world.stages worker = .idle) :
      Statement (.appendBelief worker belief belief.agentId cycleId)
        (world.move worker (.belief .locking belief cycleId)) none
  | locks (event : MemoryEvent n) (worker : Fin n) (belief : BeliefRecord) (cycleId : String)
      (hstage : world.stages worker = .belief .locking belief cycleId)
      (hfree : ¬ world.Locked worker belief.agentId) :
      Statement event (world.move worker (.belief .counting belief cycleId)) none
  | counts (event : MemoryEvent n) (worker : Fin n) (belief : BeliefRecord) (cycleId : String)
      (hstage : world.stages worker = .belief .counting belief cycleId)
      (hroom : (world.tables.activeBeliefs belief.agentId).length < maximum) :
      Statement event (world.move worker (.belief .inserting belief cycleId)) none
  | inserts (event : MemoryEvent n) (worker : Fin n) (belief : BeliefRecord) (cycleId : String)
      (hstage : world.stages worker = .belief .inserting belief cycleId)
      (hfree : ¬ world.BeliefInFlight worker belief.id)
      (hnew : world.tables.belief? belief.id = none) :
      Statement event (world.move worker (.belief .committing belief cycleId)) none
  | commits (event : MemoryEvent n) (worker : Fin n) (belief : BeliefRecord) (cycleId : String)
      (hstage : world.stages worker = .belief .committing belief cycleId) :
      Statement event
        (world.commit worker
          (world.tables.insertBelief ⟨belief, cycleId, belief.fingerprint texts, true⟩)
          (.belief belief)).1 (some (.appended (.belief belief)))
  | beginsPlan (worker : Fin n) (plan : PlanRecord) (cycleId : String)
      (hstage : world.stages worker = .idle) :
      Statement (.appendPlan worker plan plan.agentId cycleId)
        (world.move worker (.plan .archiving plan cycleId)) none
  | findsPlans (event : MemoryEvent n) (worker : Fin n) (plan : PlanRecord) (cycleId : String)
      (hstage : world.stages worker = .plan .archiving plan cycleId) :
      Statement event
        (world.move worker (.plan (.waiting (world.plansToArchive plan)) plan cycleId)) none
  | archives (event : MemoryEvent n) (worker : Fin n) (plan : PlanRecord) (cycleId : String)
      (found : List String)
      (hstage : world.stages worker = .plan (.waiting found) plan cycleId) :
      Statement event (world.move worker
        (.plan (.inserting (found.filter fun id => id ∈ world.plansToArchive plan)) plan cycleId))
        none
  | insertsPlan (event : MemoryEvent n) (worker : Fin n) (plan : PlanRecord) (cycleId : String)
      (archived : List String)
      (hstage : world.stages worker = .plan (.inserting archived) plan cycleId)
      (hfree : ¬ world.PlanInFlight worker plan.id) (hnew : world.tables.plan? plan.id = none) :
      Statement event (world.move worker (.plan (.committing archived) plan cycleId)) none
  | commitsPlan (event : MemoryEvent n) (worker : Fin n) (plan : PlanRecord) (cycleId : String)
      (archived : List String)
      (hstage : world.stages worker = .plan (.committing archived) plan cycleId) :
      Statement event
        (world.commit worker
          (world.tables.replacePlans archived ⟨plan, cycleId, plan.fingerprint texts, true⟩)
          (.plan plan)).1 (some (.appended (.plan plan)))
  | deactivates (event : MemoryEvent n) (agentId beliefId : String) (row : BeliefRow)
      (hrow : row ∈ world.tables.beliefs)
      (hid : row.belief.id = beliefId ∧ row.belief.agentId = agentId) :
      Statement event { world with tables := world.tables.deactivate agentId beliefId }
        (some (.deleted agentId beliefId false))
  | alreadyInactive (event : MemoryEvent n) (worker : Fin n) (agentId beliefId : String)
      (row : BeliefRow) (hrow : row ∈ world.tables.beliefs)
      (hid : row.belief.id = beliefId ∧ row.belief.agentId = agentId)
      (hinactive : row.active = false) :
      Statement event (world.move worker .idle) (some (.deleted agentId beliefId true))

variable {texts maximum world worker}

/-- What a stage has when a worker is idle, the stage of another has. -/
theorem of_idle {α : Type} (f : MemoryStage → Option α) (hidle : f .idle = none) {other : Fin n}
    {value : α} (h : f ((world.move worker .idle).stages other) = some value) :
    other ≠ worker ∧ f (world.stages other) = some value := by
  simp only [MemoryWorld.move, Function.update_apply] at h
  split at h
  · rw [hidle] at h
    cases h
  next hother => exact ⟨hother, h⟩

@[simp]
theorem unanswered_none : Unanswered none := by
  rintro _ ⟨⟩

@[simp]
theorem unanswered_raised (failure : MemoryFailure) : Unanswered (some (.raised failure)) := by
  rintro _ ⟨⟩
  exact ⟨failure, rfl⟩

theorem Statement.fails (event : MemoryEvent n) (failure : MemoryFailure) :
    Statement texts maximum world event (world.fail worker failure).1
      (world.fail worker failure).2 :=
  .leaves event worker .idle _ rfl (unanswered_raised failure)

theorem beginBelief_statement (belief : BeliefRecord) (actorId cycleId : String)
    (hstage : world.stages worker = .idle) :
    Statement texts maximum world (.appendBelief worker belief actorId cycleId)
      (world.beginBelief texts worker belief actorId cycleId).1
      (world.beginBelief texts worker belief actorId cycleId).2 := by
  unfold beginBelief
  split
  · exact .stays _ _ (unanswered_raised _)
  next hactor =>
    obtain rfl := not_not.mp hactor
    split
    next row hrow =>
      split
      · exact .stays _ _ (unanswered_raised _)
      next hfingerprint =>
        have hid : row.belief.id = belief.id := by simpa using List.find?_some hrow
        exact .finds _ belief row (List.mem_of_find?_eq_some hrow) hid
          (not_not.mp hfingerprint)
    · exact .begins worker belief cycleId hstage

theorem advanceBelief_statement (event : MemoryEvent n) {point : BeliefPoint}
    {belief : BeliefRecord} {cycleId : String}
    (hstage : world.stages worker = .belief point belief cycleId) :
    Statement texts maximum world event
      (world.advanceBelief texts maximum worker belief cycleId point).1
      (world.advanceBelief texts maximum worker belief cycleId point).2 := by
  cases point with
  | locking =>
      unfold advanceBelief
      dsimp only
      split
      · exact .stays event none unanswered_none
      next hfree =>
        split
        · exact .fails event _
        · exact .locks event worker belief cycleId hstage hfree
  | counting =>
      unfold advanceBelief
      dsimp only
      split
      · exact .fails event _
      next hroom => exact .counts event worker belief cycleId hstage (not_le.mp hroom)
  | inserting =>
      unfold advanceBelief
      dsimp only
      split
      · exact .stays event none unanswered_none
      next hfree =>
        split
        · exact .fails event _
        next hnew =>
          split
          · exact .fails event _
          · split
            · exact .fails event _
            · exact .inserts event worker belief cycleId hstage hfree (by simpa using hnew)
  | committing => exact .commits event worker belief cycleId hstage

theorem beginPlan_statement (plan : PlanRecord) (actorId cycleId : String)
    (hstage : world.stages worker = .idle) :
    Statement texts maximum world (.appendPlan worker plan actorId cycleId)
      (world.beginPlan texts worker plan actorId cycleId).1
      (world.beginPlan texts worker plan actorId cycleId).2 := by
  unfold beginPlan
  split
  · exact .stays _ _ (unanswered_raised _)
  next hactor =>
    obtain rfl := not_not.mp hactor
    split
    next row hrow =>
      split
      · exact .stays _ _ (unanswered_raised _)
      next hfingerprint =>
        have hid : row.plan.id = plan.id := by simpa using List.find?_some hrow
        exact .findsPlan _ plan row (List.mem_of_find?_eq_some hrow) hid
          (not_not.mp hfingerprint)
    · exact .beginsPlan worker plan cycleId hstage

theorem advancePlan_statement (event : MemoryEvent n) {point : PlanPoint} {plan : PlanRecord}
    {cycleId : String} (hstage : world.stages worker = .plan point plan cycleId) :
    Statement texts maximum world event
      (world.advancePlan texts worker plan cycleId point).1
      (world.advancePlan texts worker plan cycleId point).2 := by
  cases point with
  | archiving => exact .findsPlans event worker plan cycleId hstage
  | waiting found =>
      unfold advancePlan
      dsimp only
      split
      · exact .stays event none unanswered_none
      · exact .archives event worker plan cycleId found hstage
  | inserting archived =>
      unfold advancePlan
      dsimp only
      split
      · exact .stays event none unanswered_none
      next hfree =>
        split
        · exact .fails event _
        next hnew =>
          split
          · exact .fails event _
          · split
            · exact .fails event _
            · split
              · exact .fails event _
              · exact .insertsPlan event worker plan cycleId archived hstage hfree
                  (by simpa using hnew)
  | committing archived => exact .commitsPlan event worker plan cycleId archived hstage

theorem beginDelete_statement (event : MemoryEvent n) (agentId beliefId : String) :
    Statement texts maximum world event (world.beginDelete worker agentId beliefId).1
      (world.beginDelete worker agentId beliefId).2 := by
  unfold beginDelete
  split
  next hany =>
    obtain ⟨row, hrow, hid⟩ := List.any_eq_true.mp hany
    simp only [decide_eq_true_eq] at hid
    exact .deactivates event agentId beliefId row hrow ⟨hid.1, hid.2.1⟩
  · exact .leaves event worker _ none rfl unanswered_none

theorem advanceDelete_statement (event : MemoryEvent n) (agentId beliefId : String) :
    Statement texts maximum world event (world.advanceDelete worker agentId beliefId).1
      (world.advanceDelete worker agentId beliefId).2 := by
  unfold advanceDelete
  split
  · exact .fails event _
  next row hrow =>
    split
    · exact .fails event _
    next hactive =>
      have hid := List.find?_some hrow
      simp only [decide_eq_true_eq] at hid
      exact .alreadyInactive event worker agentId beliefId row (List.mem_of_find?_eq_some hrow)
        hid (Bool.eq_false_of_not_eq_true hactive)

theorem step_statement (event : MemoryEvent n) :
    Statement texts maximum world event (world.step texts maximum event).1
      (world.step texts maximum event).2 := by
  cases event with
  | appendBelief worker belief actorId cycleId =>
      unfold step
      dsimp only
      split
      next hstage => exact beginBelief_statement belief actorId cycleId hstage
      all_goals exact .stays _ none unanswered_none
  | appendPlan worker plan actorId cycleId =>
      unfold step
      dsimp only
      split
      next hstage => exact beginPlan_statement plan actorId cycleId hstage
      all_goals exact .stays _ none unanswered_none
  | deleteBelief worker agentId beliefId =>
      unfold step
      dsimp only
      split
      · exact beginDelete_statement _ agentId beliefId
      all_goals exact .stays _ none unanswered_none
  | advance worker =>
      unfold step
      dsimp only
      split
      · exact .stays _ none unanswered_none
      next hstage => exact advanceBelief_statement _ hstage
      next hstage => exact advancePlan_statement _ hstage
      · exact advanceDelete_statement _ _ _
  | stop worker => exact .leaves _ worker .idle none rfl unanswered_none

end MemoryWorld

end VTrade
