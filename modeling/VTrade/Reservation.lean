/-
# Reserving an order

Before an order goes to the market its intention is recorded, in a transaction of its
own.  A key that has an operation or an intent already is answered with what is there;
only a key that has neither gets an intent, and with it the right to execute.

Intents are never deleted, so a key is reserved once.
-/

import VTrade.Repository

namespace VTrade

/-- What `prepare_order_intent` answers.  The existing result is named by its
operation. -/
structure OrderIntentReservation where
  operationId : String
  marketOutcome : Option PositionKey
  created : Bool
  existingResult : Option String := none
  conflict : Bool := false
  blocked : Bool := false
  inFlight : Bool := false
  deriving DecidableEq

/-- The intent of an order that is about to be executed. -/
def intentRow (digests : Digests) (request : OrderRequest) (frozenCutoff : Instant) : IntentRow where
  agentId := request.agentId
  marketOutcome := request.positionKey
  frozenCutoff := frozenCutoff
  requestedAt := request.createdAt
  idempotencyKey := request.idempotencyKey
  requestFingerprint := digests.fingerprint request
  status := .opened
  operationId := none

namespace Database

variable (digests : Digests) (db : Database)

/-- What a key with an operation is answered. -/
def reservedOperation (request : OrderRequest) (existing : OperationRow) :
    OrderIntentReservation :=
  if existing.requestFingerprint ≠ digests.fingerprint request then
    { operationId := existing.id
      marketOutcome := some existing.marketOutcome
      created := false
      conflict := true }
  else
    { operationId := existing.id
      marketOutcome := some existing.marketOutcome
      created := false
      existingResult := some existing.id }

/-- What a key with an intent and without an operation is answered. -/
def reservedIntent (request : OrderRequest) (operationId : String) (intent : IntentRow) :
    OrderIntentReservation :=
  if intent.requestFingerprint ≠ digests.fingerprint request then
    { operationId := operationId
      marketOutcome := some intent.marketOutcome
      created := false
      conflict := true }
  else
    { operationId := operationId
      marketOutcome := some intent.marketOutcome
      created := false
      inFlight := intent.operationId = none ∧ intent.status = .opened }

/-- Reserve a key that has neither, for an agent that may trade. -/
def reserveNew (request : OrderRequest) (frozenCutoff : Instant)
    (agentId agentCycleId operationId : String) :
    Except Raised (Database × OrderIntentReservation) := do
  let cycleCutoff := ((KeyedList.lookup CycleRow.id agentCycleId db.cycles).filter fun cycle =>
    cycle.agentId = agentId).bind CycleRow.dataCutoff
  Checks.raiseFirst [
    (((db.agent agentId).isNone), .valueError "agent does not exist"),
    (((db.agent agentId).any AgentRow.paused), .valueError "agent is paused"),
    (cycleCutoff.isNone, .valueError "order intent cycle cutoff is not finalized"),
    (cycleCutoff ≠ some frozenCutoff,
      .valueError "order intent cutoff differs from the cycle cutoff")]
  if db.isBlocked agentId then
    .ok (db, {
      operationId := operationId
      marketOutcome := none
      created := false
      blocked := true })
  else do
    Checks.raiseFirst [
      ((KeyedList.lookup Prod.fst request.marketRef db.markets).isNone,
        .valueError "semantic order market identity is not persisted")]
    .ok ({ db with intents := db.intents ++ [intentRow digests request frozenCutoff] }, {
      operationId := operationId
      marketOutcome := some request.positionKey
      created := true })

/-- Record an order intention under the agent lock before venue I/O. -/
def prepareOrderIntent (request : OrderRequest) (agentId agentCycleId : String) :
    Except Raised (Database × OrderIntentReservation) :=
  if request.agentId ≠ agentId then
    .error (.valueError "database agent does not own the semantic order")
  else
    match request.frozenCutoff with
    | none => .error (.valueError "order intent requires a frozen decision cutoff")
    | some frozenCutoff =>
        if request.createdAt < frozenCutoff then
          .error (.valueError "order intent timestamp predates the frozen decision cutoff")
        else
          let operationId := digests.operationUuid request.agentId request.idempotencyKey
          match db.operation agentId request.idempotencyKey with
          | some existing => .ok (db, reservedOperation digests request existing)
          | none =>
              match db.intent agentId request.idempotencyKey with
              | some intent => .ok (db, reservedIntent digests request operationId intent)
              | none => db.reserveNew digests request frozenCutoff agentId agentCycleId operationId

variable {digests db} {request : OrderRequest} {agentId agentCycleId : String} {next : Database}
  {reservation : OrderIntentReservation}

@[simp]
theorem reservedOperation_created (existing : OperationRow) :
    (reservedOperation digests request existing).created = false := by
  unfold reservedOperation
  split <;> rfl

@[simp]
theorem reservedIntent_created (operationId : String) (intent : IntentRow) :
    (reservedIntent digests request operationId intent).created = false := by
  unfold reservedIntent
  split <;> rfl

/-- A new reservation: the key had neither an operation nor an intent, and it has an
open intent now. -/
structure ReservesNew (digests : Digests) (db : Database) (request : OrderRequest)
    (agentId agentCycleId : String) (next : Database) (reservation : OrderIntentReservation) :
    Prop where
  owned : request.agentId = agentId
  unexecuted : db.operation agentId request.idempotencyKey = none
  unreserved : db.intent agentId request.idempotencyKey = none
  unblocked : db.isBlocked agentId = false
  agent : ∃ row, db.agent agentId = some row ∧ row.paused = false
  cycle : ((KeyedList.lookup CycleRow.id agentCycleId db.cycles).bind CycleRow.dataCutoff) =
    request.frozenCutoff
  submitted : ∃ frozenCutoff, request.frozenCutoff = some frozenCutoff ∧
    frozenCutoff ≤ request.createdAt ∧
    next = { db with intents := db.intents ++ [intentRow digests request frozenCutoff] }
  operationId : reservation.operationId =
    digests.operationUuid request.agentId request.idempotencyKey
  marketOutcome : reservation.marketOutcome = some request.positionKey
  created : reservation.created = true
  existingResult : reservation.existingResult = none

/-- A reservation that is not new says why: the order is recorded already, its key is
another order's, its agent has to wait, or it has an intent, which is in flight as long as it
is open. -/
structure ReservesNothing (db : Database) (agentId idempotencyKey : String) (next : Database)
    (reservation : OrderIntentReservation) : Prop where
  created : reservation.created = false
  unchanged : next = db
  reason : reservation.existingResult.isSome = true ∨ reservation.conflict = true ∨
    reservation.blocked = true ∨ ∃ intent, db.intent agentId idempotencyKey = some intent ∧
      db.operation agentId idempotencyKey = none ∧
      reservation.inFlight = decide (intent.operationId = none ∧ intent.status = .opened)

theorem ReservesNothing.ofOperation {agentId idempotencyKey : String} (existing : OperationRow) :
    ReservesNothing db agentId idempotencyKey db
      (reservedOperation digests request existing) := by
  refine ⟨reservedOperation_created existing, rfl, ?_⟩
  unfold reservedOperation
  split
  · exact Or.inr (Or.inl rfl)
  · exact Or.inl rfl

theorem ReservesNothing.ofIntent {agentId idempotencyKey operationId : String} {intent : IntentRow}
    (hintent : db.intent agentId idempotencyKey = some intent)
    (hoperation : db.operation agentId idempotencyKey = none) :
    ReservesNothing db agentId idempotencyKey db
      (reservedIntent digests request operationId intent) := by
  refine ⟨reservedIntent_created operationId intent, rfl, ?_⟩
  unfold reservedIntent
  split
  · exact Or.inr (Or.inl rfl)
  · exact Or.inr (Or.inr (Or.inr ⟨intent, hintent, hoperation, rfl⟩))

/-- A reservation leaves the tables as they are, or is new. -/
theorem prepareOrderIntent_spec
    (h : db.prepareOrderIntent digests request agentId agentCycleId = .ok (next, reservation)) :
    ReservesNothing db agentId request.idempotencyKey next reservation ∨
      ReservesNew digests db request agentId agentCycleId next reservation := by
  unfold prepareOrderIntent at h
  obtain ⟨howned, h⟩ := Checks.ite_error_eq_ok.mp h
  split at h
  · cases h
  next frozenCutoff hfrozen =>
  obtain ⟨hcreated, h⟩ := Checks.ite_error_eq_ok.mp h
  dsimp only at h
  cases hoperation : db.operation agentId request.idempotencyKey with
  | some existing =>
      rw [hoperation] at h
      cases h
      exact Or.inl (.ofOperation existing)
  | none =>
      rw [hoperation] at h
      dsimp only at h
      cases hintent : db.intent agentId request.idempotencyKey with
      | some intent =>
          rw [hintent] at h
          cases h
          exact Or.inl (.ofIntent hintent hoperation)
      | none =>
          rw [hintent] at h
          unfold reserveNew at h
          dsimp only at h
          obtain ⟨⟨⟩, hchecks, h⟩ := Checks.bind_eq_ok.mp h
          simp only [Checks.raiseFirst_cons_eq_ok, Checks.raiseFirst_nil,
            decide_eq_false_iff_not, not_not, and_true] at hchecks
          obtain ⟨hagent, hpaused, -, hcutoff⟩ := hchecks
          split at h
          · cases h
            exact Or.inl ⟨rfl, rfl, Or.inr (Or.inr (Or.inl rfl))⟩
          next hblocked =>
            obtain ⟨_, -, h⟩ := Checks.bind_eq_ok.mp h
            cases h
            obtain ⟨row, hrow⟩ := Option.isSome_iff_exists.mp (Option.isNone_eq_false_iff.mp hagent)
            rw [hrow] at hpaused
            refine Or.inr ⟨not_not.mp howned, hoperation, hintent, by simpa using hblocked,
              ⟨row, hrow, hpaused⟩, ?_, ⟨frozenCutoff, hfrozen, not_lt.mp hcreated, rfl⟩,
              rfl, rfl, rfl, rfl⟩
            rw [hfrozen, ← hcutoff]
            obtain ⟨cutoff, hsome⟩ := Option.isSome_iff_exists.mp
              (by rw [hcutoff]; rfl : Option.isSome (((KeyedList.lookup CycleRow.id agentCycleId
                db.cycles).filter fun cycle => cycle.agentId = agentId).bind CycleRow.dataCutoff))
            rw [hsome]
            obtain ⟨cycle, hcycle, hdata⟩ := Option.bind_eq_some_iff.mp hsome
            rw [(Option.filter_eq_some_iff.mp hcycle).1]
            exact hdata

end Database

end VTrade
