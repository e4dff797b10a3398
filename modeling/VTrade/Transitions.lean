/-
# What a step does to the tables

Seen from all agents and all keys at once, a step does little: it records at most one
key, and it moves the books of at most one agent, by one version.  Nothing that is
reserved, recorded, observed or settled is ever lost.
-/

import VTrade.Reservation
import VTrade.Transactions

namespace VTrade

namespace Database

variable (db : Database)

/-- The version of the portfolio that the tables have of an agent. -/
def portfolioVersion (agentId : String) : Option ℤ :=
  (db.agent agentId).map AgentRow.portfolioVersion

/-- The ledger and the positions of an agent. -/
def books (agentId : String) : List LedgerEntryRow × List PositionRow :=
  (db.ledgerEntries.filter fun row => row.agentId = agentId,
    db.positions.filter fun row => row.agentId = agentId)

/-- A step that records at most one key and moves the books of at most one agent. -/
structure Transition (recorded : Option (String × String)) (moved : Option String)
    (db next : Database) : Prop where
  /-- What has an intent keeps one. -/
  intents : ∀ key : String × String, (db.intent key.1 key.2).isSome →
    (next.intent key.1 key.2).isSome
  /-- What has an operation keeps one, and only the recorded key gets one. -/
  operations : ∀ key : String × String, (db.operation key.1 key.2).isSome →
    (next.operation key.1 key.2).isSome
  unrecorded : ∀ key : String × String, recorded ≠ some key →
    db.operation key.1 key.2 = none → next.operation key.1 key.2 = none
  resolutions : ∀ id row, db.resolution id = some row → next.resolution id = some row
  settlements : ∀ row ∈ db.settlements, row ∈ next.settlements
  /-- The agent that is moved goes to the next version. -/
  version : ∀ agentId, moved = some agentId →
    ∃ version, db.portfolioVersion agentId = some version ∧
      next.portfolioVersion agentId = some (version + 1)
  /-- The other agents keep their version and their books. -/
  others : ∀ agentId, moved ≠ some agentId →
    next.portfolioVersion agentId = db.portfolioVersion agentId ∧
      next.books agentId = db.books agentId

/-- A step that writes to none of these tables. -/
theorem Transition.refl : Transition none none db db where
  intents _ h := h
  operations _ h := h
  unrecorded _ _ h := h
  resolutions _ _ h := h
  settlements _ h := h
  version _ h := by cases h
  others _ _ := ⟨rfl, rfl⟩

variable {db} {next : Database}

theorem lookup_append_of_isSome {α κ : Type} [DecidableEq κ] {key : α → κ} {k : κ}
    {rows new : List α} (h : (KeyedList.lookup key k rows).isSome = true) :
    (KeyedList.lookup key k (rows ++ new)).isSome = true := by
  obtain ⟨row, hmem, hkey⟩ := KeyedList.isSome_lookup_iff.mp h
  exact KeyedList.isSome_lookup_iff.mpr ⟨row, List.mem_append_left _ hmem, hkey⟩

/-- Reserving an order adds an intent. -/
theorem Transition.reserve {digests : Digests} {request : OrderRequest}
    {agentId agentCycleId : String} {reservation : OrderIntentReservation}
    (h : db.prepareOrderIntent digests request agentId agentCycleId = .ok (next, reservation)) :
    Transition none none db next := by
  rcases prepareOrderIntent_spec h with hnothing | hnew
  · rw [hnothing.unchanged]
    exact .refl db
  · obtain ⟨frozenCutoff, -, -, rfl⟩ := hnew.submitted
    exact { Transition.refl db with
      intents := fun key hsome => lookup_append_of_isSome hsome
      others := fun _ _ => ⟨rfl, rfl⟩ }

/-- Making an intent final leaves every intent under its key. -/
theorem intent_finalizeIntent_isSome {digests : Digests} {request : OrderRequest}
    {operationId agentId idempotencyKey : String}
    (h : (db.intent agentId idempotencyKey).isSome = true) :
    ((db.finalizeIntent digests request operationId).intent agentId idempotencyKey).isSome =
      true := by
  obtain ⟨row, hmem, hkey⟩ := KeyedList.isSome_lookup_iff.mp h
  refine KeyedList.isSome_lookup_iff.mpr ⟨_, List.mem_map_of_mem hmem, ?_⟩
  split
  · exact hkey
  · exact hkey

/-- A portfolio has the version that is stored when it is loaded. -/
theorem version_of_load {agentId : String} {portfolio : ContractPortfolio}
    (h : db.loadContractPortfolio agentId = .ok portfolio) :
    db.portfolioVersion agentId = some portfolio.version := by
  unfold loadContractPortfolio at h
  split at h
  · cases h
  next account haccount =>
    obtain ⟨positions, -, h⟩ := Checks.bind_eq_ok.mp h
    rw [portfolioVersion, haccount, ContractPortfolio.make_eq_ok_iff.mp h]
    rfl

/-- The versions after the row of an agent is written. -/
theorem portfolioVersion_upsert {agentId : String} {row : AgentRow} {version : ℤ}
    (hrow : db.agent agentId = some row)
    (h : next.agents = KeyedList.upsert AgentRow.id { row with portfolioVersion := version }
      db.agents) :
    next.portfolioVersion agentId = some version ∧
      ∀ other, other ≠ agentId → next.portfolioVersion other = db.portfolioVersion other := by
  have hid : row.id = agentId := KeyedList.key_of_lookup_eq_some hrow
  subst hid
  constructor
  · have hself := @KeyedList.lookup_upsert_self _ _ _ AgentRow.id
      { row with portfolioVersion := version } db.agents
    simp only [portfolioVersion, agent, h]
    rw [show KeyedList.lookup AgentRow.id row.id (KeyedList.upsert AgentRow.id
      { row with portfolioVersion := version } db.agents) = _ from hself]
    rfl
  · intro other hother
    simp only [portfolioVersion, agent, h]
    rw [@KeyedList.lookup_upsert_of_ne _ _ _ AgentRow.id other
      { row with portfolioVersion := version } hother db.agents]

/-- The books of an agent after another one's entries and position are written. -/
theorem books_eq_of_others {agentId : String} {rows : List LedgerEntryRow} {row : PositionRow}
    (hrows : ∀ entry ∈ rows, entry.agentId ≠ agentId) (hrow : row.agentId ≠ agentId)
    (hledger : next.ledgerEntries = db.ledgerEntries ++ rows)
    (hpositions : next.positions = KeyedList.upsert PositionRow.key row db.positions) :
    next.books agentId = db.books agentId := by
  have hnone : (rows.filter fun entry => entry.agentId = agentId) = [] := by
    rw [List.filter_eq_nil_iff]
    intro entry hmem
    simpa using hrows entry hmem
  have hkept : ∀ other : PositionRow, other.key = row.key →
      decide (other.agentId = agentId) = false := by
    intro other hkey
    have hagent : other.agentId = row.agentId := congrArg Prod.fst hkey
    rw [decide_eq_false_iff_not, hagent]
    exact hrow
  simp only [books, hledger, hpositions, List.filter_append, hnone, List.append_nil,
    KeyedList.filter_upsert hkept]

/-- Recording an order records its key, and moves its agent when it has fills. -/
theorem Transition.order {digests : Digests} {result : OrderResultFields}
    {agentId operationId : String} (h : RecordsOrder digests db result agentId operationId next)
    (howned : result.request.agentId = agentId)
    (hversion : ∀ before after, result.fills ≠ [] → result.portfolioBefore = some before →
      result.portfolioAfter = some after → after.version = before.version + 1) :
    Transition (some (agentId, result.request.idempotencyKey))
      (if result.fills = [] then none else some agentId) db next := by
  have hoperations : ∀ key : String × String, (db.operation key.1 key.2).isSome →
      (next.operation key.1 key.2).isSome := by
    intro key hsome
    rw [operation, h.operations]
    exact lookup_append_of_isSome hsome
  have hunrecorded : ∀ key : String × String,
      some (agentId, result.request.idempotencyKey) ≠ some key →
      db.operation key.1 key.2 = none → next.operation key.1 key.2 = none := by
    intro key hkey hnone
    rw [operation, KeyedList.lookup_eq_none_iff] at hnone
    rw [operation, h.operations, KeyedList.lookup_eq_none_iff]
    intro row hmem
    rcases List.mem_append.mp hmem with hold | hnew
    · exact hnone row hold
    · obtain rfl := List.mem_singleton.mp hnew
      intro hsame
      apply hkey
      rw [← howned]
      exact congrArg some hsame
  have hintents : ∀ key : String × String, (db.intent key.1 key.2).isSome →
      (next.intent key.1 key.2).isSome := by
    intro key hsome
    rw [intent, h.intents]
    exact intent_finalizeIntent_isSome hsome
  have hresolutions : ∀ id row, db.resolution id = some row →
      next.resolution id = some row := by
    intro id row hrow
    rw [resolution, h.resolutions]
    exact hrow
  rcases h.books with ⟨hfills, hbooks⟩ | ⟨hfills, before, after, hbefore, hafter, hmoves⟩
  · rw [if_pos hfills]
    refine ⟨hintents, hoperations, hunrecorded, hresolutions, ?_, ?_, ?_⟩
    · rw [hbooks.settlements]
      exact fun _ hmem => hmem
    · rintro _ ⟨⟩
    · intro other _
      simp only [portfolioVersion, agent, books, hbooks.agents, hbooks.ledgerEntries,
        hbooks.positions, and_self]
  · rw [if_neg hfills]
    obtain ⟨row, hrow, hrowVersion, hagents⟩ := hmoves.agents
    obtain ⟨hself, hothers⟩ := portfolioVersion_upsert hrow hagents
    refine ⟨hintents, hoperations, hunrecorded, hresolutions, ?_, ?_, ?_⟩
    · rw [hmoves.settlements]
      exact fun _ hmem => hmem
    · rintro _ ⟨⟩
      refine ⟨before.version, by rw [portfolioVersion, hrow, ← hrowVersion]; rfl, ?_⟩
      rw [hself, hversion before after hfills hbefore hafter]
    · intro other hother
      have hne : other ≠ agentId := fun hsame => hother (by rw [hsame])
      refine ⟨hothers other hne, books_eq_of_others ?_ (Ne.symm hne) hmoves.ledgerEntries
        hmoves.positions⟩
      intro entry hmem
      obtain ⟨_, -, rfl⟩ := List.mem_map.mp hmem
      exact Ne.symm hne

/-- Recording a settlement moves its agent. -/
theorem Transition.settlement {digests : Digests} {record : SettlementRecord} {agentId : String}
    {key : PositionKey} {resolutionId : String} {before after : ContractPortfolio}
    (h : RecordsSettlement digests db record agentId key resolutionId before after next)
    (hversion : after.version = before.version + 1) :
    Transition none (some agentId) db next := by
  obtain ⟨row, hrow, hrowVersion, hagents⟩ := h.agents
  obtain ⟨hself, hothers⟩ := portfolioVersion_upsert hrow hagents
  obtain ⟨position, hposition, hpositions⟩ := h.positions
  have hkey : position.key = (agentId, key) := KeyedList.key_of_lookup_eq_some hposition
  constructor
  · intro other hsome
    rw [intent, h.intents]
    exact hsome
  · intro other hsome
    rw [operation, h.operations]
    exact hsome
  · intro other _ hnone
    rw [operation, h.operations]
    exact hnone
  · intro id observation hobservation
    rw [resolution, h.resolutions]
    exact hobservation
  · intro other hmem
    rw [h.settlements]
    exact List.mem_append_left _ hmem
  · rintro _ ⟨⟩
    refine ⟨before.version, by rw [portfolioVersion, hrow, ← hrowVersion]; rfl, ?_⟩
    rw [hself, hversion]
  · intro other hother
    have hne : other ≠ agentId := fun hsame => hother (by rw [hsame])
    have hagent : position.agentId = agentId := congrArg Prod.fst hkey
    refine ⟨hothers other hne, books_eq_of_others ?_ ?_ h.ledgerEntries hpositions⟩
    · intro entry hmem
      obtain rfl := List.mem_singleton.mp hmem
      exact Ne.symm hne
    · rw [hagent]
      exact Ne.symm hne

/-- Inserting an observation adds it at the end. -/
theorem Transition.observe {row : ResolutionRow} (h : db.persistResolution row = .ok next) :
    Transition none none db next := by
  unfold persistResolution at h
  split at h
  · cases h
    exact .refl db
  · obtain ⟨-, rfl⟩ := insertResolution_cases h
    refine { Transition.refl db with resolutions := ?_, others := fun _ _ => ⟨rfl, rfl⟩ }
    intro id observation hobservation
    rw [resolution, List.find?_append, show db.resolutions.find? _ = _ from hobservation,
      Option.some_or]

theorem persistResolution_tables {row : ResolutionRow} (h : db.persistResolution row = .ok next) :
    next.intents = db.intents ∧ next.settlements = db.settlements ∧ next.fills = db.fills ∧
      next.ledgerEntries = db.ledgerEntries ∧ next.positions = db.positions ∧
      next.feeAllocations = db.feeAllocations := by
  unfold persistResolution at h
  split at h
  · cases h
    exact ⟨rfl, rfl, rfl, rfl, rfl, rfl⟩
  · obtain ⟨-, rfl⟩ := insertResolution_cases h
    exact ⟨rfl, rfl, rfl, rfl, rfl, rfl⟩

/-- Pausing agents leaves their versions. -/
theorem Transition.pause (agentId : String) (paused : Bool) :
    Transition none none db { db with
      agents := db.agents.map fun row =>
        if row.id = agentId then { row with paused := paused } else row } := by
  refine { Transition.refl db with
    version := fun _ h => by cases h
    others := fun other _ => ⟨?_, rfl⟩ }
  have hid : (AgentRow.id ∘ fun row : AgentRow =>
      if row.id = agentId then { row with paused := paused } else row) = AgentRow.id := by
    funext row
    rw [Function.comp_apply]
    split <;> rfl
  rw [portfolioVersion, portfolioVersion, agent, agent, KeyedList.lookup_map, hid,
    Option.map_map]
  congr 1
  funext row
  rw [Function.comp_apply]
  split <;> rfl

/-- Reconciling operations leaves them under their keys. -/
theorem Transition.reconcile (operationId : String) (state : OrderState)
    (reconciliation : ReconciliationState) :
    Transition none none db { db with
      operations := db.operations.map fun row =>
        if row.id = operationId then
          { row with
            state := state
            reconciliationState := reconciliation }
        else row } := by
  have hkey : (OperationRow.key ∘ fun row : OperationRow =>
      if row.id = operationId then
        { row with
          state := state
          reconciliationState := reconciliation }
      else row) = OperationRow.key := by
    funext row
    rw [Function.comp_apply]
    split <;> rfl
  refine { Transition.refl db with
    operations := ?_
    unrecorded := ?_
    others := fun _ _ => ⟨rfl, rfl⟩ }
  · intro key hsome
    rw [operation, KeyedList.lookup_map, hkey, Option.isSome_map]
    exact hsome
  · intro key _ hnone
    rw [operation, KeyedList.lookup_map, hkey, Option.map_eq_none_iff]
    exact hnone

end Database

end VTrade
