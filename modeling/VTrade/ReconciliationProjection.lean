/-
# What an order is taken to be found out as

The reconciliation state of an order is written with each event that is appended, whatever
its number.  It is the state of the latest event as long as every event comes after the
ones that are there, or says what the order is in already; and a repeated number is told
from a new event by the evidence alone, not by the state.
-/

import VTrade.FillRecording
import VTrade.OrderEvents

namespace VTrade

/-- What a call says that was found out about an order. -/
structure Observation where
  agentId : String
  sequenceNumber : ℤ
  state : ReconciliationState
  evidence : JsonObject
  observedAt : Instant

namespace JsonTexts

variable (texts : JsonTexts)

/-- Whether stored evidence is this evidence. -/
def Holds (stored : Json) (evidence : JsonObject) : Prop :=
  ∃ fields, texts.storedEvidence stored = .ok fields ∧
    (Json.object fields).Same (.object evidence)

/-- Whether stored evidence cannot be told from this evidence. -/
def Matches (stored : Json) (evidence : JsonObject) : Prop :=
  ∃ fields, texts.storedEvidence stored = .ok fields ∧
    texts.digest (.object fields) = texts.digest (.object evidence)

end JsonTexts

namespace OrderTables

variable (texts : JsonTexts) (operationId : String)

/-- One call about an order: a transaction that raises changes nothing. -/
def observe (tables : OrderTables) (call : Observation) :
    OrderTables × Except Raised PersistenceResult :=
  match tables.persistReconciliationEvent texts operationId call.agentId call.sequenceNumber
      call.state call.evidence call.observedAt with
  | .ok (next, persisted) => (next, .ok persisted)
  | .error raised => (tables, .error raised)

/-- An order is in the state of its latest event. -/
def Projects (tables : OrderTables) : Prop :=
  ∀ row last, tables.order operationId = some row →
    tables.reconciliationEvents.latest operationId = some last →
      row.reconciliationState = last.state

/-- A stored number with another state or other evidence is refused. -/
def RefusesReuse (tables : OrderTables) (call : Observation) : Prop :=
  ∀ existing, tables.reconciliationEvents.numbered operationId call.sequenceNumber =
      some existing →
    existing.state ≠ call.state ∨ ¬ texts.Holds existing.detail call.evidence →
      ∃ raised, observe texts operationId tables call = (tables, .error raised)

/-- Whether a new event can be appended. -/
def Admits (tables : OrderTables) (call : Observation) : Prop :=
  (0 ≤ call.sequenceNumber ∧ call.sequenceNumber < 2 ^ 31) ∧
    tables.reconciliationEvents.rows.any (fun other => other.clashes
      (reconciliationNames.row operationId call.sequenceNumber call.state
        (Json.object call.evidence).jsonb call.observedAt)) = false

/-- Whether the number of a call is above those of all events of the order. -/
def ComesLast (tables : OrderTables) (call : Observation) : Prop :=
  ∀ last, tables.reconciliationEvents.latest operationId = some last →
    last.sequenceNumber < call.sequenceNumber

/-- A call that repeats a number says what the stored event says, unless its evidence gives
it away; one with a new number is the owner's and comes last, or neither, or it says what
the order is in already. -/
def KeepsProjection (tables : OrderTables) (call : Observation) : Prop :=
  match tables.reconciliationEvents.numbered operationId call.sequenceNumber with
  | some existing => texts.Matches existing.detail call.evidence →
      existing.state = call.state ∧ texts.Holds existing.detail call.evidence
  | none => tables.Admits operationId call → ∀ row, tables.order operationId = some row →
      (row.agentId = call.agentId ↔ tables.ComesLast operationId call) ∨
        row.reconciliationState = call.state

variable {texts operationId} {tables : OrderTables} {call : Observation}

theorem admits_iff :
    tables.Admits operationId call ↔
      (tables.reconciliationEvents.insert
        (reconciliationNames.row operationId call.sequenceNumber call.state
          (Json.object call.evidence).jsonb call.observedAt)
        (reconciliationNames.row_respects operationId call.sequenceNumber call.state _
          call.observedAt)).isOk = true := by
  rw [EventTable.insert_isOk_iff]
  exact Iff.rfl

/-! ## One call -/

/-- A call with a stored number writes nothing, and it is answered if its evidence cannot be
told from the stored one. -/
theorem observe_of_numbered {existing : EventRow ReconciliationState Json}
    (hexisting : tables.reconciliationEvents.numbered operationId call.sequenceNumber =
      some existing) :
    (observe texts operationId tables call).1 = tables ∧
      ((observe texts operationId tables call).2.isOk = true ↔
        texts.Matches existing.detail call.evidence) := by
  obtain ⟨hmem, hnumber⟩ := EventTable.numbered_eq_some_iff.mp hexisting
  have hnonneg := tables.reconciliationEvents.numbers_nonneg existing
    (EventTable.mem_ofOperation.mp hmem).1
  have hpersist : tables.persistReconciliationEvent texts operationId call.agentId
      call.sequenceNumber call.state call.evidence call.observedAt =
      (texts.storedEvidence existing.detail).bind fun stored =>
        if texts.digest (.object stored) ≠ texts.digest (.object call.evidence) then
          .error (.valueError "reconciliation sequence was reused with divergent evidence")
        else .ok (tables, ⟨existing.id, false⟩) := by
    rw [persistReconciliationEvent, if_neg (by omega), hexisting]
    rfl
  rw [observe, hpersist]
  cases hstored : texts.storedEvidence existing.detail with
  | error raised =>
      refine ⟨rfl, iff_of_false Bool.false_ne_true ?_⟩
      rintro ⟨fields, hfields, -⟩
      rw [hstored] at hfields
      cases hfields
  | ok fields =>
      by_cases hdigest : texts.digest (.object fields) = texts.digest (.object call.evidence)
      · rw [Except.bind, if_neg (not_not.mpr hdigest)]
        exact ⟨rfl, iff_of_true rfl ⟨fields, hstored, hdigest⟩⟩
      · rw [Except.bind, if_pos hdigest]
        refine ⟨rfl, iff_of_false Bool.false_ne_true ?_⟩
        rintro ⟨other, hother, hsame⟩
        rw [hstored] at hother
        cases hother
        exact hdigest hsame

/-- The tables after a new event is appended. -/
structure Appends (operationId : String) (call : Observation) (tables next : OrderTables) :
    Prop where
  events : next.reconciliationEvents.latest operationId = some
    ((tables.reconciliationEvents.latest operationId).elim
      (reconciliationNames.row operationId call.sequenceNumber call.state
        (Json.object call.evidence).jsonb call.observedAt)
      fun last => if last.sequenceNumber < call.sequenceNumber then
        reconciliationNames.row operationId call.sequenceNumber call.state
          (Json.object call.evidence).jsonb call.observedAt
      else last)
  order : next.order operationId = (tables.order operationId).map fun row =>
    if row.agentId = call.agentId then row.moved row.state call.state call.observedAt else row

/-- A call with a new number is answered if its event can be appended; otherwise it writes
nothing. -/
theorem observe_of_new
    (hnew : tables.reconciliationEvents.numbered operationId call.sequenceNumber = none) :
    ((tables.order operationId = none ∨ ¬ tables.Admits operationId call) ∧
        ∃ raised, observe texts operationId tables call = (tables, .error raised)) ∨
      (tables.Admits operationId call ∧
        (observe texts operationId tables call).2.isOk = true ∧
        Appends operationId call tables (observe texts operationId tables call).1) := by
  unfold observe persistReconciliationEvent
  by_cases hnegative : call.sequenceNumber < 0
  · rw [if_pos hnegative]
    refine Or.inl ⟨Or.inr ?_, _, rfl⟩
    intro hadmits
    exact absurd hadmits.1.1 (not_le.mpr hnegative)
  rw [if_neg hnegative, hnew]
  dsimp only
  unfold insertReconciliationEvent
  cases horder : tables.order operationId with
  | none => exact Or.inl ⟨Or.inl rfl, _, rfl⟩
  | some row =>
      rw [if_neg (fun h => by cases h)]
      cases hinsert : tables.reconciliationEvents.insert
          (reconciliationNames.row operationId call.sequenceNumber call.state
            (Json.object call.evidence).jsonb call.observedAt)
          (reconciliationNames.row_respects operationId call.sequenceNumber call.state _
            call.observedAt) with
      | error raised =>
          refine Or.inl ⟨Or.inr ?_, raised, rfl⟩
          intro hadmits
          rw [admits_iff, hinsert] at hadmits
          cases hadmits
      | ok events =>
          refine Or.inr ⟨admits_iff.mpr (by rw [hinsert]; rfl), rfl, ?_, ?_⟩
          · exact EventTable.latest_insert hinsert
          · refine (order_moveOrder _ operationId call.agentId _ _ _ operationId).trans ?_
            rw [show OrderTables.order { tables with reconciliationEvents := events } operationId =
              tables.order operationId from rfl, horder, Option.map_some, Option.map_some]
            have hid : row.id = operationId := (mem_of_order horder).2
            simp only [hid, true_and]

/-- An appended event keeps the order in the state of its latest event exactly if it is the
owner's and comes last, or neither, or says what the order is in. -/
theorem Appends.projects_iff {next : OrderTables} {row : OrderRow}
    (happends : Appends operationId call tables next) (hrow : tables.order operationId = some row)
    (hprojects : tables.Projects operationId) :
    next.Projects operationId ↔
      (row.agentId = call.agentId ↔ tables.ComesLast operationId call) ∨
        row.reconciliationState = call.state := by
  have horder := happends.order
  rw [hrow, Option.map_some] at horder
  have hnext : next.Projects operationId ↔ ∀ last,
      next.reconciliationEvents.latest operationId = some last →
        (if row.agentId = call.agentId then call.state else row.reconciliationState) =
          last.state := by
    constructor
    · intro h last hlast
      have hstate := h _ last horder hlast
      split at hstate
      next howner => rw [if_pos howner]; exact hstate
      next howner => rw [if_neg howner]; exact hstate
    · intro h reached last hreached hlast
      rw [horder] at hreached
      cases hreached
      have hstate := h last hlast
      split
      next howner => rw [if_pos howner] at hstate; exact hstate
      next howner => rw [if_neg howner] at hstate; exact hstate
  rw [hnext, happends.events]
  simp only [Option.some.injEq, forall_eq']
  unfold ComesLast
  cases hlatest : tables.reconciliationEvents.latest operationId with
  | none =>
      rw [Option.elim_none]
      by_cases howner : row.agentId = call.agentId
      · simp [howner, EventNames.row]
      · simp [howner, EventNames.row]
  | some last =>
      have hcurrent := hprojects row last hrow hlatest
      rw [Option.elim_some]
      by_cases hlast : last.sequenceNumber < call.sequenceNumber
      · by_cases howner : row.agentId = call.agentId
        · simp [howner, hlast, EventNames.row]
        · simp [howner, hlast, EventNames.row]
      · by_cases howner : row.agentId = call.agentId
        · simp [howner, hlast, hcurrent, eq_comm]
        · simp [howner, hlast, hcurrent]

/-- What one call is asked for: where it is answered the order is in the state of its latest
event, and it answers no stored number with another state or other evidence. -/
def ObservesWell (texts : JsonTexts) (operationId : String) (tables : OrderTables)
    (call : Observation) : Prop :=
  ((observe texts operationId tables call).2.isOk = true →
    (observe texts operationId tables call).1.Projects operationId) ∧
      tables.RefusesReuse texts operationId call

/-- A call that raises leaves the tables. -/
theorem observe_of_error (h : (observe texts operationId tables call).2.isOk = false) :
    (observe texts operationId tables call).1 = tables := by
  unfold observe at h ⊢
  split
  next hpersist => rw [hpersist] at h; cases h
  next => rfl

/-- A call does what it is asked for exactly if it keeps the order in the state of its latest
event. -/
theorem observesWell_iff (hprojects : tables.Projects operationId) :
    ObservesWell texts operationId tables call ↔
      tables.KeepsProjection texts operationId call := by
  unfold ObservesWell KeepsProjection
  cases hnumbered : tables.reconciliationEvents.numbered operationId call.sequenceNumber with
  | some existing =>
      obtain ⟨htables, hanswered⟩ := @observe_of_numbered texts operationId tables call existing hnumbered
      dsimp only
      rw [htables, ← hanswered]
      constructor
      · rintro ⟨-, hrefuses⟩ hok
        by_contra hdiffers
        have hreused : existing.state ≠ call.state ∨ ¬ texts.Holds existing.detail call.evidence :=
          not_and_or.mp hdiffers
        obtain ⟨raised, hraised⟩ := hrefuses existing hnumbered hreused
        rw [hraised] at hok
        cases hok
      · intro hmatches
        refine ⟨fun _ => hprojects, ?_⟩
        intro other hother hreused
        obtain rfl := Option.some_inj.mp (hnumbered.symm.trans hother)
        cases hanswer : (observe texts operationId tables call).2 with
        | error raised => exact ⟨raised, Prod.ext htables hanswer⟩
        | ok persisted =>
            rw [hanswer] at hmatches
            exact absurd (hmatches rfl) (not_and_or.mpr hreused)
  | none =>
      have hrefuses : tables.RefusesReuse texts operationId call := by
        intro existing hexisting
        rw [hnumbered] at hexisting
        cases hexisting
      rw [and_iff_left hrefuses]
      rcases @observe_of_new texts operationId tables call hnumbered with
        ⟨hrejected, raised, hraised⟩ | happended
      · rw [hraised]
        refine iff_of_true (fun h => by cases h) ?_
        intro hadmits row hrow
        rcases hrejected with hmissing | hrefused
        · rw [hmissing] at hrow
          cases hrow
        · exact absurd hadmits hrefused
      · obtain ⟨hadmits, hok, happends⟩ := happended
        rw [hok]
        cases hrow : tables.order operationId with
        | none =>
            refine iff_of_true (fun _ row last hreached => ?_) (fun _ row h => by cases h)
            rw [happends.order, hrow] at hreached
            cases hreached
        | some row =>
            rw [happends.projects_iff hrow hprojects]
            simp [hadmits]

/-- A call that does what it is asked for leaves the order in the state of its latest event,
answered or not. -/
theorem ObservesWell.projects (h : ObservesWell texts operationId tables call)
    (hprojects : tables.Projects operationId) :
    (observe texts operationId tables call).1.Projects operationId := by
  cases hok : (observe texts operationId tables call).2.isOk with
  | true => exact h.1 hok
  | false =>
      rw [observe_of_error hok]
      exact hprojects

/-! ## Runs -/

/-- Along the calls about an order, each leaves it in the state of its latest event and
refuses to reuse a number exactly if each keeps the projection. -/
theorem reconciliation_projected_iff (calls : List Observation)
    (hprojects : tables.Projects operationId) :
    (∀ before call after, calls = before ++ call :: after →
      let reached := Runs.final (observe texts operationId) tables before
      ((observe texts operationId reached call).2.isOk = true →
        (observe texts operationId reached call).1.Projects operationId) ∧
      reached.RefusesReuse texts operationId call) ↔
    Runs.Along (observe texts operationId) (KeepsProjection texts operationId) tables calls := by
  have hagree : ∀ state call, state.Projects operationId →
      (ObservesWell texts operationId state call ↔
        state.KeepsProjection texts operationId call) := fun _ _ h => observesWell_iff h
  have hkeeps : ∀ state call, state.Projects operationId →
      ObservesWell texts operationId state call →
        (observe texts operationId state call).1.Projects operationId :=
    fun _ _ h hwell => hwell.projects h
  rw [← Runs.along_congr (observe texts operationId) hagree hkeeps calls hprojects,
    Runs.along_iff (observe texts operationId)]
  exact Iff.rfl

end OrderTables

namespace Sample

/-- An order that waits for reconciliation, with the event it was recorded with. -/
def pendingOrder : OrderRow where
  id := "operation"
  agentId := "agent"
  marketOutcome := (market, .yes)
  orderSide := .buy
  idempotencyKey := "key"
  requestFingerprint := digest
  state := .pending
  reconciliationState := .required
  cashAmountMicros := none
  contractUnits := some 100
  createdAt := moment.instant
  stateVersion := 1
  updatedAt := moment.instant

def evidence : JsonObject := [("submission_state", .text "UNKNOWN")]

def pendingTables : OrderTables where
  db := { untraded with operations := [pendingOrder.toOperationRow] }
  orders := [pendingOrder]
  lifecycleEvents := ⟨[], List.nodup_nil, List.forall_mem_nil _, List.forall_mem_nil _⟩
  reconciliationEvents :=
    ⟨[reconciliationNames.row "operation" 0 .required (.object evidence) moment.instant],
      List.nodup_singleton _, List.forall_mem_singleton.mpr (le_refl 0),
      List.forall_mem_singleton.mpr (reconciliationNames.row_respects _ _ _ _ _)⟩
  orders_unique := List.nodup_singleton _
  operations_eq := rfl

def texts : JsonTexts := ⟨fun _ => none, fun _ => digest⟩

def reconciliation (sequenceNumber : ℤ) (state : ReconciliationState) : Observation where
  agentId := "agent"
  sequenceNumber := sequenceNumber
  state := state
  evidence := evidence
  observedAt := moment.instant

theorem latest_pendingTables {last : EventRow ReconciliationState Json}
    (h : pendingTables.reconciliationEvents.latest "operation" = some last) :
    last = reconciliationNames.row "operation" 0 .required (.object evidence) moment.instant :=
  List.mem_singleton.mp
    (EventTable.mem_ofOperation.mp (EventTable.latest_eq_some_iff.mp h).1).1

theorem pendingTables_projects : pendingTables.Projects "operation" := by
  intro row last hrow hlast
  rw [List.mem_singleton.mp (OrderTables.mem_of_order hrow).1, latest_pendingTables hlast]
  rfl

/-- The order is found to be resolved. -/
def resolvedTables : OrderTables :=
  (OrderTables.observe texts "operation" pendingTables (reconciliation 2 .resolved)).1

end Sample

/-- An observation after the one an order was recorded with leaves it as it says. -/
theorem reconciliation_projected_next :
    (OrderTables.observe Sample.texts "operation" Sample.pendingTables
      (Sample.reconciliation 1 .resolved)).1.Projects "operation" := by
  have hkeeps : Sample.pendingTables.KeepsProjection Sample.texts "operation"
      (Sample.reconciliation 1 .resolved) := by
    unfold OrderTables.KeepsProjection
    rw [show Sample.pendingTables.reconciliationEvents.numbered "operation"
      (Sample.reconciliation 1 .resolved).sequenceNumber = none from rfl]
    intro _ row hrow
    rw [List.mem_singleton.mp (OrderTables.mem_of_order hrow).1]
    refine Or.inl (iff_of_true rfl fun last hlast => ?_)
    rw [Sample.latest_pendingTables hlast]
    decide
  exact ((OrderTables.reconciliation_projected_iff [Sample.reconciliation 1 .resolved]
    Sample.pendingTables_projects).mpr ⟨hkeeps, trivial⟩ [] _ [] rfl).1 (by decide +kernel)

set_option maxRecDepth 10000 in
/-- An observation that comes late takes an order back from the state of its latest event, and
a number can be used again for another state. -/
theorem reconciliation_not_projected :
    Sample.pendingTables.Projects "operation" ∧
      ((OrderTables.observe Sample.texts "operation" Sample.resolvedTables
            (Sample.reconciliation 1 .required)).2.isOk = true ∧
        ¬ (OrderTables.observe Sample.texts "operation" Sample.resolvedTables
            (Sample.reconciliation 1 .required)).1.Projects "operation") ∧
      ((OrderTables.observe Sample.texts "operation" Sample.resolvedTables
            (Sample.reconciliation 2 .conflict)).2.isOk = true ∧
        ¬ Sample.resolvedTables.RefusesReuse Sample.texts "operation"
            (Sample.reconciliation 2 .conflict)) := by
  refine ⟨Sample.pendingTables_projects, ⟨by decide +kernel, ?_⟩, ⟨by decide +kernel, ?_⟩⟩
  · intro hprojects
    obtain ⟨row, hrow, hrequired⟩ := (Option.any_eq_true _ _).mp
      (by decide +kernel : ((OrderTables.observe Sample.texts "operation" Sample.resolvedTables
        (Sample.reconciliation 1 .required)).1.order "operation").any
          (fun row => row.reconciliationState = .required) = true)
    obtain ⟨last, hlast, hresolved⟩ := (Option.any_eq_true _ _).mp
      (by decide +kernel : ((OrderTables.observe Sample.texts "operation" Sample.resolvedTables
        (Sample.reconciliation 1 .required)).1.reconciliationEvents.latest "operation").any
          (fun last => last.state = .resolved) = true)
    have hstate := hprojects row last hrow hlast
    rw [of_decide_eq_true hrequired, of_decide_eq_true hresolved] at hstate
    cases hstate
  · intro hrefuses
    obtain ⟨existing, hexisting, hresolved⟩ := (Option.any_eq_true _ _).mp
      (by decide +kernel : (Sample.resolvedTables.reconciliationEvents.numbered "operation"
        (Sample.reconciliation 2 .conflict).sequenceNumber).any
          (fun existing => existing.state = .resolved) = true)
    have hdiffers : existing.state ≠ (Sample.reconciliation 2 .conflict).state := by
      rw [of_decide_eq_true hresolved]
      decide
    obtain ⟨raised, hraised⟩ := hrefuses existing hexisting (Or.inl hdiffers)
    have hok : (OrderTables.observe Sample.texts "operation" Sample.resolvedTables
        (Sample.reconciliation 2 .conflict)).2.isOk = true := by decide +kernel
    rw [hraised] at hok
    cases hok

end VTrade
