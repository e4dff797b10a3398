/-
# Reconciling what was not submitted

Before a cycle the orders that wait for reconciliation are gone through, and those that are
known not to have reached the venue are cancelled.  Whether an order is one of them depends on
its own row, its own fills and its own latest event, so that cancelling one leaves the others
as they are; and what is left waits for reasons that another pass finds again.
-/

import VTrade.ReconciliationProjection

namespace VTrade

namespace OrderTables

variable (texts : JsonTexts) (tables : OrderTables)

/-- Whether an order is pending, has no fills, and is last known not to be submitted. -/
def Unsent (row : OrderRow) : Prop :=
  row.state = .pending ∧ row.reconciliationState = .required ∧
    tables.hasFills row.id = false ∧ tables.notSubmitted texts row.id = true

instance (row : OrderRow) : Decidable (tables.Unsent texts row) :=
  inferInstanceAs (Decidable (_ ∧ _))

/-- Whether both tables of events still have a number for an order. -/
def HasRoom (operationId : String) : Prop :=
  tables.reconciliationEvents.nextSequence operationId < 2 ^ 31 ∧
    tables.lifecycleEvents.nextSequence operationId < 2 ^ 31

variable {texts tables} {row : OrderRow} {now : Instant}

/-! ## Cancelling one order -/

/-- The tables after an order is cancelled. -/
structure Cancels (tables : OrderTables) (row : OrderRow) (now : Instant) (next : OrderTables) :
    Prop where
  orders : next.orders = tables.orders.map fun other =>
    if other.id = row.id ∧ other.agentId = row.agentId then other.moved .cancelled .resolved now
    else other
  db : next.db = { tables.db with operations := next.orders.map OrderRow.toOperationRow }
  reconciliation : ∃ event, event.operationId = row.id ∧
    next.reconciliationEvents.rows = tables.reconciliationEvents.rows ++ [event]
  lifecycle : ∃ event, event.operationId = row.id ∧
    next.lifecycleEvents.rows = tables.lifecycleEvents.rows ++ [event]

/-- An order that has events gets the next number after them. -/
theorem first_le_nextSequence (h : tables.notSubmitted texts row.id = true) :
    reconciliationNames.first ≤ tables.reconciliationEvents.nextSequence row.id := by
  unfold notSubmitted at h
  unfold EventTable.nextSequence
  cases hlatest : tables.reconciliationEvents.latest row.id with
  | none =>
      rw [hlatest] at h
      cases h
  | some last =>
      have hmem := (EventTable.mem_ofOperation.mp (EventTable.latest_eq_some_iff.mp hlatest).1).1
      have hnonneg := tables.reconciliationEvents.numbers_nonneg last hmem
      exact Int.le_add_of_nonneg_left hnonneg

/-- Cancelling an order that was not submitted raises only without a number for its events. -/
theorem cancelNotSubmitted_spec (hrow : row ∈ tables.orders)
    (hsubmitted : tables.notSubmitted texts row.id = true) :
    (∃ next, tables.cancelNotSubmitted row now = .ok next ∧ Cancels tables row now next) ∨
      ((∃ raised, tables.cancelNotSubmitted row now = .error raised) ∧
        ¬ tables.HasRoom row.id) := by
  have horder := order_of_mem hrow
  unfold cancelNotSubmitted
  rw [insertReconciliationEvent_eq horder]
  have hfound := @EventTable.insert_next_isOk_iff _ _ _ tables.reconciliationEvents row.id
    .resolved (Json.object (cancellationEvidence row)).jsonb now (first_le_nextSequence hsubmitted)
  cases hinsert : tables.reconciliationEvents.insert
      (reconciliationNames.row row.id (tables.reconciliationEvents.nextSequence row.id) .resolved
        (Json.object (cancellationEvidence row)).jsonb now)
      (reconciliationNames.row_respects row.id _ _ _ now) with
  | error raised =>
      rw [hinsert] at hfound
      refine Or.inr ⟨⟨raised, rfl⟩, fun hroom => ?_⟩
      exact Bool.false_ne_true (hfound.mpr hroom.1)
  | ok events =>
      let resolved : OrderTables := { tables with reconciliationEvents := events }
      have hstates := @EventTable.insert_next_isOk_iff _ _ _ tables.lifecycleEvents row.id
        .cancelled (some "automatic reconciliation: NOT_SUBMITTED") now
        (EventTable.nextSequence_nonneg row.id)
      have hcancel := @insertCancellation_eq resolved row.id row horder
        (tables.lifecycleEvents.nextSequence row.id) "automatic reconciliation: NOT_SUBMITTED" now
      change (∃ next, ((resolved.insertCancellation row.id
          (tables.lifecycleEvents.nextSequence row.id)
          "automatic reconciliation: NOT_SUBMITTED" now).bind fun cancelled =>
            .ok (cancelled.moveOrder row.id row.agentId _ .resolved now)) = .ok next ∧ _) ∨
        ((∃ raised, ((resolved.insertCancellation row.id
          (tables.lifecycleEvents.nextSequence row.id)
          "automatic reconciliation: NOT_SUBMITTED" now).bind fun cancelled =>
            .ok (cancelled.moveOrder row.id row.agentId _ .resolved now)) = .error raised) ∧ _)
      rw [hcancel]
      cases hnext : tables.lifecycleEvents.insert
          (cancellationNames.row row.id (tables.lifecycleEvents.nextSequence row.id) .cancelled
            (some "automatic reconciliation: NOT_SUBMITTED") now)
          (cancellationNames.row_respects row.id _ _ _ now) with
      | error raised =>
          rw [hnext] at hstates
          refine Or.inr ⟨⟨raised, rfl⟩, fun hroom => ?_⟩
          exact Bool.false_ne_true (hstates.mpr hroom.2)
      | ok states =>
          exact Or.inl ⟨_, rfl, {
            orders := rfl
            db := rfl
            reconciliation := ⟨_, rfl, EventTable.insert_rows hinsert⟩
            lifecycle := ⟨_, rfl, EventTable.insert_rows hnext⟩ }⟩

/-! ## All candidates -/

/-- The tables and the agents that are noted after some candidates are gone through. -/
structure Reconciled (texts : JsonTexts) (tables : OrderTables) (now : Instant)
    (seen : List OrderRow) (reached : OrderTables × List String) : Prop where
  orders : reached.1.orders = tables.orders.map fun row =>
    if row ∈ seen ∧ tables.Unsent texts row then row.moved .cancelled .resolved now else row
  db : reached.1.db =
    { tables.db with operations := reached.1.orders.map OrderRow.toOperationRow }
  reconciliation : ∃ appended, reached.1.reconciliationEvents.rows =
      tables.reconciliationEvents.rows ++ appended ∧
    ∀ event ∈ appended, ∃ row ∈ seen, tables.Unsent texts row ∧ row.id = event.operationId
  lifecycle : ∃ appended, reached.1.lifecycleEvents.rows =
      tables.lifecycleEvents.rows ++ appended ∧
    ∀ event ∈ appended, ∃ row ∈ seen, tables.Unsent texts row ∧ row.id = event.operationId
  agents : ∀ agentId, agentId ∈ reached.2 ↔
    ∃ row ∈ seen, ¬ tables.Unsent texts row ∧ row.agentId = agentId

variable {seen rest : List OrderRow} {candidate : OrderRow} {reached : OrderTables × List String}

theorem mem_candidates : row ∈ tables.candidates ↔ row ∈ tables.orders ∧ row.unresolved = true := by
  rw [candidates, List.mem_insertionSort, List.mem_filter]

theorem candidates_ids_nodup : (tables.candidates.map fun row => row.id).Nodup := by
  have hperm := (List.perm_insertionSort (fun first second : OrderRow => first.precedes second)
    (tables.orders.filter fun row => row.unresolved)).map fun row => row.id
  exact hperm.nodup_iff.mpr (tables.orders_unique.sublist (List.filter_sublist.map _))

theorem Unsent.unresolved (h : tables.Unsent texts row) : row.unresolved = true := by
  rw [OperationRow.unresolved, h.2.1]
  rfl

/-- A candidate that is found as it was selected is cancelled, or its agent is noted. -/
theorem reconcileCandidate_eq {agents : List String}
    (horder : tables.order candidate.id = some candidate) (hcandidate : candidate.unresolved = true) :
    reconcileCandidate texts now tables agents candidate =
      if tables.Unsent texts candidate then
        (tables.cancelNotSubmitted candidate now).map fun next => (next, agents)
      else .ok (tables, candidate.agentId :: agents) := by
  have hcurrent : (tables.order candidate.id).filter
      (fun row => row.agentId = candidate.agentId) = some candidate := by
    rw [horder, Option.filter_some, if_pos (decide_eq_true rfl)]
  rw [reconcileCandidate, hcurrent]
  dsimp only
  rw [if_neg (not_not.mpr hcandidate)]
  by_cases hpending : candidate.state = .pending ∧ candidate.reconciliationState = .required
  · rw [if_neg (by rw [hpending.1, hpending.2]; simp)]
    cases hfills : tables.hasFills candidate.id with
    | true =>
        rw [if_pos rfl, if_neg fun h => by rw [h.2.2.1] at hfills; cases hfills]
    | false =>
        rw [if_neg Bool.false_ne_true]
        cases hsubmitted : tables.notSubmitted texts candidate.id with
        | true =>
            rw [if_neg (not_not.mpr rfl), if_pos ⟨hpending.1, hpending.2, hfills, hsubmitted⟩]
            rfl
        | false =>
            rw [if_pos Bool.false_ne_true,
              if_neg fun h => by rw [h.2.2.2] at hsubmitted; cases hsubmitted]
  · rw [if_pos (not_and_or.mp hpending), if_neg fun h => hpending ⟨h.1, h.2.1⟩]

namespace Reconciled

/-- The events of an order that no candidate so far has the id of. -/
theorem ofOperation {operationId : String} (h : Reconciled texts tables now seen reached)
    (hother : ∀ row ∈ seen, tables.Unsent texts row → row.id ≠ operationId) :
    reached.1.reconciliationEvents.ofOperation operationId =
        tables.reconciliationEvents.ofOperation operationId ∧
      reached.1.lifecycleEvents.ofOperation operationId =
        tables.lifecycleEvents.ofOperation operationId := by
  constructor
  · obtain ⟨appended, hrows, happended⟩ := h.reconciliation
    apply EventTable.ofOperation_append hrows
    intro event hevent
    obtain ⟨row, hrow, hunsent, hid⟩ := happended event hevent
    rw [← hid]
    exact hother row hrow hunsent
  · obtain ⟨appended, hrows, happended⟩ := h.lifecycle
    apply EventTable.ofOperation_append hrows
    intro event hevent
    obtain ⟨row, hrow, hunsent, hid⟩ := happended event hevent
    rw [← hid]
    exact hother row hrow hunsent

/-- What is known about an order that no candidate so far has the id of. -/
theorem unsent_iff (h : Reconciled texts tables now seen reached)
    (hother : ∀ other ∈ seen, tables.Unsent texts other → other.id ≠ row.id) :
    (reached.1.Unsent texts row ↔ tables.Unsent texts row) ∧
      (reached.1.HasRoom row.id ↔ tables.HasRoom row.id) := by
  obtain ⟨hfound, hstates⟩ := h.ofOperation hother
  have hfills : reached.1.hasFills row.id = tables.hasFills row.id := by
    rw [hasFills, h.db]
    rfl
  constructor
  · unfold Unsent notSubmitted EventTable.latest
    rw [hfound, hfills]
  · unfold HasRoom EventTable.nextSequence EventTable.latest
    rw [hfound, hstates]

/-- After a candidate is cancelled. -/
theorem cancelled {next : OrderTables} (h : Reconciled texts tables now seen reached)
    (hmem : candidate ∈ tables.orders) (hfresh : candidate ∉ seen)
    (hunsent : tables.Unsent texts candidate)
    (hcancels : Cancels reached.1 candidate now next) :
    Reconciled texts tables now (seen ++ [candidate]) (next, reached.2) where
  orders := by
    rw [hcancels.orders, h.orders, List.map_map]
    apply List.map_congr_left
    intro row hrow
    rw [Function.comp_apply]
    by_cases hsame : row = candidate
    · subst hsame
      have hcurrent : (if row ∈ seen ∧ tables.Unsent texts row then
          row.moved .cancelled .resolved now else row) = row := if_neg fun hseen => hfresh hseen.1
      rw [hcurrent, if_pos ⟨rfl, rfl⟩, if_pos ⟨by simp, hunsent⟩]
    · have hid : row.id ≠ candidate.id := fun hid =>
        hsame (List.inj_on_of_nodup_map tables.orders_unique hrow hmem hid)
      have hseen : row ∈ seen ++ [candidate] ↔ row ∈ seen := by simp [hsame]
      by_cases hmoved : row ∈ seen ∧ tables.Unsent texts row
      · rw [if_pos hmoved, if_neg fun hboth => hid hboth.1,
          if_pos ⟨hseen.mpr hmoved.1, hmoved.2⟩]
      · rw [if_neg hmoved, if_neg fun hboth => hid hboth.1,
          if_neg fun hboth => hmoved ⟨hseen.mp hboth.1, hboth.2⟩]
  db := by rw [hcancels.db, h.db]
  reconciliation := by
    obtain ⟨appended, hrows, happended⟩ := h.reconciliation
    obtain ⟨event, hevent, hnext⟩ := hcancels.reconciliation
    refine ⟨appended ++ [event], by rw [hnext, hrows, List.append_assoc], ?_⟩
    intro other hother
    rcases List.mem_append.mp hother with hold | hnew
    · obtain ⟨row, hrow, hsent⟩ := happended other hold
      exact ⟨row, List.mem_append_left _ hrow, hsent⟩
    · rw [List.mem_singleton.mp hnew]
      exact ⟨candidate, by simp, hunsent, hevent.symm⟩
  lifecycle := by
    obtain ⟨appended, hrows, happended⟩ := h.lifecycle
    obtain ⟨event, hevent, hnext⟩ := hcancels.lifecycle
    refine ⟨appended ++ [event], by rw [hnext, hrows, List.append_assoc], ?_⟩
    intro other hother
    rcases List.mem_append.mp hother with hold | hnew
    · obtain ⟨row, hrow, hsent⟩ := happended other hold
      exact ⟨row, List.mem_append_left _ hrow, hsent⟩
    · rw [List.mem_singleton.mp hnew]
      exact ⟨candidate, by simp, hunsent, hevent.symm⟩
  agents agentId := by
    rw [h.agents]
    constructor
    · rintro ⟨row, hrow, hkept, hagent⟩
      exact ⟨row, List.mem_append_left _ hrow, hkept, hagent⟩
    · rintro ⟨row, hrow, hkept, hagent⟩
      rcases List.mem_append.mp hrow with hold | hnew
      · exact ⟨row, hold, hkept, hagent⟩
      · rw [List.mem_singleton.mp hnew] at hkept
        exact absurd hunsent hkept

/-- After the agent of a candidate is noted. -/
theorem noted (h : Reconciled texts tables now seen reached)
    (hkept : ¬ tables.Unsent texts candidate) :
    Reconciled texts tables now (seen ++ [candidate])
      (reached.1, candidate.agentId :: reached.2) where
  orders := by
    rw [h.orders]
    apply List.map_congr_left
    intro row _
    have hseen : (row ∈ seen ++ [candidate] ∧ tables.Unsent texts row) ↔
        row ∈ seen ∧ tables.Unsent texts row := by
      rw [List.mem_append, List.mem_singleton]
      constructor
      · rintro ⟨hold | rfl, hunsent⟩
        · exact ⟨hold, hunsent⟩
        · exact absurd hunsent hkept
      · exact fun hboth => ⟨Or.inl hboth.1, hboth.2⟩
    simp only [hseen]
  db := h.db
  reconciliation := by
    obtain ⟨appended, hrows, happended⟩ := h.reconciliation
    refine ⟨appended, hrows, fun event hevent => ?_⟩
    obtain ⟨row, hrow, hsent⟩ := happended event hevent
    exact ⟨row, List.mem_append_left _ hrow, hsent⟩
  lifecycle := by
    obtain ⟨appended, hrows, happended⟩ := h.lifecycle
    refine ⟨appended, hrows, fun event hevent => ?_⟩
    obtain ⟨row, hrow, hsent⟩ := happended event hevent
    exact ⟨row, List.mem_append_left _ hrow, hsent⟩
  agents agentId := by
    rw [List.mem_cons, h.agents]
    constructor
    · rintro (rfl | ⟨row, hrow, hother, hagent⟩)
      · exact ⟨candidate, by simp, hkept, rfl⟩
      · exact ⟨row, List.mem_append_left _ hrow, hother, hagent⟩
    · rintro ⟨row, hrow, hother, hagent⟩
      rcases List.mem_append.mp hrow with hold | hnew
      · exact Or.inr ⟨row, hold, hother, hagent⟩
      · rw [List.mem_singleton.mp hnew] at hagent
        exact Or.inl hagent.symm

/-- One more candidate. -/
theorem step (h : Reconciled texts tables now seen reached)
    (hcandidates : tables.candidates = seen ++ candidate :: rest) :
    (∃ next, reconcileCandidate texts now reached.1 reached.2 candidate = .ok next ∧
        Reconciled texts tables now (seen ++ [candidate]) next) ∨
      ((∃ raised, reconcileCandidate texts now reached.1 reached.2 candidate = .error raised) ∧
        tables.Unsent texts candidate ∧ ¬ tables.HasRoom candidate.id) := by
  obtain ⟨hmem, hunresolved⟩ : candidate ∈ tables.orders ∧ candidate.unresolved = true := by
    apply mem_candidates.mp
    rw [hcandidates]
    exact List.mem_append_right _ List.mem_cons_self
  have hids : ∀ other ∈ seen, other.id ≠ candidate.id := by
    intro other hother hid
    have hnodup := @candidates_ids_nodup tables
    rw [hcandidates, List.map_append, List.map_cons] at hnodup
    apply (List.nodup_append.mp hnodup).2.2 other.id (List.mem_map_of_mem hother) candidate.id
      List.mem_cons_self hid
  have hfresh : candidate ∉ seen := fun hseen => hids candidate hseen rfl
  have hreached : candidate ∈ reached.1.orders := by
    rw [h.orders]
    exact List.mem_map.mpr ⟨candidate, hmem, if_neg fun hseen => hfresh hseen.1⟩
  obtain ⟨hunsent, hroom⟩ := @unsent_iff texts tables candidate now seen reached h
    fun other hother _ => hids other hother
  rw [reconcileCandidate_eq (order_of_mem hreached) hunresolved]
  by_cases hcancelled : tables.Unsent texts candidate
  · rw [if_pos (hunsent.mpr hcancelled)]
    rcases cancelNotSubmitted_spec hreached (hunsent.mpr hcancelled).2.2.2 with
      ⟨next, hnext, hcancels⟩ | ⟨⟨raised, hraised⟩, hfull⟩
    · rw [hnext]
      exact Or.inl ⟨_, rfl, h.cancelled hmem hfresh hcancelled hcancels⟩
    · rw [hraised]
      exact Or.inr ⟨⟨raised, rfl⟩, hcancelled, fun hfits => hfull (hroom.mpr hfits)⟩
  · rw [if_neg fun hcase => hcancelled (hunsent.mp hcase)]
    exact Or.inl ⟨_, rfl, h.noted hcancelled⟩

end Reconciled

/-- Before the first candidate. -/
theorem Reconciled.start (texts : JsonTexts) (tables : OrderTables) (now : Instant) :
    Reconciled texts tables now [] (tables, []) where
  orders := by simp
  db := by
    dsimp only
    rw [← tables.operations_eq]
  reconciliation := ⟨[], by simp, List.forall_mem_nil _⟩
  lifecycle := ⟨[], by simp, List.forall_mem_nil _⟩
  agents := by simp

/-- All candidates are gone through, unless an order that is to be cancelled is out of
numbers. -/
theorem reconciled_or_full (texts : JsonTexts) (tables : OrderTables) (now : Instant) :
    (∃ reached, tables.candidates.foldlM
        (fun state candidate => reconcileCandidate texts now state.1 state.2 candidate)
        (tables, []) = .ok reached ∧ Reconciled texts tables now tables.candidates reached) ∨
      ((∃ raised, tables.candidates.foldlM
        (fun state candidate => reconcileCandidate texts now state.1 state.2 candidate)
        (tables, []) = .error raised) ∧
        ∃ row ∈ tables.candidates, tables.Unsent texts row ∧ ¬ tables.HasRoom row.id) := by
  apply Checks.foldlM_returns_or_fails (Reconciled texts tables now)
    (fun row => tables.Unsent texts row ∧ ¬ tables.HasRoom row.id)
  · intro seen candidate rest reached hcandidates h
    exact h.step hcandidates
  · exact Reconciled.start texts tables now

namespace Reconciled

variable {agents : List String}

/-- The orders after all candidates. -/
theorem orders_of_candidates (h : Reconciled texts tables now tables.candidates reached) :
    reached.1.orders = tables.orders.map fun row =>
      if tables.Unsent texts row then row.moved .cancelled .resolved now else row := by
  rw [h.orders]
  apply List.map_congr_left
  intro row hrow
  by_cases hunsent : tables.Unsent texts row
  · rw [if_pos ⟨mem_candidates.mpr ⟨hrow, hunsent.unresolved⟩, hunsent⟩, if_pos hunsent]
  · rw [if_neg fun hboth => hunsent hboth.2, if_neg hunsent]

/-- What still waits after all candidates is what waited and was not cancelled. -/
theorem waiting_iff (h : Reconciled texts tables now tables.candidates reached) :
    (row ∈ reached.1.orders ∧ row.unresolved = true) ↔
      row ∈ tables.candidates ∧ ¬ tables.Unsent texts row := by
  rw [h.orders_of_candidates, List.mem_map, mem_candidates]
  constructor
  · rintro ⟨⟨other, hother, rfl⟩, hwaits⟩
    by_cases hunsent : tables.Unsent texts other
    · rw [if_pos hunsent] at hwaits
      cases hwaits
    · rw [if_neg hunsent] at hwaits ⊢
      exact ⟨⟨hother, hwaits⟩, hunsent⟩
  · rintro ⟨⟨hrow, hwaits⟩, hkept⟩
    exact ⟨⟨row, hrow, if_neg hkept⟩, hwaits⟩

/-- The agents that are noted are those with an order that still waits. -/
theorem agents_iff (h : Reconciled texts tables now tables.candidates reached)
    (agentId : String) :
    agentId ∈ reached.2 ↔
      ∃ row ∈ reached.1.orders, row.agentId = agentId ∧ row.unresolved = true := by
  rw [h.agents]
  constructor
  · rintro ⟨row, hrow, hkept, hagent⟩
    obtain ⟨hmem, hwaits⟩ := h.waiting_iff.mpr ⟨hrow, hkept⟩
    exact ⟨row, hmem, hagent, hwaits⟩
  · rintro ⟨row, hrow, hagent, hwaits⟩
    obtain ⟨hmem, hkept⟩ := h.waiting_iff.mp ⟨hrow, hwaits⟩
    exact ⟨row, hmem, hkept, hagent⟩

/-- Nothing is left to cancel after all candidates. -/
theorem none_unsent (h : Reconciled texts tables now tables.candidates reached)
    (hrow : row ∈ reached.1.candidates) : ¬ reached.1.Unsent texts row := by
  obtain ⟨hmem, hkept⟩ := h.waiting_iff.mp (mem_candidates.mp hrow)
  have hother : ∀ other ∈ tables.candidates, tables.Unsent texts other → other.id ≠ row.id := by
    intro other hcandidate hunsent hid
    have hsame : other = row := List.inj_on_of_nodup_map tables.orders_unique
      (mem_candidates.mp hcandidate).1 (mem_candidates.mp hmem).1 hid
    exact hkept (hsame ▸ hunsent)
  exact fun hunsent => hkept ((h.unsent_iff hother).1.mp hunsent)

/-- Going through candidates of which none is cancelled changes nothing. -/
theorem eq_of_none_unsent (h : Reconciled texts tables now tables.candidates reached)
    (hnone : ∀ row ∈ tables.candidates, ¬ tables.Unsent texts row) : reached.1 = tables := by
  have horders : reached.1.orders = tables.orders := by
    rw [h.orders]
    refine (List.map_congr_left fun row _ => ?_).trans (List.map_id _)
    exact if_neg fun hboth => hnone row hboth.1 hboth.2
  have hdb : reached.1.db = tables.db := by
    rw [h.db, horders, ← tables.operations_eq]
  obtain ⟨found, hfound, hfoundRow⟩ := h.reconciliation
  obtain ⟨states, hstates, hstatesRow⟩ := h.lifecycle
  have hfoundNone : found = [] := by
    apply List.eq_nil_iff_forall_not_mem.mpr
    intro event hevent
    obtain ⟨row, hrow, hunsent, -⟩ := hfoundRow event hevent
    exact hnone row hrow hunsent
  have hstatesNone : states = [] := by
    apply List.eq_nil_iff_forall_not_mem.mpr
    intro event hevent
    obtain ⟨row, hrow, hunsent, -⟩ := hstatesRow event hevent
    exact hnone row hrow hunsent
  rw [hfoundNone, List.append_nil] at hfound
  rw [hstatesNone, List.append_nil] at hstates
  exact OrderTables.ext hdb horders (EventTable.ext hstates) (EventTable.ext hfound)

end Reconciled

/-! ## The whole pass -/

/-- Agents in order and without repetition are determined by which they are. -/
theorem sorted_agents_eq {first second : List String}
    (h : ∀ agentId, agentId ∈ first ↔ agentId ∈ second) :
    first.dedup.insertionSort (fun a b => a ≤ b) =
      second.dedup.insertionSort fun a b => a ≤ b := by
  have hperm : first.dedup.Perm second.dedup := by
    apply (List.perm_ext_iff_of_nodup first.nodup_dedup second.nodup_dedup).mpr
    intro agentId
    rw [List.mem_dedup, List.mem_dedup]
    exact h agentId
  have hsorted := ((List.perm_insertionSort (fun a b : String => a ≤ b) first.dedup).trans
    hperm).trans (List.perm_insertionSort (fun a b : String => a ≤ b) second.dedup).symm
  exact hsorted.eq_of_pairwise (fun _ _ _ _ h h' => le_antisymm h h')
    (List.pairwise_insertionSort _ _) (List.pairwise_insertionSort _ _)

/-- A pass over all orders cancels and resolves exactly those that are pending, have no fills
and are last known not to be submitted, leaves the other orders, their events and the books,
and answers with the agents that still have an order waiting; another pass changes nothing
and answers the same.  It raises only when an order that is to be cancelled has used up the
numbers of its events. -/
theorem reconcileNotSubmittedOperations_spec (texts : JsonTexts) (tables : OrderTables)
    (now : Instant) :
    (∃ after agents, tables.reconcileNotSubmittedOperations texts now = .ok (after, agents) ∧
      after.orders = (tables.orders.map fun row =>
        if tables.Unsent texts row then row.moved .cancelled .resolved now else row) ∧
      { after.db with operations := tables.db.operations } = tables.db ∧
      (∀ operationId, (∀ row ∈ tables.orders, tables.Unsent texts row → row.id ≠ operationId) →
        after.reconciliationEvents.ofOperation operationId =
            tables.reconciliationEvents.ofOperation operationId ∧
          after.lifecycleEvents.ofOperation operationId =
            tables.lifecycleEvents.ofOperation operationId) ∧
      (∀ agentId, agentId ∈ agents ↔
        ∃ row ∈ after.orders, row.agentId = agentId ∧ row.unresolved = true) ∧ agents.Nodup ∧
      ∀ later, after.reconcileNotSubmittedOperations texts later = .ok (after, agents)) ∨
    ((∃ raised, tables.reconcileNotSubmittedOperations texts now = .error raised) ∧
      ∃ row ∈ tables.orders, tables.Unsent texts row ∧ ¬ tables.HasRoom row.id) := by
  rcases reconciled_or_full texts tables now with ⟨reached, hrun, h⟩ | ⟨⟨raised, hrun⟩, hfull⟩
  · left
    refine ⟨reached.1, reached.2.dedup.insertionSort fun a b => a ≤ b, ?_,
      h.orders_of_candidates, ?_, ?_, ?_, ?_, ?_⟩
    · rw [reconcileNotSubmittedOperations, hrun]
      rfl
    · rw [h.db]
    · intro operationId hother
      exact h.ofOperation fun row hrow => hother row (mem_candidates.mp hrow).1
    · intro agentId
      rw [List.mem_insertionSort, List.mem_dedup]
      exact h.agents_iff agentId
    · exact (List.perm_insertionSort _ _).nodup_iff.mpr reached.2.nodup_dedup
    · intro later
      rcases reconciled_or_full texts reached.1 later with
        ⟨again, hagain, hsecond⟩ | ⟨-, row, hrow, hunsent, -⟩
      · have hsame := hsecond.eq_of_none_unsent fun row hrow => h.none_unsent hrow
        have hagents : again.2.dedup.insertionSort (fun a b => a ≤ b) =
            reached.2.dedup.insertionSort fun a b => a ≤ b := by
          apply sorted_agents_eq
          intro agentId
          rw [hsecond.agents_iff, h.agents_iff, hsame]
        rw [reconcileNotSubmittedOperations, hagain, ← hagents, ← hsame]
        rfl
      · exact absurd hunsent (h.none_unsent hrow)
  · right
    refine ⟨⟨raised, by rw [reconcileNotSubmittedOperations, hrun]; rfl⟩, ?_⟩
    obtain ⟨row, hrow, hfails⟩ := hfull
    exact ⟨row, (mem_candidates.mp hrow).1, hfails⟩

end OrderTables

namespace Sample

/-- The order was not submitted, and its last event has the highest number of the column. -/
def fullTables : OrderTables :=
  { pendingTables with
    reconciliationEvents :=
      ⟨[reconciliationNames.row "operation" 2147483647 .required
          (.object [("submission_state", .text "NOT_SUBMITTED")]) moment.instant],
        List.nodup_singleton _, List.forall_mem_singleton.mpr (by decide),
        List.forall_mem_singleton.mpr (reconciliationNames.row_respects _ _ _ _ _)⟩ }

end Sample

set_option maxRecDepth 10000 in
/-- An order that was not submitted is not cancelled when the numbers of its events are used
up. -/
theorem full_not_cancelled :
    Sample.pendingOrder ∈ Sample.fullTables.orders ∧
      Sample.fullTables.Unsent Sample.texts Sample.pendingOrder ∧
      ∃ raised, Sample.fullTables.reconcileNotSubmittedOperations Sample.texts
        Sample.moment.instant = .error raised := by
  refine ⟨List.mem_singleton_self _, by decide +kernel, ?_⟩
  cases hrun : Sample.fullTables.reconcileNotSubmittedOperations Sample.texts
      Sample.moment.instant with
  | error raised => exact ⟨raised, rfl⟩
  | ok reached =>
      have hraises : (Sample.fullTables.reconcileNotSubmittedOperations Sample.texts
        Sample.moment.instant).isOk = false := by decide +kernel
      rw [hrun] at hraises
      cases hraises

end VTrade
