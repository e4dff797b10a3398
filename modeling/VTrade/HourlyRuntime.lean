/-
# The hourly tick

Once an hour the runtime reconciles the orders of all agents, recovers the cycles whose lease
has expired, claims those that are due, and runs them one after the other.  An order of any
agent that is left to wait raises before a cycle of any agent is recovered or claimed.
-/

import VTrade.AutomaticReconciliation
import VTrade.CycleLeases

namespace VTrade

/-- A critical alert, as far as the scheduler is concerned. -/
structure CriticalAlert where
  agentId : Option String
  code : String
  openedAt : Instant
  dedupeKey : String
  deriving DecidableEq

def criticalGlobalAlertCodes : List String :=
  ["projected_budget_exceeded", "fee_policy_global_failure"]

/-- `pause_scope_for` of a critical alert: the agent that it pauses, or the system. -/
def CriticalAlert.pauses (alert : CriticalAlert) : Option String :=
  if alert.code ∈ criticalGlobalAlertCodes then none else alert.agentId

/-- The tables that a tick meets.  A pause without an agent is one of the system. -/
structure RuntimeTables where
  orders : OrderTables
  cycles : CycleTables
  alerts : List CriticalAlert
  paused : List (Option String)

/-- `open_alert`. -/
def RuntimeTables.openAlert (tables : RuntimeTables) (alert : CriticalAlert) : RuntimeTables :=
  { tables with
    alerts := KeyedList.upsert CriticalAlert.dedupeKey alert tables.alerts
    paused := tables.paused.insert alert.pauses }

/-- `reconcile_before_cycle`. -/
def RuntimeTables.reconcileBeforeCycle (texts : JsonTexts) (tables : RuntimeTables)
    (observedAt : Instant) : RuntimeTables × Option Raised :=
  match tables.orders.reconcileNotSubmittedOperations texts observedAt with
  | .error _ =>
      (tables.openAlert {
        agentId := none
        code := "order_reconciliation_failed"
        openedAt := observedAt
        dedupeKey := "order-reconciliation-failed" },
        some (.runtimeError "automatic order reconciliation failed"))
  | .ok (orders, unresolved) =>
      if unresolved = [] then ({ tables with orders := orders }, none)
      else
        (unresolved.foldl (fun tables agentId => tables.openAlert {
          agentId := some agentId
          code := "order_reconciliation_required"
          openedAt := observedAt
          dedupeKey := "order-reconciliation-required:" ++ agentId }) { tables with orders := orders },
          some (.runtimeError "unresolved order reconciliation blocks the cycle"))

/-- `HourlyRuntime`: its configuration, what its two scheduling transactions meet, and the run of
a cycle with everything it does, which may fail. -/
structure HourlyRuntime where
  texts : JsonTexts
  ids : RandomIds
  leaseOwner : String
  leaseDuration : ℤ
  missedGrace : ℤ
  batchSize : ℤ
  marketFreezeRecoveryAfter : ℤ
  recovering : CycleTables.Scheduling
  claiming : CycleTables.Scheduling
  run : RuntimeTables → CycleClaim → RuntimeTables × Option Raised

/-- What a tick does: the cycles it recovers, claims and runs, and what it raises. -/
structure TickReport where
  recovered : List CycleClaim
  due : List CycleClaim
  runs : List (CycleClaim × Option Raised)
  raised : Option Raised

namespace HourlyRuntime

variable (runtime : HourlyRuntime)

def leaseTerms (limit : ℤ) : CycleTables.LeaseTerms where
  leaseOwner := runtime.leaseOwner
  leaseDuration := runtime.leaseDuration
  missedGrace := runtime.missedGrace
  limit := limit

/-- Recover the cycles whose lease has expired, and claim those that are due while there is room
in the batch: the tables after it, the recovered and the claimed cycles, and what is raised. -/
def claimCycles (cycles : CycleTables) (now : Datetime) :
    CycleTables × List CycleClaim × List CycleClaim × Option Raised :=
  match cycles.recoverExpiredCycles runtime.ids runtime.recovering
      (runtime.leaseTerms runtime.batchSize) (some runtime.marketFreezeRecoveryAfter) now with
  | .error raised => (cycles, [], [], some raised)
  | .ok (cycles, recovered) =>
      let remaining := max 0 (runtime.batchSize - recovered.length)
      if remaining = 0 then (cycles, recovered, [], none)
      else
        match cycles.claimDueCycles runtime.ids runtime.claiming (runtime.leaseTerms remaining)
            now with
        | .error raised => (cycles, recovered, [], some raised)
        | .ok (cycles, due) => (cycles, recovered, due, none)

/-- Run the claims one after the other; one that fails does not keep the others from running. -/
def runAll (tables : RuntimeTables) : List CycleClaim →
    RuntimeTables × List (CycleClaim × Option Raised)
  | [] => (tables, [])
  | claim :: rest =>
      let (after, failure) := runtime.run tables claim
      let (final, runs) := runAll after rest
      (final, (claim, failure) :: runs)

/-- `tick`. -/
def tick (tables : RuntimeTables) (now : Datetime) : RuntimeTables × TickReport :=
  if now.isAware = false then
    (tables, ⟨[], [], [], some (.valueError "timestamps must be timezone-aware")⟩)
  else
    match tables.reconcileBeforeCycle runtime.texts now.instant with
    | (tables, some raised) => (tables, ⟨[], [], [], some raised⟩)
    | (tables, none) =>
        match runtime.claimCycles tables.cycles now with
        | (cycles, recovered, due, some raised) =>
            ({ tables with cycles := cycles }, ⟨recovered, due, [], some raised⟩)
        | (cycles, recovered, due, none) =>
            let (final, runs) := runtime.runAll { tables with cycles := cycles } (recovered ++ due)
            (final, ⟨recovered, due, runs, none⟩)

end HourlyRuntime

/-! ## When the reconciliation raises -/

namespace OrderTables

variable {texts : JsonTexts} {tables : OrderTables} {row : OrderRow} {now : Instant}

/-- An order waits and is not going to be cancelled: it is not known not to have been submitted,
or the numbers of its events are used up. -/
def Stuck (texts : JsonTexts) (tables : OrderTables) : Prop :=
  ∃ row ∈ tables.orders, row.unresolved = true ∧
    ¬ (tables.Unsent texts row ∧ tables.HasRoom row.id)

instance (operationId : String) : Decidable (tables.HasRoom operationId) :=
  inferInstanceAs (Decidable (_ ∧ _))

instance : Decidable (tables.Stuck texts) :=
  inferInstanceAs (Decidable (∃ row ∈ tables.orders, row.unresolved = true ∧
    ¬ (tables.Unsent texts row ∧ tables.HasRoom row.id)))

/-- An order that is cancelled had numbers left for its events. -/
theorem hasRoom_of_cancelNotSubmitted {next : OrderTables} (hrow : row ∈ tables.orders)
    (hsubmitted : tables.notSubmitted texts row.id = true)
    (h : tables.cancelNotSubmitted row now = .ok next) : tables.HasRoom row.id := by
  have horder := order_of_mem hrow
  unfold cancelNotSubmitted at h
  rw [insertReconciliationEvent_eq horder] at h
  have hfound := @EventTable.insert_next_isOk_iff _ _ _ tables.reconciliationEvents row.id
    .resolved (Json.object (cancellationEvidence row)).jsonb now (first_le_nextSequence hsubmitted)
  obtain ⟨resolved, hresolved, h⟩ := Checks.bind_eq_ok.mp h
  obtain ⟨events, hevents, heq⟩ := Checks.map_eq_ok.mp hresolved
  subst heq
  have hstates := @EventTable.insert_next_isOk_iff _ _ _ tables.lifecycleEvents row.id
    .cancelled (some "automatic reconciliation: NOT_SUBMITTED") now
    (EventTable.nextSequence_nonneg row.id)
  obtain ⟨cancelled, hcancelled, h⟩ := Checks.bind_eq_ok.mp h
  have horder' : ({ tables with reconciliationEvents := events } : OrderTables).order row.id =
      some row := horder
  rw [insertCancellation_eq horder'] at hcancelled
  obtain ⟨states, hinserted, -⟩ := Checks.map_eq_ok.mp hcancelled
  refine ⟨hfound.mp ?_, hstates.mp ?_⟩
  · rw [hevents]
    rfl
  · exact congrArg Except.isOk hinserted

/-- The candidates before another one are gone through. -/
theorem reconciled_of_append {seen rest : List OrderRow} {reached : OrderTables × List String}
    (hcandidates : tables.candidates = seen ++ rest)
    (h : seen.foldlM (fun state candidate =>
      reconcileCandidate texts now state.1 state.2 candidate) (tables, []) = .ok reached) :
    Reconciled texts tables now seen reached := by
  have hcases : (∃ final, seen.foldlM (fun state candidate =>
        reconcileCandidate texts now state.1 state.2 candidate) (tables, []) = .ok final ∧
        Reconciled texts tables now seen final) ∨
      ((∃ raised, seen.foldlM (fun state candidate =>
        reconcileCandidate texts now state.1 state.2 candidate) (tables, []) = .error raised) ∧
        ∃ row ∈ seen, tables.Unsent texts row ∧ ¬ tables.HasRoom row.id) := by
    apply Checks.foldlM_returns_or_fails (Reconciled texts tables now)
      (fun row => tables.Unsent texts row ∧ ¬ tables.HasRoom row.id)
    · intro before candidate later state hseen hstate
      rw [hseen, List.append_assoc] at hcandidates
      exact hstate.step hcandidates
    · exact Reconciled.start texts tables now
  rcases hcases with ⟨final, hfinal, hreconciled⟩ | ⟨⟨raised, hraised⟩, -⟩
  · rw [h] at hfinal
    cases hfinal
    exact hreconciled
  · rw [h] at hraised
    cases hraised

/-- A pass that does not raise had numbers left for every order that it cancelled. -/
theorem hasRoom_of_pass {reached : OrderTables × List String}
    (h : tables.candidates.foldlM (fun state candidate =>
      reconcileCandidate texts now state.1 state.2 candidate) (tables, []) = .ok reached)
    (hrow : row ∈ tables.candidates) (hunsent : tables.Unsent texts row) :
    tables.HasRoom row.id := by
  obtain ⟨seen, rest, hcandidates⟩ := List.append_of_mem hrow
  rw [hcandidates] at h
  obtain ⟨middle, hmiddle, hrest⟩ := Checks.foldlM_append_eq_ok.mp h
  obtain ⟨next, hnext, -⟩ := Checks.foldlM_cons_eq_ok.mp hrest
  have hreconciled := reconciled_of_append hcandidates hmiddle
  have hids : ∀ other ∈ seen, other.id ≠ row.id := by
    intro other hother hid
    have hnodup := @candidates_ids_nodup tables
    rw [hcandidates, List.map_append, List.map_cons] at hnodup
    exact (List.nodup_append.mp hnodup).2.2 other.id (List.mem_map_of_mem hother) row.id
      List.mem_cons_self hid
  obtain ⟨hmem, hunresolved⟩ := mem_candidates.mp hrow
  have hkept : row ∈ middle.1.orders := by
    rw [hreconciled.orders]
    exact List.mem_map.mpr ⟨row, hmem, if_neg fun hseen => hids row hseen.1 rfl⟩
  obtain ⟨hstill, hroom⟩ := @Reconciled.unsent_iff texts tables row now seen middle hreconciled
    fun other hother _ => hids other hother
  rw [reconcileCandidate_eq (order_of_mem hkept) hunresolved, if_pos (hstill.mpr hunsent)] at hnext
  obtain ⟨cancelled, hcancelled, -⟩ := Checks.map_eq_ok.mp hnext
  exact hroom.mp (hasRoom_of_cancelNotSubmitted hkept (hstill.mpr hunsent).2.2.2 hcancelled)

/-- The reconciliation ends with no order waiting exactly when none is stuck. -/
theorem reconcile_clears_iff : (∃ after,
    tables.reconcileNotSubmittedOperations texts now = .ok (after, [])) ↔ ¬ tables.Stuck texts := by
  unfold reconcileNotSubmittedOperations
  rcases reconciled_or_full texts tables now with ⟨reached, hrun, h⟩ | ⟨⟨raised, hrun⟩, hfull⟩
  · have hstuck : reached.2 = [] ↔ ¬ tables.Stuck texts := by
      constructor
      · rintro hnone ⟨row, hrow, hunresolved, hstuck⟩
        have hcandidate := mem_candidates.mpr ⟨hrow, hunresolved⟩
        apply hstuck
        have hunsent : tables.Unsent texts row := by
          by_contra hkept
          have hnoted := (h.agents row.agentId).mpr ⟨row, hcandidate, hkept, rfl⟩
          rw [hnone] at hnoted
          exact List.not_mem_nil hnoted
        exact ⟨hunsent, hasRoom_of_pass hrun hcandidate hunsent⟩
      · intro hstuck
        apply List.eq_nil_iff_forall_not_mem.mpr
        intro agentId hnoted
        obtain ⟨row, hcandidate, hkept, -⟩ := (h.agents agentId).mp hnoted
        obtain ⟨hrow, hunresolved⟩ := mem_candidates.mp hcandidate
        exact hstuck ⟨row, hrow, hunresolved, fun hboth => hkept hboth.1⟩
    rw [← hstuck, hrun]
    have hempty : reached.2.dedup.insertionSort (fun first second => first ≤ second) = [] ↔
        reached.2 = [] := by
      rw [← List.length_eq_zero_iff, List.length_insertionSort, List.length_eq_zero_iff,
        List.dedup_eq_nil]
    constructor
    · rintro ⟨after, hafter⟩
      exact hempty.mp (congrArg Prod.snd (Except.ok.inj hafter))
    · intro hnone
      exact ⟨reached.1, congrArg (fun agents => Except.ok (reached.1, agents)) (hempty.mpr hnone)⟩
  · rw [hrun]
    obtain ⟨row, hrow, hunsent, hroom⟩ := hfull
    obtain ⟨hmem, hunresolved⟩ := mem_candidates.mp hrow
    constructor
    · rintro ⟨after, hafter⟩
      cases hafter
    · intro hstuck
      exact absurd ⟨row, hmem, hunresolved, fun hboth => hroom hboth.2⟩ hstuck

end OrderTables

/-! ## What one agent's orders do to the others -/

theorem RuntimeTables.reconcileBeforeCycle_eq_none_iff {texts : JsonTexts}
    {tables : RuntimeTables} {observedAt : Instant} :
    (tables.reconcileBeforeCycle texts observedAt).2 = none ↔ ¬ tables.orders.Stuck texts := by
  rw [← @OrderTables.reconcile_clears_iff texts tables.orders observedAt]
  unfold reconcileBeforeCycle
  cases hreconcile : tables.orders.reconcileNotSubmittedOperations texts observedAt with
  | error raised => simp
  | ok reached =>
      obtain ⟨orders, unresolved⟩ := reached
      by_cases hnone : unresolved = []
      · simp [hnone]
      · simp [hnone]

theorem RuntimeTables.cycles_reconcileBeforeCycle {texts : JsonTexts} {tables : RuntimeTables}
    {observedAt : Instant} (h : (tables.reconcileBeforeCycle texts observedAt).2 = none) :
    (tables.reconcileBeforeCycle texts observedAt).1.cycles = tables.cycles := by
  unfold reconcileBeforeCycle at h ⊢
  split at h
  · cases h
  · split at h
    next hnone =>
      simp only [hnone, if_true]
    next => cases h

/-- The cycles that a tick recovers, claims and runs. -/
def TickReport.cycles (report : TickReport) :
    List CycleClaim × List CycleClaim × List CycleClaim :=
  (report.recovered, report.due, report.runs.map Prod.fst)

/-- Of the cycles of a tick, those of other agents. -/
def othersOf (agentId : String) (cycles : List CycleClaim × List CycleClaim × List CycleClaim) :
    List CycleClaim × List CycleClaim × List CycleClaim :=
  let others := List.filter fun claim : CycleClaim => claim.agentId ≠ agentId
  (others cycles.1, others cycles.2.1, others cycles.2.2)

/-- An order of the agent that waits for reconciliation. -/
def OrderRow.waitsOf (agentId : String) (row : OrderRow) : Bool :=
  decide (row.agentId = agentId) && row.unresolved

/-- The tables differ at most in the orders of one agent that wait for reconciliation, with
their fills and events. -/
structure RuntimeTables.DifferOnlyIn (agentId : String) (first second : RuntimeTables) : Prop where
  cycles : first.cycles = second.cycles
  alerts : first.alerts = second.alerts
  paused : first.paused = second.paused
  orders : first.orders.orders.filter (fun row => !row.waitsOf agentId) =
    second.orders.orders.filter fun row => !row.waitsOf agentId
  fills : ∀ operationId, (∀ row ∈ first.orders.orders ++ second.orders.orders,
      row.waitsOf agentId = true → row.id ≠ operationId) →
    first.orders.hasFills operationId = second.orders.hasFills operationId
  events : ∀ operationId, (∀ row ∈ first.orders.orders ++ second.orders.orders,
      row.waitsOf agentId = true → row.id ≠ operationId) →
    first.orders.reconciliationEvents.ofOperation operationId =
        second.orders.reconciliationEvents.ofOperation operationId ∧
      first.orders.lifecycleEvents.ofOperation operationId =
        second.orders.lifecycleEvents.ofOperation operationId

namespace HourlyRuntime

variable {runtime : HourlyRuntime} {now : Datetime} {tables : RuntimeTables}

theorem runAll_claims (tables : RuntimeTables) (claims : List CycleClaim) :
    (runtime.runAll tables claims).2.map Prod.fst = claims := by
  induction claims generalizing tables with
  | nil => rfl
  | cons claim rest ih => rw [runAll, List.map_cons, ih]

/-- The cycles that are recovered, claimed and run if no order stops the tick. -/
def unstopped (runtime : HourlyRuntime) (cycles : CycleTables) (now : Datetime) :
    List CycleClaim × List CycleClaim × List CycleClaim :=
  match runtime.claimCycles cycles now with
  | (_, recovered, due, some _) => (recovered, due, [])
  | (_, recovered, due, none) => (recovered, due, recovered ++ due)

theorem unstopped_of_naive (cycles : CycleTables) (h : now.isAware = false) :
    runtime.unstopped cycles now = ([], [], []) := by
  unfold unstopped claimCycles CycleTables.recoverExpiredCycles
  rw [if_pos h]

/-- A tick recovers, claims and runs what the cycles call for, or nothing if an order is stuck. -/
theorem tick_cycles : (runtime.tick tables now).2.cycles =
    if tables.orders.Stuck runtime.texts then ([], [], [])
    else runtime.unstopped tables.cycles now := by
  unfold tick
  cases haware : now.isAware with
  | false =>
      rw [if_pos rfl, unstopped_of_naive tables.cycles haware, ite_self]
      rfl
  | true =>
      rw [if_neg Bool.noConfusion]
      have hclears := @RuntimeTables.reconcileBeforeCycle_eq_none_iff runtime.texts tables
        now.instant
      have hcycles := @RuntimeTables.cycles_reconcileBeforeCycle runtime.texts tables now.instant
      cases hreconcile : tables.reconcileBeforeCycle runtime.texts now.instant with
      | mk reconciled stopped =>
          rw [hreconcile] at hclears hcycles
          cases stopped with
          | some raised =>
              have hstuck : tables.orders.Stuck runtime.texts := by
                by_contra hfree
                cases hclears.mpr hfree
              rw [if_pos hstuck]
              rfl
          | none =>
              rw [if_neg (hclears.mp rfl), ← hcycles rfl]
              unfold unstopped
              dsimp only
              cases hclaims : runtime.claimCycles reconciled.cycles now with
              | mk cycles claims =>
                  obtain ⟨recovered, due, raised⟩ := claims
                  cases raised with
                  | some raised => rfl
                  | none =>
                      dsimp only [TickReport.cycles]
                      rw [runAll_claims]

/-- A stuck order of one agent makes a difference to the others exactly when there is something
that they would do: two tables that differ only in the waiting orders of an agent lead to the
same cycles of the others if and only if both have a stuck order, or neither has, or no cycle of
another agent can be recovered or claimed. -/
theorem tick_others_iff (runtime : HourlyRuntime) (now : Datetime) (agentId : String)
    (first second : RuntimeTables) (h : RuntimeTables.DifferOnlyIn agentId first second) :
    othersOf agentId (runtime.tick first now).2.cycles =
        othersOf agentId (runtime.tick second now).2.cycles ↔
      (first.orders.Stuck runtime.texts ↔ second.orders.Stuck runtime.texts) ∨
        othersOf agentId (runtime.unstopped first.cycles now) = ([], [], []) := by
  rw [tick_cycles, tick_cycles, ← h.cycles]
  have hnothing : othersOf agentId ([], [], []) = ([], [], []) := rfl
  by_cases hfirst : first.orders.Stuck runtime.texts
  · by_cases hsecond : second.orders.Stuck runtime.texts
    · simp only [hfirst, hsecond, if_true, iff_self, true_or]
    · simp only [hfirst, hsecond, if_true, if_false, hnothing, iff_false, not_true_eq_false,
        false_or]
      exact eq_comm
  · by_cases hsecond : second.orders.Stuck runtime.texts
    · simp only [hfirst, hsecond, if_true, if_false, hnothing, iff_true, false_or]
    · simp only [hfirst, hsecond, if_false, iff_self, true_or]

end HourlyRuntime

namespace Sample

/-- The schedule of another agent than the one of `pendingOrder`. -/
def otherHourly : ScheduleTable where
  rows := [⟨"other", moment.instant, true⟩]
  unique := List.nodup_singleton _

theorem noEvents_unique :
    (([] : List (EventRow ReconciliationState Json)).map EventRow.place).Nodup := List.nodup_nil

theorem noEvents_nonneg :
    ∀ row ∈ ([] : List (EventRow ReconciliationState Json)), 0 ≤ row.sequenceNumber :=
  List.forall_mem_nil _

theorem noEvents_named :
    ∀ row ∈ ([] : List (EventRow ReconciliationState Json)), reconciliationNames.Respects row :=
  List.forall_mem_nil _

/-- No orders at all, and no events. -/
def noOrders : OrderTables where
  db := { untraded with operations := [] }
  orders := []
  lifecycleEvents := pendingTables.lifecycleEvents
  reconciliationEvents := ⟨[], noEvents_unique, noEvents_nonneg, noEvents_named⟩
  orders_unique := List.nodup_nil
  operations_eq := rfl

def runtimeTables (orders : OrderTables) : RuntimeTables :=
  ⟨orders, CycleTables.unscheduled otherHourly, [], []⟩

/-- A runtime whose cycles all succeed. -/
def hourlyRuntime : HourlyRuntime where
  texts := texts
  ids := randomIds
  leaseOwner := "worker"
  leaseDuration := 1000
  missedGrace := 0
  batchSize := 10
  marketFreezeRecoveryAfter := 1000
  recovering := ⟨true, ["agent", "other"], []⟩
  claiming := ⟨true, ["agent", "other"], []⟩
  run tables _ := (tables, none)

theorem differOnly : RuntimeTables.DifferOnlyIn "agent" (runtimeTables pendingTables)
    (runtimeTables noOrders) where
  cycles := rfl
  alerts := rfl
  paused := rfl
  orders := rfl
  fills _ _ := rfl
  events operationId h := by
    have hother : "operation" ≠ operationId :=
      h pendingOrder (List.mem_append_left _ (List.mem_singleton_self _)) rfl
    refine ⟨?_, rfl⟩
    apply List.filter_eq_nil_iff.mpr
    intro event hevent
    rw [List.mem_singleton.mp hevent]
    exact decide_eq_true_iff.not.mpr hother

/-- A tick with the waiting order, and without it. -/
theorem pendingOrder_others :
    othersOf "agent" (hourlyRuntime.tick (runtimeTables pendingTables) moment).2.cycles =
        othersOf "agent" (hourlyRuntime.tick (runtimeTables noOrders) moment).2.cycles ↔
      (pendingTables.Stuck texts ↔ noOrders.Stuck texts) ∨
        othersOf "agent" (hourlyRuntime.unstopped (runtimeTables pendingTables).cycles moment) =
          ([], [], []) :=
  HourlyRuntime.tick_others_iff hourlyRuntime moment "agent" _ _ differOnly

set_option maxRecDepth 10000 in
/-- The waiting order of one agent keeps the due cycle of another agent from being claimed and
run, which happens without that order. -/
theorem pendingOrder_stops_other :
    RuntimeTables.DifferOnlyIn "agent" (runtimeTables pendingTables) (runtimeTables noOrders) ∧
    (hourlyRuntime.tick (runtimeTables pendingTables) moment).2.runs.map
        (fun run => run.1.agentId) = [] ∧
    (hourlyRuntime.tick (runtimeTables pendingTables) moment).2.raised =
      some (.runtimeError "unresolved order reconciliation blocks the cycle") ∧
    (hourlyRuntime.tick (runtimeTables noOrders) moment).2.runs.map
        (fun run => run.1.agentId) = ["other"] := by
  refine ⟨differOnly, ?_, ?_, ?_⟩
  · decide +kernel
  · decide +kernel
  · decide +kernel

end Sample

end VTrade
