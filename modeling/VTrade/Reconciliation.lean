/-
# What a reconciliation may change

An agent is blocked while one of its operations waits for reconciliation, and an
operation that is finished stays as it is.  A reconciliation keeps neither by itself:
it blocks and releases the agent without looking at the other operations of the
agent, and it rewrites its operation whatever state that is in.  Both hold in
exactly the runs whose reconciliations are made where they do no harm.
-/

import VTrade.BrokerRuns

namespace VTrade

namespace BrokerState

/-- An operation of the agent waits for reconciliation. -/
def Waits (state : BrokerState) (agentId : String) : Prop :=
  ∃ row ∈ state.results, row.2.request.agentId = agentId ∧ row.2.Unresolved

/-- An operation of the agent under another key waits for reconciliation. -/
def WaitsBeside (state : BrokerState) (key : String × String) (agentId : String) : Prop :=
  ∃ row ∈ state.results, row.1 ≠ key ∧ row.2.request.agentId = agentId ∧ row.2.Unresolved

instance (state : BrokerState) (agentId : String) : Decidable (state.Waits agentId) :=
  inferInstanceAs (Decidable (∃ row ∈ state.results, _))

instance (state : BrokerState) (key : String × String) (agentId : String) :
    Decidable (state.WaitsBeside key agentId) :=
  inferInstanceAs (Decidable (∃ row ∈ state.results, _))

/-- The blocked agents are those with an operation that waits for reconciliation. -/
def BlocksWaiting (state : BrokerState) : Prop :=
  ∀ agentId, agentId ∈ state.blockedAgents ↔ state.Waits agentId

theorem blocksWaiting_empty : BlocksWaiting .empty := by
  intro agentId
  simp [empty, Waits]

/-- After a result is stored, an agent waits for it or for what it waited for beside it. -/
theorem waits_store {state : BrokerState} (h : state.Keyed) (result : OrderResult)
    (blockedAgents : List String) (agentId : String) :
    Waits { state.store result with blockedAgents := blockedAgents } agentId ↔
      result.request.agentId = agentId ∧ result.Unresolved ∨
        state.WaitsBeside result.requestKey agentId := by
  have hmem (row : (String × String) × OrderResult) : row ∈ (state.store result).results ↔
      row = (result.requestKey, result) ∨ row ∈ state.results ∧ row.1 ≠ result.requestKey := by
    rw [store, (KeyedList.upsert_perm h.unique _).mem_iff, List.mem_cons, KeyedList.mem_erase]
  unfold Waits WaitsBeside
  constructor
  · rintro ⟨row, hrow, hagent, hunresolved⟩
    rcases (hmem row).mp hrow with rfl | ⟨hold, hne⟩
    · exact Or.inl ⟨hagent, hunresolved⟩
    · exact Or.inr ⟨row, hold, hne, hagent, hunresolved⟩
  · rintro (⟨hagent, hunresolved⟩ | ⟨row, hold, hne, hagent, hunresolved⟩)
    · exact ⟨_, (hmem _).mpr (Or.inl rfl), hagent, hunresolved⟩
    · exact ⟨row, (hmem row).mpr (Or.inr ⟨hold, hne⟩), hagent, hunresolved⟩

theorem WaitsBeside.waits {state : BrokerState} {key : String × String} {agentId : String}
    (h : state.WaitsBeside key agentId) : state.Waits agentId := by
  obtain ⟨row, hrow, -, hagent, hunresolved⟩ := h
  exact ⟨row, hrow, hagent, hunresolved⟩

/-- A key stands for operations of its own agent only. -/
theorem waitsBeside_of_ne {state : BrokerState} (h : state.Keyed) {key : String × String}
    {agentId : String} (hne : agentId ≠ key.1) :
    state.WaitsBeside key agentId ↔ state.Waits agentId := by
  refine ⟨WaitsBeside.waits, ?_⟩
  rintro ⟨row, hrow, hagent, hunresolved⟩
  refine ⟨row, hrow, fun hkey => hne ?_, hagent, hunresolved⟩
  rw [← hagent, ← hkey, h.own row hrow]
  rfl

/-- A key without a result stands for no operation. -/
theorem waitsBeside_of_none {state : BrokerState} {key : String × String}
    (hnone : state.result key = none) (agentId : String) :
    state.WaitsBeside key agentId ↔ state.Waits agentId := by
  refine ⟨WaitsBeside.waits, ?_⟩
  rintro ⟨row, hrow, hagent, hunresolved⟩
  refine ⟨row, hrow, fun hkey => ?_, hagent, hunresolved⟩
  rw [BrokerState.result, Option.map_eq_none_iff, KeyedList.lookup_eq_none_iff] at hnone
  exact hnone row hrow hkey

end BrokerState

/-- A reconciliation that blocks and releases the agent as its operations say: one
that resolves has no other operation of the agent to wait for, one that asks for
reconciliation finds the agent blocked, and one that lifts the need for it leaves a
blocked agent another operation to wait for. -/
def BrokerCall.ReleasesRightly (state : BrokerState) : BrokerCall → Prop
  | .execute _ _ => True
  | .reconcile operationId reconciliation =>
      ∀ target ∈ state.target operationId,
        match reconciliation with
        | .conflict => True
        | .resolved => ¬ state.WaitsBeside target.requestKey target.request.agentId
        | .required => target.request.agentId ∈ state.blockedAgents
        | .notRequired => target.request.agentId ∈ state.blockedAgents →
            state.WaitsBeside target.requestKey target.request.agentId

namespace BinaryPaperBroker

variable (broker : BinaryPaperBroker) (digests : Digests)

/-- A state that some run leads to. -/
def Reached (state : BrokerState) : Prop := ∃ seen, RunInvariant seen state

theorem reached_empty : Reached .empty := ⟨[], runInvariant_empty⟩

theorem Reached.call {state : BrokerState} (h : Reached state) (next : BrokerCall) :
    Reached (broker.call digests state next).1 :=
  h.elim fun _ hinvariant => ⟨_, hinvariant.call broker digests next⟩

/-- An execution keeps the blocked agents to those that wait. -/
theorem execute_blocksWaiting {state : BrokerState} (h : Reached state)
    (hblocks : state.BlocksWaiting) (request : OrderRequest) (arguments : ExecutionArguments) :
    (broker.execute digests state request arguments).1.BlocksWaiting := by
  obtain ⟨seen, hinvariant⟩ := h
  cases hresult : state.result (request.agentId, request.idempotencyKey) with
  | some existing =>
      rw [(broker.execute_known digests arguments hresult).1]
      exact hblocks
  | none =>
      rcases broker.execute_new digests arguments hresult with
        ⟨hstate, -⟩ | ⟨result, -, hrequest, hcase⟩
      · rw [hstate]
        exact hblocks
      · have hkey : result.requestKey = (request.agentId, request.idempotencyKey) := by
          rw [OrderResultFields.requestKey, hrequest]
        have hwaits := BrokerState.waits_store hinvariant.keyed result
        simp only [hkey, BrokerState.waitsBeside_of_none hresult, hrequest] at hwaits
        rcases hcase with ⟨hnot, hstate⟩ | ⟨hrequired, hstate⟩
        · rw [hstate]
          intro agentId
          rw [show state.store result = { state.store result with
            blockedAgents := state.blockedAgents } from rfl, hwaits]
          simpa [OrderResultFields.Unresolved, hnot] using hblocks agentId
        · rw [hstate]
          intro agentId
          rw [show (state.store result).block request.agentId = { state.store result with
            blockedAgents := state.blockedAgents.insert request.agentId } from rfl, hwaits,
            List.mem_insert_iff, hblocks agentId]
          simp [OrderResultFields.Unresolved, hrequired, eq_comm]

/-- Who is blocked after a reconciliation, next to who waits. -/
theorem reconcile_blocksWaiting_iff {state : BrokerState} (h : Reached state)
    (hblocks : state.BlocksWaiting) (operationId : String)
    (reconciliation : ReconciliationState) :
    (reconcile state operationId reconciliation).1.BlocksWaiting ↔
      BrokerCall.ReleasesRightly state (.reconcile operationId reconciliation) := by
  obtain ⟨seen, hinvariant⟩ := h
  rcases reconcile_cases hinvariant.whole operationId reconciliation with
    ⟨hnone, hstate, -⟩ | ⟨target, updated, htarget, -, hfields, hstate⟩
  · rw [hstate]
    refine iff_of_true hblocks fun target htarget => ?_
    rw [hnone] at htarget
    cases htarget
  · have hwaits := BrokerState.waits_store hinvariant.keyed updated
      (reconciledAgents state.blockedAgents target.request.agentId reconciliation)
    simp only [hfields, OrderResultFields.reconciled_requestKey,
      OrderResultFields.reconciled_request, OrderResultFields.Unresolved,
      OrderResultFields.reconciled_reconciliationState] at hwaits
    have hothers : ∀ agentId, agentId ≠ target.request.agentId →
        (agentId ∈ reconciledAgents state.blockedAgents target.request.agentId reconciliation ↔
          state.WaitsBeside target.requestKey agentId) := by
      intro agentId hne
      rw [BrokerState.waitsBeside_of_ne hinvariant.keyed hne, ← hblocks agentId]
      cases reconciliation with
      | conflict => exact List.mem_insert_iff.trans (or_iff_right hne)
      | resolved => exact List.mem_erase_of_ne hne
      | required => exact Iff.rfl
      | notRequired => exact Iff.rfl
    have hown : (∀ agentId,
        agentId ∈ reconciledAgents state.blockedAgents target.request.agentId reconciliation ↔
          target.request.agentId = agentId ∧
              (reconciliation = .required ∨ reconciliation = .conflict) ∨
            state.WaitsBeside target.requestKey agentId) ↔
        (target.request.agentId ∈
            reconciledAgents state.blockedAgents target.request.agentId reconciliation ↔
          (reconciliation = .required ∨ reconciliation = .conflict) ∨
            state.WaitsBeside target.requestKey target.request.agentId) := by
      constructor
      · intro hall
        simpa using hall target.request.agentId
      · intro hown agentId
        by_cases hne : agentId = target.request.agentId
        · subst hne
          simpa using hown
        · rw [hothers agentId hne]
          simp [Ne.symm hne]
    have hbeside : state.WaitsBeside target.requestKey target.request.agentId →
        target.request.agentId ∈ state.blockedAgents := fun hwaits =>
      (hblocks _).mpr hwaits.waits
    rw [hstate]
    unfold BrokerState.BlocksWaiting
    simp only [hwaits]
    rw [hown, BrokerCall.ReleasesRightly, htarget]
    simp only [Option.mem_some_iff, forall_eq']
    cases reconciliation with
    | conflict => simp [reconciledAgents]
    | resolved => simp [reconciledAgents, hinvariant.blocked.mem_erase_iff]
    | required => simp [reconciledAgents]
    | notRequired =>
        simp only [reconciledAgents, reduceCtorEq, or_self, false_or]
        exact ⟨fun hiff => hiff.mp, fun hthere => ⟨hthere, hbeside⟩⟩

/-- In every state of a run the blocked agents are those that wait for
reconciliation, exactly when each reconciliation of the run releases rightly. -/
theorem blocksWaiting_iff (calls : List BrokerCall) :
    Runs.Always (broker.call digests) BrokerState.BlocksWaiting .empty calls ↔
      Runs.Along (broker.call digests) BrokerCall.ReleasesRightly .empty calls := by
  refine Runs.always_iff_along (broker.call digests)
    (fun state next (h : Reached state) => h.call broker digests next) ?_ calls reached_empty
    BrokerState.blocksWaiting_empty
  intro state next h hblocks
  cases next with
  | execute request arguments =>
      exact iff_of_true (broker.execute_blocksWaiting digests h hblocks request arguments) trivial
  | reconcile operationId reconciliation =>
      exact reconcile_blocksWaiting_iff h hblocks operationId reconciliation

end BinaryPaperBroker

namespace Sample

/-- Digests that tell the operations of two keys apart. -/
def keyDigests : Digests :=
  { digests with
    operation := fun _ idempotencyKey =>
      if idempotencyKey = "key" then digest
      else ⟨"1111111111111111111111111111111111111111111111111111111111111111", by decide,
        by decide⟩ }

/-- The purchase under another key. -/
def otherPurchase : OrderRequest :=
  { purchase with
    idempotencyKey := "other"
    key_nonblank := by decide
    key_length := by decide }

/-- A purchase is kept pending, so that another one is rejected; the other is found to
be in conflict, and then the first is resolved. -/
def resolvedBeside : List BrokerCall := [
  .execute purchase { arguments portfolio false with pending := true },
  .execute otherPurchase (arguments portfolio false),
  .reconcile (keyDigests.operationUuid "agent" "other") .conflict,
  .reconcile (keyDigests.operationUuid "agent" "key") .resolved]

end Sample

set_option maxRecDepth 10000 in
/-- Resolving one of two operations that wait releases the agent. -/
theorem resolved_releases_waiting :
    "agent" ∉ (Sample.broker.after Sample.keyDigests Sample.resolvedBeside).blockedAgents ∧
      (Sample.broker.after Sample.keyDigests Sample.resolvedBeside).Waits "agent" ∧
      ¬ (Sample.broker.after Sample.keyDigests Sample.resolvedBeside).BlocksWaiting := by
  have h : "agent" ∉
        (Sample.broker.after Sample.keyDigests Sample.resolvedBeside).blockedAgents ∧
      (Sample.broker.after Sample.keyDigests Sample.resolvedBeside).Waits "agent" := by
    decide +kernel
  exact ⟨h.1, h.2, fun hblocks => h.1 ((hblocks "agent").mpr h.2)⟩

/-! ## Finished operations -/

/-- An operation that is filled or rejected. -/
def OrderResultFields.Finished (result : OrderResultFields) : Prop :=
  result.state = .filled ∨ result.state = .rejected

instance (result : OrderResultFields) : Decidable result.Finished :=
  inferInstanceAs (Decidable (_ ∨ _))

/-- Two results end an operation in the same way. -/
structure OrderResultFields.SameOutcome (result other : OrderResultFields) : Prop where
  state : other.state = result.state
  fills : other.fills = result.fills
  requestedUnits : other.requestedUnits = result.requestedUnits
  filledUnits : other.filledUnits = result.filledUnits
  remainingUnits : other.remainingUnits = result.remainingUnits
  cancelledUnits : other.cancelledUnits = result.cancelledUnits
  errorCode : other.errorCode = result.errorCode

theorem OrderResultFields.SameOutcome.refl (result : OrderResultFields) :
    result.SameOutcome result :=
  ⟨rfl, rfl, rfl, rfl, rfl, rfl, rfl⟩

/-- The finished operations of a state have the same outcome in a later one. -/
def BrokerState.KeepsFinished (state later : BrokerState) : Prop :=
  ∀ key result, state.result key = some result → result.Finished →
    ∃ kept, later.result key = some kept ∧ result.SameOutcome kept.toOrderResultFields

theorem BrokerState.KeepsFinished.refl (state : BrokerState) : state.KeepsFinished state :=
  fun _ result hresult _ => ⟨result, hresult, .refl _⟩

theorem BrokerState.KeepsFinished.trans {first second third : BrokerState}
    (h : first.KeepsFinished second) (h' : second.KeepsFinished third) :
    first.KeepsFinished third := by
  intro key result hresult hfinished
  obtain ⟨kept, hkept, hsame⟩ := h key result hresult hfinished
  have hfinished' : kept.Finished := by
    unfold OrderResultFields.Finished at hfinished ⊢
    rwa [hsame.state]
  obtain ⟨last, hlast, hsame'⟩ := h' key kept hkept hfinished'
  exact ⟨last, hlast, hsame'.state.trans hsame.state, hsame'.fills.trans hsame.fills,
    hsame'.requestedUnits.trans hsame.requestedUnits, hsame'.filledUnits.trans hsame.filledUnits,
    hsame'.remainingUnits.trans hsame.remainingUnits,
    hsame'.cancelledUnits.trans hsame.cancelledUnits, hsame'.errorCode.trans hsame.errorCode⟩

/-- A reconciliation that leaves a finished operation alone: it does not resolve one,
and finds one to be in conflict only if it has that error already. -/
def BrokerCall.LeavesFinished (state : BrokerState) : BrokerCall → Prop
  | .execute _ _ => True
  | .reconcile operationId reconciliation =>
      ∀ target ∈ state.target operationId, target.Finished →
        reconciliation ≠ .resolved ∧
          (reconciliation = .conflict → target.errorCode = some .conflictingEvidence)

/-- What a reconciliation keeps of a finished result. -/
theorem OrderResultFields.sameOutcome_reconciled_iff {target : OrderResultFields}
    (hfinished : target.Finished) (reconciliation : ReconciliationState) :
    target.SameOutcome (target.reconciled reconciliation) ↔
      reconciliation ≠ .resolved ∧
        (reconciliation = .conflict → target.errorCode = some .conflictingEvidence) := by
  cases reconciliation with
  | notRequired => exact iff_of_true ⟨rfl, rfl, rfl, rfl, rfl, rfl, rfl⟩ ⟨by rintro ⟨⟩, by rintro ⟨⟩⟩
  | required => exact iff_of_true ⟨rfl, rfl, rfl, rfl, rfl, rfl, rfl⟩ ⟨by rintro ⟨⟩, by rintro ⟨⟩⟩
  | resolved =>
      refine iff_of_false (fun hsame => ?_) fun h => h.1 rfl
      unfold OrderResultFields.Finished at hfinished
      rw [← hsame.state] at hfinished
      rcases hfinished with hfilled | hrejected
      · cases hfilled
      · cases hrejected
  | conflict =>
      exact ⟨fun hsame => ⟨by rintro ⟨⟩, fun _ => hsame.errorCode.symm⟩,
        fun h => ⟨rfl, rfl, rfl, rfl, rfl, rfl, (h.2 rfl).symm⟩⟩

namespace BinaryPaperBroker

variable (broker : BinaryPaperBroker) (digests : Digests)

theorem execute_keepsFinished (state : BrokerState) (request : OrderRequest)
    (arguments : ExecutionArguments) :
    state.KeepsFinished (broker.execute digests state request arguments).1 := by
  cases hresult : state.result (request.agentId, request.idempotencyKey) with
  | some existing =>
      rw [(broker.execute_known digests arguments hresult).1]
      exact .refl state
  | none =>
      have hstored {result : OrderResult} (hrequest : result.request = request)
          (blockedAgents : List String) :
          state.KeepsFinished { state.store result with blockedAgents := blockedAgents } := by
        intro key finished hfinished _
        refine ⟨finished, ?_, .refl _⟩
        change (state.store result).result key = some finished
        rw [BrokerState.result_store_of_ne state fun hkey => ?_, hfinished]
        rw [hkey, OrderResultFields.requestKey, hrequest, hresult] at hfinished
        cases hfinished
      rcases broker.execute_new digests arguments hresult with
        ⟨hstate, -⟩ | ⟨result, -, hrequest, ⟨-, hstate⟩ | ⟨-, hstate⟩⟩
      · rw [hstate]
        exact .refl state
      · rw [hstate]
        exact hstored hrequest state.blockedAgents
      · rw [hstate]
        exact hstored hrequest _

theorem reconcile_keepsFinished_iff {state : BrokerState} (h : Reached state)
    (operationId : String) (reconciliation : ReconciliationState) :
    state.KeepsFinished (reconcile state operationId reconciliation).1 ↔
      BrokerCall.LeavesFinished state (.reconcile operationId reconciliation) := by
  obtain ⟨seen, hinvariant⟩ := h
  rcases reconcile_cases hinvariant.whole operationId reconciliation with
    ⟨hnone, hstate, -⟩ | ⟨target, updated, htarget, -, hfields, hstate⟩
  · rw [hstate]
    refine iff_of_true (.refl state) fun target htarget => ?_
    rw [hnone] at htarget
    cases htarget
  · obtain ⟨row, hrow, rfl⟩ := BrokerState.exists_mem_of_target htarget
    have hold := hinvariant.keyed.result_of_mem hrow
    have hkey : updated.requestKey = row.2.requestKey := by
      rw [hfields, OrderResultFields.reconciled_requestKey]
    have hnew : (state.store updated).result row.2.requestKey = some updated := by
      rw [← hkey]
      exact BrokerState.result_store_self state updated
    rw [hstate, BrokerCall.LeavesFinished, htarget]
    simp only [Option.mem_some_iff, forall_eq']
    constructor
    · intro hkeeps hfinished
      obtain ⟨kept, hkept, hsame⟩ := hkeeps _ _ hold hfinished
      obtain rfl : updated = kept := Option.some.inj (hnew.symm.trans hkept)
      rw [hfields] at hsame
      exact (OrderResultFields.sameOutcome_reconciled_iff hfinished reconciliation).mp hsame
    · intro hleaves key result hresult hfinished
      by_cases hsame : key = row.2.requestKey
      · subst hsame
        rw [hold] at hresult
        cases hresult
        refine ⟨updated, hnew, ?_⟩
        rw [hfields]
        exact (OrderResultFields.sameOutcome_reconciled_iff hfinished reconciliation).mpr
          (hleaves hfinished)
      · refine ⟨result, ?_, .refl _⟩
        rw [← hkey] at hsame
        exact (BrokerState.result_store_of_ne state hsame).trans hresult

/-- The finished operations of every state of a run keep their outcome in every later
state of it, exactly when each reconciliation of the run leaves the finished
operation it meets alone. -/
theorem keepsFinished_iff (calls : List BrokerCall) :
    (∀ before during later, calls = before ++ during ++ later →
      (broker.after digests before).KeepsFinished (broker.after digests (before ++ during))) ↔
      Runs.Along (broker.call digests) BrokerCall.LeavesFinished .empty calls := by
  refine Runs.related_iff_along (broker.call digests) BrokerState.KeepsFinished.refl
    BrokerState.KeepsFinished.trans
    (fun state next (h : Reached state) => h.call broker digests next) ?_ calls reached_empty
  intro state next h
  cases next with
  | execute request arguments =>
      exact iff_of_true (broker.execute_keepsFinished digests state request arguments) trivial
  | reconcile operationId reconciliation =>
      exact reconcile_keepsFinished_iff h operationId reconciliation

end BinaryPaperBroker

/-- A purchase is filled, and then resolved. -/
def Sample.resolvedPurchase : List BrokerCall :=
  purchased ++ [.reconcile (digests.operationUuid "agent" "key") .resolved]

set_option maxRecDepth 10000 in
/-- Resolving a filled operation makes it a cancelled one with fills. -/
theorem resolved_cancels_filled :
    ((Sample.broker.after Sample.digests Sample.purchased).result ("agent", "key")).any
        (fun result => result.state = .filled ∧ result.fills ≠ []) = true ∧
      ((Sample.broker.after Sample.digests Sample.resolvedPurchase).result ("agent", "key")).any
        (fun result => result.state = .cancelled ∧ result.fills ≠ []) = true ∧
      ¬ (Sample.broker.after Sample.digests Sample.purchased).KeepsFinished
        (Sample.broker.after Sample.digests Sample.resolvedPurchase) := by
  have h : ((Sample.broker.after Sample.digests Sample.purchased).result ("agent", "key")).any
        (fun result => result.state = .filled ∧ result.fills ≠ []) = true ∧
      ((Sample.broker.after Sample.digests Sample.resolvedPurchase).result ("agent", "key")).any
        (fun result => result.state = .cancelled ∧ result.fills ≠ []) = true := by
    decide +kernel
  refine ⟨h.1, h.2, fun hkeeps => ?_⟩
  obtain ⟨filled, hfilled, htest⟩ := (Option.any_eq_true _ _).mp h.1
  have hstate := (of_decide_eq_true htest).1
  obtain ⟨kept, hkept, hsame⟩ := hkeeps _ filled hfilled (Or.inl hstate)
  have hcancelled := h.2
  rw [hkept, Option.any_some, decide_eq_true_eq, hsame.state, hstate] at hcancelled
  cases hcancelled.1

end VTrade
