/-
# Runs of a broker

A broker answers executions and reconciliations in any order.  One call stores at
most one result: an execution under a key that has none, and a reconciliation in
the place of the result it reconciles.  So a key has one set of fills, and what it
is answered with changes by reconciliations only.

What a reconciliation writes depends on the state it is given and not on the
lifecycle of the operation, and it releases an agent without looking at the other
operations of the agent.
-/

import VTrade.ExecutionEffect
import VTrade.Lib.Runs

namespace VTrade

/-- What a result is remembered under. -/
def OrderResultFields.requestKey (result : OrderResultFields) : String × String :=
  (result.request.agentId, result.request.idempotencyKey)

/-- A result that waits for reconciliation. -/
def OrderResultFields.Unresolved (result : OrderResultFields) : Prop :=
  result.reconciliationState = .required ∨ result.reconciliationState = .conflict

instance (result : OrderResultFields) : Decidable result.Unresolved :=
  inferInstanceAs (Decidable (_ ∨ _))

/-! ## What one call does -/

namespace BrokerState

/-- Every result is remembered under its own key, once. -/
structure Keyed (state : BrokerState) : Prop where
  unique : (state.results.map Prod.fst).Nodup
  own : ∀ row ∈ state.results, row.1 = row.2.requestKey

/-- The state with a result in the place of the one under its key. -/
def store (state : BrokerState) (result : OrderResult) : BrokerState :=
  { state with results := KeyedList.upsert Prod.fst (result.requestKey, result) state.results }

@[simp]
theorem store_blockedAgents (state : BrokerState) (result : OrderResult) :
    (state.store result).blockedAgents = state.blockedAgents := rfl

theorem result_store_self (state : BrokerState) (result : OrderResult) :
    (state.store result).result result.requestKey = some result := by
  have h := @KeyedList.lookup_upsert_self _ _ _ Prod.fst (result.requestKey, result) state.results
  simp only [BrokerState.result, store, h, Option.map_some]

theorem result_store_of_ne (state : BrokerState) {result : OrderResult} {key : String × String}
    (hne : key ≠ result.requestKey) : (state.store result).result key = state.result key := by
  have h := @KeyedList.lookup_upsert_of_ne _ _ _ Prod.fst key (result.requestKey, result) hne
    state.results
  simp only [BrokerState.result, store, h]

theorem Keyed.store {state : BrokerState} (h : state.Keyed) (result : OrderResult) :
    (state.store result).Keyed where
  unique := KeyedList.nodup_upsert h.unique (result.requestKey, result)
  own row hmem := by
    rcases KeyedList.mem_upsert hmem with rfl | hmem
    · rfl
    · exact h.own row hmem

/-- A remembered result is the one its key is looked up as. -/
theorem Keyed.result_of_mem {state : BrokerState} (h : state.Keyed)
    {row : (String × String) × OrderResult} (hmem : row ∈ state.results) :
    state.result row.2.requestKey = some row.2 := by
  have hlookup := (KeyedList.lookup_eq_some_iff h.unique).mpr ⟨hmem, h.own row hmem⟩
  simp only [BrokerState.result, hlookup, Option.map_some]

theorem Keyed.requestKey_of_result {state : BrokerState} (h : state.Keyed) {key : String × String}
    {result : OrderResult} (hresult : state.result key = some result) :
    result.requestKey = key := by
  obtain ⟨row, hrow, rfl⟩ := Option.map_eq_some_iff.mp hresult
  rw [← h.own row (KeyedList.mem_of_lookup_eq_some hrow),
    KeyedList.key_of_lookup_eq_some hrow]

theorem exists_mem_of_result {state : BrokerState} {key : String × String} {result : OrderResult}
    (hresult : state.result key = some result) : ∃ row ∈ state.results, row.2 = result := by
  obtain ⟨row, hrow, rfl⟩ := Option.map_eq_some_iff.mp hresult
  exact ⟨row, KeyedList.mem_of_lookup_eq_some hrow, rfl⟩

/-- The result that an operation has. -/
def target (state : BrokerState) (operationId : String) : Option OrderResult :=
  (state.results.find? fun row => row.2.operationId = operationId).map Prod.snd

theorem exists_mem_of_target {state : BrokerState} {operationId : String} {result : OrderResult}
    (h : state.target operationId = some result) : ∃ row ∈ state.results, row.2 = result := by
  obtain ⟨row, hrow, rfl⟩ := Option.map_eq_some_iff.mp h
  exact ⟨row, List.mem_of_find?_eq_some hrow, rfl⟩

end BrokerState

/-- The result a reconciliation writes in the place of another. -/
def OrderResultFields.reconciled (target : OrderResultFields) :
    ReconciliationState → OrderResultFields
  | .conflict => { target with
      reconciliationState := .conflict
      errorCode := some .conflictingEvidence
      updatedAt := max target.updatedAt target.submittedAt }
  | .resolved => { target with
      state := .cancelled
      reconciliationState := .resolved
      remainingUnits := 0
      cancelledUnits := target.requestedUnits - target.filledUnits
      updatedAt := max target.updatedAt target.submittedAt }
  | .required => { target with reconciliationState := .required }
  | .notRequired => { target with reconciliationState := .notRequired }

/-- The blocked agents after a reconciliation of one of their operations. -/
def reconciledAgents (blockedAgents : List String) (agentId : String) :
    ReconciliationState → List String
  | .conflict => blockedAgents.insert agentId
  | .resolved => blockedAgents.erase agentId
  | .required | .notRequired => blockedAgents

namespace OrderResultFields

@[simp]
theorem reconciled_request (target : OrderResultFields) (reconciliation : ReconciliationState) :
    (target.reconciled reconciliation).request = target.request := by
  cases reconciliation <;> rfl

@[simp]
theorem reconciled_fills (target : OrderResultFields) (reconciliation : ReconciliationState) :
    (target.reconciled reconciliation).fills = target.fills := by
  cases reconciliation <;> rfl

@[simp]
theorem reconciled_reconciliationState (target : OrderResultFields)
    (reconciliation : ReconciliationState) :
    (target.reconciled reconciliation).reconciliationState = reconciliation := by
  cases reconciliation <;> rfl

@[simp]
theorem reconciled_requestKey (target : OrderResultFields) (reconciliation : ReconciliationState) :
    (target.reconciled reconciliation).requestKey = target.requestKey := by
  rw [requestKey, reconciled_request]
  rfl

/-- A result that fills nothing or everything can be reconciled. -/
theorem reconciled_accounts {target : OrderResult} (hwhole : target.AllOrNothing)
    (reconciliation : ReconciliationState) :
    OrderResult.Accounts (target.reconciled reconciliation) := by
  have h := target.accounts
  have hle : target.filledUnits ≤ target.requestedUnits := by
    rcases hwhole with hnothing | heverything
    · exact hnothing ▸ h.requested_nonneg
    · exact heverything.le
  cases reconciliation with
  | notRequired => exact { h with }
  | required => exact { h with }
  | conflict => exact { h with ordered := le_max_right _ _ }
  | resolved =>
      refine { h with
        remaining_nonneg := le_refl 0
        cancelled_nonneg := Int.sub_nonneg_of_le hle
        conserved := fun _ => ?_
        complete := ?_
        partly := ?_
        refused := ?_
        ordered := le_max_right _ _ }
      · change target.filledUnits + 0 + (target.requestedUnits - target.filledUnits) =
          target.requestedUnits
        ring
      · rintro ⟨⟩
      · rintro ⟨⟩
      · rintro ⟨⟩

end OrderResultFields

namespace BinaryPaperBroker

variable (broker : BinaryPaperBroker) (digests : Digests)

/-- A context gives a result that waits for nothing. -/
theorem executeContext_notRequired {request : OrderRequest} {arguments : ExecutionArguments}
    {context : MarketContext} {operationId : String} {result : OrderResult}
    (h : broker.executeContext digests request arguments context operationId = .ok result) :
    result.reconciliationState = .notRequired := by
  have hrejected {rejection : Rejection}
      (h : rejected request arguments.portfolio arguments.now operationId rejection = .ok result) :
      result.reconciliationState = .notRequired := by
    rw [OrderResult.make_eq_ok_iff.mp h]
  unfold executeContext at h
  split at h
  · exact hrejected h
  · cases h
  · obtain ⟨fills, -, h⟩ := Checks.bind_eq_ok.mp h
    split at h
    · split at h
      · exact hrejected h
      · cases h
    · obtain ⟨audit, -, h⟩ := Checks.bind_eq_ok.mp h
      rw [OrderResult.make_eq_ok_iff.mp h]

/-- An execution under a key that has no result raises and leaves the state as it
is, or stores the result it returns; an order that it keeps pending blocks its agent. -/
theorem execute_new {state : BrokerState} {request : OrderRequest}
    (arguments : ExecutionArguments)
    (hnew : state.result (request.agentId, request.idempotencyKey) = none) :
    (broker.execute digests state request arguments).1 = state ∧
        (∃ error, (broker.execute digests state request arguments).2 = .error error) ∨
      ∃ result, (broker.execute digests state request arguments).2 = .ok result ∧
        result.request = request ∧
        (result.reconciliationState = .notRequired ∧
            (broker.execute digests state request arguments).1 = state.store result ∨
          result.reconciliationState = .required ∧
            (broker.execute digests state request arguments).1 =
              (state.store result).block request.agentId) := by
  have hremember {outcome : Except Raised OrderResult}
      (hsound : ∀ result, outcome = .ok result → result.request = request ∧
        result.reconciliationState = .notRequired) :
      (state.remember (request.agentId, request.idempotencyKey) outcome).1 = state ∧
          (∃ error, outcome = .error error) ∨
        ∃ result, outcome = .ok result ∧ result.request = request ∧
          (result.reconciliationState = .notRequired ∧
            (state.remember (request.agentId, request.idempotencyKey) outcome).1 =
              state.store result ∨
          result.reconciliationState = .required ∧
            (state.remember (request.agentId, request.idempotencyKey) outcome).1 =
              (state.store result).block request.agentId) := by
    cases outcome with
    | error error => exact Or.inl ⟨rfl, error, rfl⟩
    | ok result =>
        obtain ⟨hrequest, hstate⟩ := hsound result rfl
        refine Or.inr ⟨result, rfl, hrequest, Or.inl ⟨hstate, ?_⟩⟩
        rw [BrokerState.store, OrderResultFields.requestKey, hrequest]
        rfl
  unfold execute
  dsimp only
  split
  · exact Or.inl ⟨rfl, _, rfl⟩
  · rw [hnew]
    dsimp only
    split
    · have hsound (result : OrderResult) (hresult : rejected request arguments.portfolio
          arguments.now (digests.operationUuid request.agentId request.idempotencyKey)
          { code := .reconciliationRequired } = .ok result) :
          result.request = request ∧ result.reconciliationState = .notRequired := by
        rw [OrderResult.make_eq_ok_iff.mp hresult]
        trivial
      simpa using hremember hsound
    · split
      next context hpending hcontext =>
        simpa using hremember fun result hresult =>
          ⟨(broker.executeContext_accountedOn digests hresult).1,
            broker.executeContext_notRequired digests hresult⟩
      next =>
        split
        next result hresult =>
          have hfields := OrderResult.make_eq_ok_iff.mp hresult
          refine Or.inr ⟨result, rfl, ?_, Or.inr ⟨?_, ?_⟩⟩
          · rw [hfields]
          · rw [hfields]
          · rw [BrokerState.store, OrderResultFields.requestKey, hfields]
            rfl
        next error herror => exact Or.inl ⟨rfl, error, rfl⟩

/-- What an order gets that differs from the one its key was used for. -/
structure Conflicts (request : OrderRequest) (portfolio : ContractPortfolio)
    (result : OrderResult) : Prop where
  request : result.request = request
  state : result.state = .rejected
  errorCode : result.errorCode = some .idempotencyConflict
  fills : result.fills = []
  portfolioBefore : result.portfolioBefore = some portfolio
  portfolioAfter : result.portfolioAfter = some portfolio
  ledgerEntries : result.ledgerEntries = []

/-- An execution under a key that has a result leaves the state as it is.  It
returns that result to the same order, and a conflict to another one. -/
theorem execute_known {state : BrokerState} {request : OrderRequest}
    (arguments : ExecutionArguments) {existing : OrderResult}
    (hknown : state.result (request.agentId, request.idempotencyKey) = some existing) :
    (broker.execute digests state request arguments).1 = state ∧
      (arguments.now.isAware = false ∧
          (∃ error, (broker.execute digests state request arguments).2 = .error error) ∨
        arguments.now.isAware = true ∧
          digests.fingerprint existing.request = digests.fingerprint request ∧
          (broker.execute digests state request arguments).2 = .ok existing ∨
        arguments.now.isAware = true ∧
          digests.fingerprint existing.request ≠ digests.fingerprint request ∧
          (broker.execute digests state request arguments).2 =
            rejected request arguments.portfolio arguments.now existing.operationId
              { code := .idempotencyConflict }) := by
  unfold execute
  dsimp only
  rw [hknown]
  split
  next hnaive => exact ⟨rfl, Or.inl ⟨hnaive, _, rfl⟩⟩
  next haware =>
    have haware := Bool.eq_true_of_not_eq_false haware
    dsimp only
    split
    next hequal => exact ⟨rfl, Or.inr (Or.inl ⟨haware, hequal, rfl⟩)⟩
    next hdiffers => exact ⟨rfl, Or.inr (Or.inr ⟨haware, hdiffers, rfl⟩)⟩

theorem conflicts_of_rejected {request : OrderRequest} {portfolio : ContractPortfolio}
    {now : Datetime} {operationId : String} {result : OrderResult}
    (h : rejected request portfolio now operationId { code := .idempotencyConflict } =
      .ok result) : Conflicts request portfolio result := by
  have hfields := OrderResult.make_eq_ok_iff.mp h
  constructor <;> rw [hfields]

/-- A reconciliation of an operation that is not known changes nothing; of one that
is, it writes the reconciled result in its place. -/
theorem reconcile_cases {state : BrokerState} (hwhole : AllResultsWhole state)
    (operationId : String) (reconciliation : ReconciliationState) :
    state.target operationId = none ∧ (reconcile state operationId reconciliation).1 = state ∧
        (∃ error, (reconcile state operationId reconciliation).2 = .error error) ∨
      ∃ target updated, state.target operationId = some target ∧
        (reconcile state operationId reconciliation).2 = .ok updated ∧
        updated.toOrderResultFields = target.reconciled reconciliation ∧
        (reconcile state operationId reconciliation).1 =
          { state.store updated with
            blockedAgents := reconciledAgents state.blockedAgents target.request.agentId
              reconciliation } := by
  unfold reconcile
  cases hfound : state.results.find? fun row => row.2.operationId = operationId with
  | none => exact Or.inl ⟨by simp [BrokerState.target, hfound], rfl, _, rfl⟩
  | some row =>
      obtain ⟨key, target⟩ := row
      have htarget : state.target operationId = some target := by
        simp [BrokerState.target, hfound]
      have hwritten := OrderResult.make_eq_ok (OrderResult.postInit_eq_ok_iff.mpr
        (OrderResultFields.reconciled_accounts
          (hwhole _ (List.mem_of_find?_eq_some hfound)) reconciliation))
      obtain ⟨updated, hfields, hmake⟩ : ∃ updated : OrderResult,
          updated.toOrderResultFields = target.reconciled reconciliation ∧
            OrderResult.make (target.reconciled reconciliation) = .ok updated :=
        ⟨_, rfl, hwritten⟩
      have hkey : updated.requestKey =
          (target.request.agentId, target.request.idempotencyKey) := by
        rw [OrderResultFields.requestKey, hfields, OrderResultFields.reconciled_request]
      refine Or.inr ⟨target, updated, htarget, ?_⟩
      rw [BrokerState.store, hkey]
      cases reconciliation <;>
        · dsimp only [OrderResultFields.reconciled] at hmake ⊢
          rw [hmake]
          exact ⟨rfl, hfields, rfl⟩

/-! ## Runs of calls -/

end BinaryPaperBroker

/-- A call of a broker. -/
inductive BrokerCall
  | execute (request : OrderRequest) (arguments : ExecutionArguments)
  | reconcile (operationId : String) (reconciliation : ReconciliationState)

namespace BinaryPaperBroker

variable (broker : BinaryPaperBroker) (digests : Digests)

def call (state : BrokerState) : BrokerCall → BrokerState × Except Raised OrderResult
  | .execute request arguments => broker.execute digests state request arguments
  | .reconcile operationId reconciliation => reconcile state operationId reconciliation

/-- The state of a new broker after a run of calls. -/
def after (calls : List BrokerCall) : BrokerState := Runs.final (broker.call digests) .empty calls

/-- A run of calls of a new broker with their answers. -/
def answers (calls : List BrokerCall) : List (BrokerCall × Except Raised OrderResult) :=
  Runs.trace (broker.call digests) .empty calls

/-- What an answer makes of the result that a key is known to have: an execution
gives it its first one, and a reconciliation another. -/
def learn (key : String × String) (known : Option OrderResult) :
    BrokerCall × Except Raised OrderResult → Option OrderResult
  | (.execute _ _, .ok result) => if result.requestKey = key then known.or (some result) else known
  | (.reconcile _ _, .ok result) => if result.requestKey = key then some result else known
  | (_, .error _) => known

/-- The result of a key, read off the answers of a run. -/
def lastStored (key : String × String)
    (answers : List (BrokerCall × Except Raised OrderResult)) : Option OrderResult :=
  answers.foldl (learn key) none

/-- What every run keeps true of a broker's state and its answers so far. -/
structure RunInvariant (seen : List (BrokerCall × Except Raised OrderResult))
    (state : BrokerState) : Prop where
  keyed : state.Keyed
  whole : AllResultsWhole state
  blocked : state.blockedAgents.Nodup
  stored : ∀ key, state.result key = lastStored key seen
  fills : ∀ call answer, (call, Except.ok answer) ∈ seen → answer.fills ≠ [] →
    ∃ result, state.result answer.requestKey = some result ∧ result.fills = answer.fills

theorem runInvariant_empty : RunInvariant [] .empty where
  keyed := ⟨List.nodup_nil, fun row hmem => by cases hmem⟩
  whole := fun row hmem => by cases hmem
  blocked := List.nodup_nil
  stored _ := rfl
  fills _ _ hmem := by cases hmem

theorem lastStored_concat (key : String × String)
    (seen : List (BrokerCall × Except Raised OrderResult))
    (answer : BrokerCall × Except Raised OrderResult) :
    lastStored key (seen ++ [answer]) = learn key (lastStored key seen) answer :=
  List.foldl_concat ..

/-- An answer that stores nothing keeps the invariant when it carries no fills but
those of the result its key has. -/
theorem RunInvariant.keep {seen : List (BrokerCall × Except Raised OrderResult)}
    {state : BrokerState} (h : RunInvariant seen state) {call : BrokerCall}
    {answer : Except Raised OrderResult}
    (hanswer : ∀ result, answer = .ok result →
      (∃ request arguments, call = .execute request arguments) ∧
        ∃ existing, state.result result.requestKey = some existing ∧
          (result.fills = existing.fills ∨ result.fills = [])) :
    RunInvariant (seen ++ [(call, answer)]) state where
  keyed := h.keyed
  whole := h.whole
  blocked := h.blocked
  stored key := by
    rw [lastStored_concat, ← h.stored]
    cases answer with
    | error error => cases call <;> rfl
    | ok result =>
        obtain ⟨⟨request, arguments, rfl⟩, existing, hexisting, -⟩ := hanswer result rfl
        rw [learn]
        split
        next hkey => rw [← hkey, hexisting, Option.some_or]
        next => rfl
  fills call' answer' hmem hsome := by
    rcases List.mem_append.mp hmem with hseen | hnew
    · exact h.fills call' answer' hseen hsome
    · obtain ⟨rfl, rfl⟩ := Prod.mk.inj (List.mem_singleton.mp hnew)
      obtain ⟨-, existing, hexisting, hfills⟩ := hanswer answer' rfl
      exact ⟨existing, hexisting, (hfills.resolve_right hsome).symm⟩

/-- An answer that is stored keeps the invariant when the result that its key had
has its fills. -/
theorem RunInvariant.store {seen : List (BrokerCall × Except Raised OrderResult)}
    {state : BrokerState} (h : RunInvariant seen state) {call : BrokerCall} {result : OrderResult}
    (hwhole : result.AllOrNothing)
    (hfills : ∀ existing, state.result result.requestKey = some existing →
      result.fills = existing.fills)
    (hcall : state.result result.requestKey = none ∨ ∃ id found, call = .reconcile id found)
    {blockedAgents : List String} (hblocked : blockedAgents.Nodup) :
    RunInvariant (seen ++ [(call, .ok result)])
      { state.store result with blockedAgents := blockedAgents } where
  keyed := ⟨(h.keyed.store result).unique, (h.keyed.store result).own⟩
  whole := by
    intro row hmem
    rcases KeyedList.mem_upsert hmem with rfl | hmem
    · exact hwhole
    · exact h.whole row hmem
  blocked := hblocked
  stored key := by
    rw [lastStored_concat, ← h.stored]
    change (state.store result).result key = _
    by_cases hkey : result.requestKey = key
    · subst hkey
      rw [BrokerState.result_store_self]
      rcases hcall with hnew | ⟨id, found, rfl⟩
      · rw [hnew]
        cases call <;> simp [learn]
      · simp [learn]
    · rw [BrokerState.result_store_of_ne state (Ne.symm hkey)]
      cases call <;> simp [learn, hkey]
  fills call' answer' hmem hsome := by
    change ∃ stored, (state.store result).result answer'.requestKey = some stored ∧ _
    rcases List.mem_append.mp hmem with hseen | hnew
    · obtain ⟨existing, hexisting, hequal⟩ := h.fills call' answer' hseen hsome
      by_cases hkey : answer'.requestKey = result.requestKey
      · rw [hkey] at hexisting ⊢
        exact ⟨result, BrokerState.result_store_self state result,
          (hfills existing hexisting).trans hequal⟩
      · exact ⟨existing, (BrokerState.result_store_of_ne state hkey).trans hexisting, hequal⟩
    · obtain ⟨rfl, hok⟩ := Prod.mk.inj (List.mem_singleton.mp hnew)
      cases hok
      exact ⟨result, BrokerState.result_store_self state result, rfl⟩

theorem reconciledAgents_nodup {blockedAgents : List String} (h : blockedAgents.Nodup)
    (agentId : String) (reconciliation : ReconciliationState) :
    (reconciledAgents blockedAgents agentId reconciliation).Nodup := by
  cases reconciliation with
  | conflict => exact h.insert
  | resolved => exact h.erase agentId
  | required => exact h
  | notRequired => exact h

/-- Every call keeps the invariant. -/
theorem RunInvariant.call {seen : List (BrokerCall × Except Raised OrderResult)}
    {state : BrokerState} (h : RunInvariant seen state) (next : BrokerCall) :
    RunInvariant (seen ++ [(next, (broker.call digests state next).2)])
      (broker.call digests state next).1 := by
  cases next with
  | execute request arguments =>
      have hwhole := (h.whole.execute broker digests request arguments).2
      unfold BinaryPaperBroker.call
      dsimp only
      cases hresult : state.result (request.agentId, request.idempotencyKey) with
      | none =>
          rcases broker.execute_new digests arguments hresult with
            ⟨hstate, error, herror⟩ | ⟨result, hok, hrequest, hcase⟩
          · rw [hstate, herror]
            exact h.keep fun result hok => by cases hok
          · have hnone : state.result result.requestKey = none := by
              rw [OrderResultFields.requestKey, hrequest]
              exact hresult
            have hfills (existing : OrderResult)
                (hexisting : state.result result.requestKey = some existing) :
                result.fills = existing.fills := by
              rw [hnone] at hexisting
              cases hexisting
            rcases hcase with ⟨-, hstate⟩ | ⟨-, hstate⟩
            · rw [hstate, hok]
              exact h.store (hwhole result hok) hfills (Or.inl hnone) h.blocked
            · rw [hstate, hok]
              exact h.store (hwhole result hok) hfills (Or.inl hnone) h.blocked.insert
      | some existing =>
          obtain ⟨hstate, hcase⟩ := broker.execute_known digests arguments hresult
          rw [hstate]
          refine h.keep fun result hok => ⟨⟨request, arguments, rfl⟩, ?_⟩
          rcases hcase with ⟨-, error, herror⟩ | ⟨-, -, hsame⟩ | ⟨-, -, hrejected⟩
          · rw [herror] at hok
            cases hok
          · rw [hsame] at hok
            cases hok
            exact ⟨existing, by rw [h.keyed.requestKey_of_result hresult, hresult], Or.inl rfl⟩
          · rw [hrejected] at hok
            have hconflicts := conflicts_of_rejected hok
            refine ⟨existing, ?_, Or.inr hconflicts.fills⟩
            rw [OrderResultFields.requestKey, hconflicts.request]
            exact hresult
  | reconcile operationId reconciliation =>
      unfold BinaryPaperBroker.call
      dsimp only
      rcases reconcile_cases h.whole operationId reconciliation with
        ⟨-, hstate, error, herror⟩ | ⟨target, updated, htarget, hok, hfields, hstate⟩
      · rw [hstate, herror]
        exact h.keep fun result hok => by cases hok
      · obtain ⟨row, hrow, rfl⟩ := BrokerState.exists_mem_of_target htarget
        have hkey : updated.requestKey = row.2.requestKey := by
          rw [hfields, OrderResultFields.reconciled_requestKey]
        have hwhole : updated.AllOrNothing := by
          have hold := h.whole row hrow
          unfold OrderResultFields.AllOrNothing at hold ⊢
          rw [hfields]
          cases reconciliation <;> exact hold
        rw [hstate, hok]
        refine h.store hwhole (fun existing hexisting => ?_) (Or.inr ⟨_, _, rfl⟩)
          (reconciledAgents_nodup h.blocked _ _)
        rw [hkey, h.keyed.result_of_mem hrow] at hexisting
        cases hexisting
        rw [hfields, OrderResultFields.reconciled_fills]

theorem runInvariant (calls : List BrokerCall) :
    RunInvariant (broker.answers digests calls) (broker.after digests calls) :=
  Runs.final_invariant (broker.call digests) RunInvariant runInvariant_empty
    (fun _ _ next h => h.call broker digests next) calls

/-- At most one set of fills is ever answered for a key.  What a key is answered
with after a run is its first result, or the last that a reconciliation has stored,
whatever the portfolio, the context and the time; another order under the key gets a
conflict and changes nothing. -/
theorem answers_atMostOnce (calls : List BrokerCall) :
    (∀ earlier first later second,
      (earlier, Except.ok first) ∈ broker.answers digests calls →
      (later, Except.ok second) ∈ broker.answers digests calls →
      first.requestKey = second.requestKey → first.fills ≠ [] → second.fills ≠ [] →
        first.fills = second.fills) ∧
    ∀ request arguments stored, arguments.now.isAware = true →
      request.createdAt ≤ arguments.now.instant →
      lastStored (request.agentId, request.idempotencyKey) (broker.answers digests calls) =
        some stored →
      (digests.fingerprint stored.request = digests.fingerprint request →
        broker.execute digests (broker.after digests calls) request arguments =
          (broker.after digests calls, .ok stored)) ∧
      (digests.fingerprint stored.request ≠ digests.fingerprint request →
        ∃ result, broker.execute digests (broker.after digests calls) request arguments =
            (broker.after digests calls, .ok result) ∧
          Conflicts request arguments.portfolio result) := by
  have h := broker.runInvariant digests calls
  constructor
  · intro earlier first later second hfirst hsecond hkey hsome hsome'
    obtain ⟨result, hresult, hfills⟩ := h.fills earlier first hfirst hsome
    obtain ⟨result', hresult', hfills'⟩ := h.fills later second hsecond hsome'
    rw [hkey, hresult'] at hresult
    cases hresult
    exact hfills.symm.trans hfills'
  · intro request arguments stored haware hcreated hstored
    rw [← h.stored] at hstored
    obtain ⟨hstate, hcase⟩ := broker.execute_known digests arguments hstored
    constructor
    · intro hequal
      rcases hcase with ⟨hnaive, -⟩ | ⟨-, -, hsame⟩ | ⟨-, hdiffers, -⟩
      · rw [haware] at hnaive
        cases hnaive
      · exact Prod.ext hstate hsame
      · exact absurd hequal hdiffers
    · intro hdiffers
      rcases hcase with ⟨hnaive, -⟩ | ⟨-, hequal, -⟩ | ⟨-, -, hrejected⟩
      · rw [haware] at hnaive
        cases hnaive
      · exact absurd hequal hdiffers
      · obtain ⟨result, hresult⟩ := rejected_isOk arguments.portfolio
          { code := .idempotencyConflict } stored.accounts.operation hcreated
        exact ⟨result, Prod.ext hstate (hrejected.trans hresult), conflicts_of_rejected hresult⟩

end BinaryPaperBroker

/-- A run of one purchase. -/
def Sample.purchased : List BrokerCall := [.execute purchase (arguments portfolio false)]

/-- A purchase that is sent again, with other arguments, gets its fills again. -/
theorem answers_atMostOnce_purchase :
    ∃ result, result.fills ≠ [] ∧
      Sample.broker.execute Sample.digests (Sample.broker.after Sample.digests Sample.purchased)
          Sample.purchase (Sample.arguments Sample.feeless true) =
        (Sample.broker.after Sample.digests Sample.purchased, .ok result) ∧
      ∀ answer ∈ Sample.broker.answers Sample.digests Sample.purchased,
        answer.2.toOption.all fun second =>
          second.requestKey = result.requestKey → second.fills ≠ [] →
            result.fills = second.fills := by
  obtain ⟨result, hresult, htest⟩ := Checks.exists_ok_of_any
    (Sample.broker.execute Sample.digests .empty Sample.purchase
      (Sample.arguments Sample.portfolio false)).2
    (fun result => result.fills ≠ []) (by decide +kernel)
  have hfills : result.fills ≠ [] := of_decide_eq_true htest
  have hrequest : result.request = Sample.purchase :=
    (Sample.broker.execute_accountedOn Sample.digests rfl hresult).1
  have hkey : result.requestKey =
      (Sample.purchase.agentId, Sample.purchase.idempotencyKey) := by
    rw [OrderResultFields.requestKey, hrequest]
  have hanswers : Sample.broker.answers Sample.digests Sample.purchased =
      [(.execute Sample.purchase (Sample.arguments Sample.portfolio false), .ok result)] :=
    congrArg (fun answer => [(_, answer)]) hresult
  have hstored : BinaryPaperBroker.lastStored
      (Sample.purchase.agentId, Sample.purchase.idempotencyKey)
      (Sample.broker.answers Sample.digests Sample.purchased) = some result := by
    rw [hanswers]
    exact if_pos hkey
  obtain ⟨hfirst, hlater⟩ := Sample.broker.answers_atMostOnce Sample.digests Sample.purchased
  refine ⟨result, hfills, (hlater Sample.purchase (Sample.arguments Sample.feeless true) result
    rfl (le_refl _) hstored).1 (by rw [hrequest]), fun answer hmem => ?_⟩
  obtain ⟨call, error | second⟩ := answer
  · rfl
  · have hmem' : (BrokerCall.execute Sample.purchase (Sample.arguments Sample.portfolio false),
        Except.ok result) ∈ Sample.broker.answers Sample.digests Sample.purchased := by
      rw [hanswers]
      exact List.mem_singleton.mpr rfl
    exact decide_eq_true fun hsame hsome =>
      hfirst _ result call second hmem' hmem hsame.symm hfills hsome

end VTrade
