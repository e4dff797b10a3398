/-
# What an execution changes

A result without fills leaves the portfolio it was decided on as it is.  A result
with fills is one whose fills accounting has taken: cash and the units of one
position move by what the fills say, nothing else of the portfolio moves, and
the entry says the same.

A portfolio may hold positions without units, so the loop over the fills is
followed on the portfolio itself and not on its holdings.
-/

import VTrade.BrokerOutcome
import VTrade.Replay

namespace VTrade

/-! ## One fill -/

/-- A fill puts one position in the place of the order's. -/
theorem applyFill_replaces {request : OrderRequest} {loop next : FillLoop} {fill : EconomicFill}
    (h : applyFill request loop fill = .ok next) :
    ∃ updated cashMicros realizedPnlMicros, updated.key = request.positionKey ∧
      replacePosition loop.working updated cashMicros realizedPnlMicros = .ok next.working := by
  unfold applyFill at h
  cases haction : request.action with
  | buy =>
      rw [haction] at h
      obtain ⟨updated, hupdated, h⟩ := Checks.bind_eq_ok.mp h
      split_ifs at h with hnet
      obtain ⟨working, hworking, h⟩ := Checks.bind_eq_ok.mp h
      split_ifs at h with hcash
      cases h
      have hfields := ContractPosition.make_eq_ok_iff.mp hupdated
      refine ⟨updated, _, _, ?_, hworking⟩
      simp [ContractPosition.key, OrderRequest.positionKey, hfields, boughtPosition]
  | sell =>
      rw [haction] at h
      simp only [applySellFill] at h
      split at h
      next => cases h
      next current hcurrent =>
        by_cases hunits : current.contractUnits < fill.contractUnits
        · rw [if_pos hunits] at h
          cases h
        rw [if_neg hunits] at h
        obtain ⟨removedBasis, -, h⟩ := Checks.bind_eq_ok.mp h
        obtain ⟨removedFees, -, h⟩ := Checks.bind_eq_ok.mp h
        obtain ⟨updated, hupdated, h⟩ := Checks.bind_eq_ok.mp h
        split_ifs at h with hnet
        obtain ⟨working, hworking, h⟩ := Checks.bind_eq_ok.mp h
        split_ifs at h with hcash
        cases h
        have hfields := ContractPosition.make_eq_ok_iff.mp hupdated
        refine ⟨updated, _, _, ?_, hworking⟩
        simp [ContractPosition.key, OrderRequest.positionKey, hfields, soldPosition]

/-- Replacing a position leaves the other positions as they are. -/
theorem replacePosition_position_of_ne {portfolio updated : ContractPortfolio}
    {position : ContractPosition} {cashMicros realizedPnlMicros : ℤ} {key : PositionKey}
    (h : replacePosition portfolio position cashMicros realizedPnlMicros = .ok updated)
    (hkey : key ≠ position.key) : updated.position key = portfolio.position key := by
  have hpositions : updated.positions = sortPositions
      (if position.contractUnits ≠ 0 then
        KeyedList.erase ContractPosition.key position.key portfolio.positions ++ [position]
      else KeyedList.erase ContractPosition.key position.key portfolio.positions) := by
    rw [ContractPortfolio.make_eq_ok_iff.mp h]
  have hunique := updated.unique_keys
  unfold ContractPortfolio.position
  rw [hpositions] at hunique ⊢
  rw [KeyedList.lookup_eq_of_perm (sortPositions_perm _) hunique]
  split
  · rw [KeyedList.lookup_eq_of_perm (List.perm_append_singleton _ _)
        (((sortPositions_perm _).map _).nodup_iff.mp (by simpa [*] using hunique)),
      KeyedList.lookup_cons_erase_of_ne hkey]
  · exact KeyedList.lookup_erase_of_ne hkey _

/-- The units a portfolio holds under a key. -/
def ContractPortfolio.units (portfolio : ContractPortfolio) (key : PositionKey) : ℤ :=
  (portfolio.position key).elim 0 fun position => position.contractUnits

theorem ContractPortfolio.units_eq_holding (portfolio : ContractPortfolio) (key : PositionKey) :
    portfolio.units key = (portfolio.account.holding key).units := by
  rw [portfolio.account_holding, units]
  cases portfolio.position key <;> rfl

/-! ## The loop -/

/-- What the loop over an order's fills has changed so far. -/
structure LoopEffect (portfolio : ContractPortfolio) (request : OrderRequest) (loop : FillLoop) :
    Prop where
  cash : loop.working.cashMicros = portfolio.cashMicros + (loop.movement request).cash
  units : loop.working.units request.positionKey =
    portfolio.units request.positionKey + (loop.movement request).units
  others : ∀ key ≠ request.positionKey, loop.working.position key = portfolio.position key

theorem LoopEffect.start (portfolio : ContractPortfolio) (request : OrderRequest) :
    LoopEffect portfolio request (FillLoop.start portfolio) := by
  constructor
  · exact (add_zero _).symm
  · exact (add_zero _).symm
  · exact fun _ _ => rfl

/-- Every fill is a step of the loop. -/
theorem exists_fillStep {request : OrderRequest} {loop next : FillLoop} {fill : EconomicFill}
    (h : applyFill request loop fill = .ok next) :
    ∃ item movement, FillStep request loop next fill item movement := by
  unfold applyFill at h
  cases haction : request.action with
  | buy =>
      rw [haction] at h
      exact ⟨_, _, (applyBuyFill_spec haction h).1⟩
  | sell =>
      rw [haction] at h
      obtain ⟨_, _, _, -, -, -, -, hstep, -, -⟩ := applySellFill_spec haction h
      exact ⟨_, _, hstep⟩

theorem LoopEffect.step {portfolio : ContractPortfolio} {request : OrderRequest}
    {loop next : FillLoop} {fill : EconomicFill} (h : LoopEffect portfolio request loop)
    (hfill : applyFill request loop fill = .ok next) : LoopEffect portfolio request next := by
  obtain ⟨item, movement, hstep⟩ := exists_fillStep hfill
  obtain ⟨updated, cashMicros, realizedPnlMicros, hkey, hreplaced⟩ := applyFill_replaces hfill
  have haccount := Books.Account.ext_iff.mp hstep.account
  constructor
  · have hcash : next.working.cashMicros = loop.working.cashMicros + movement.cash := haccount.1
    rw [hcash, h.cash, hstep.movement_eq, add_assoc]
    rfl
  · have hunits : (next.working.account.holding request.positionKey).units =
        (loop.working.account.holding request.positionKey).units + movement.units := by
      rw [hstep.account, ← hstep.movement_key, Books.Account.holding_post_self,
        Books.Holding.closeOut_units, Books.Holding.add_units]
      rfl
    rw [ContractPortfolio.units_eq_holding, hunits, ← ContractPortfolio.units_eq_holding, h.units,
      hstep.movement_eq, add_assoc]
    rfl
  · intro key hne
    rw [replacePosition_position_of_ne hreplaced (hkey ▸ hne), h.others key hne]

theorem LoopEffect.of_foldlM {portfolio : ContractPortfolio} {request : OrderRequest}
    {fills : List EconomicFill} {loop : FillLoop}
    (h : fills.foldlM (applyFill request) (FillLoop.start portfolio) = .ok loop) :
    LoopEffect portfolio request loop :=
  Checks.foldlM_invariant (fun _ => LoopEffect portfolio request) []
    (fun _ _ _ _ _ hstate hstep => hstate.step hstep) h (LoopEffect.start portfolio request)

/-! ## The order -/

/-- The amounts that an entry posts on cash. -/
def cashPostings (entry : LedgerEntry) : List ℤ :=
  (entry.postings.filter fun posting => posting.account = .cash).map
    fun posting => posting.amountMicros

/-- An entry that states a movement has one posting on cash. -/
theorem cashPostings_of_posts {entry : LedgerEntry} {movement : Books.Movement PositionKey}
    {expense : ℤ} (h : entry.Posts (postingsOf movement expense)) :
    cashPostings entry = [movement.cash] := by
  have hfields : cashPostings entry =
      ((entry.postings.map Posting.toPostingFields).filter fun posting =>
        posting.account = .cash).map fun posting => posting.amountMicros := by
    rw [List.filter_map, List.map_map]
    rfl
  rw [hfields, h, MovementPostings.fields, postingsOf]
  by_cases hfees : movement.fees + expense = 0 <;>
    by_cases hresult : movement.realized + expense = 0 <;>
    simp [hfees, hresult, PostingFields.ofCash, PostingFields.ofCost, PostingFields.ofFees,
      PostingFields.ofResult]

/-- What the fills of an order change: cash by their net deltas, the units of the
order's position by theirs, the version by one, and nothing of the other
positions; and the entry posts the cash. -/
structure FillsMove (portfolio : ContractPortfolio) (request : OrderRequest)
    (fills : List EconomicFill) (after : ContractPortfolio) (entry : LedgerEntry) : Prop where
  cash : after.cashMicros =
    portfolio.cashMicros + (fills.map fun fill => fill.netCashDeltaMicros).sum
  units : after.units request.positionKey = portfolio.units request.positionKey +
    if request.action = .buy then (fills.map fun fill => fill.contractUnits).sum
    else -(fills.map fun fill => fill.contractUnits).sum
  version : after.version = portfolio.version + 1
  others : ∀ key ≠ request.positionKey, after.position key = portfolio.position key
  posted : cashPostings entry = [(fills.map fun fill => fill.netCashDeltaMicros).sum]

/-- An accepted order changes what its fills say. -/
theorem OrderBooked.fillsMove {portfolio after : ContractPortfolio} {request : OrderRequest}
    {fills : List EconomicFill} {operationId : String} {occurredAt : Datetime}
    {entry : LedgerEntry} {loop : FillLoop}
    (h : OrderBooked portfolio request fills operationId occurredAt after entry loop) :
    FillsMove portfolio request fills after entry := by
  have heffect := LoopEffect.of_foldlM h.run
  have htotals := h.loopTotals
  have hposition (key : PositionKey) : after.position key = loop.working.position key :=
    KeyedList.lookup_eq_of_perm h.positions after.unique_keys key
  constructor
  · rw [h.cashMicros, heffect.cash, htotals.cash]
  · rw [ContractPortfolio.units, hposition, ← ContractPortfolio.units, heffect.units,
      htotals.units, sum_signedUnits]
    cases request.action <;> rfl
  · exact h.version
  · exact fun key hne => (hposition key).trans (heffect.others key hne)
  · rw [cashPostings_of_posts h.posts_movement, htotals.cash]

/-! ## Results -/

/-- How a result accounts for the portfolio it was decided on: it leaves it as it is,
or accounting has taken its fills. -/
inductive OrderResultFields.AccountedOn (portfolio : ContractPortfolio)
    (result : OrderResultFields) : Prop
  | unfilled (fills : result.fills = []) (before : result.portfolioBefore = some portfolio)
      (after : result.portfolioAfter = some portfolio) (entries : result.ledgerEntries = [])
  | filled {updated : ContractPortfolio} {entry : LedgerEntry} {accounting : List FillAccounting}
      {occurredAt : Datetime}
      (booked : applyOrderFills portfolio result.request result.fills result.operationId
        occurredAt = .ok (updated, entry, accounting))
      (before : result.portfolioBefore = some portfolio)
      (after : result.portfolioAfter = some updated) (entries : result.ledgerEntries = [entry])

/-- Fills leave one version more than the portfolio that they are accounted on. -/
theorem OrderResultFields.AccountedOn.version {portfolio before after : ContractPortfolio}
    {result : OrderResultFields} (h : result.AccountedOn portfolio) (hfills : result.fills ≠ [])
    (hbefore : result.portfolioBefore = some before) (hafter : result.portfolioAfter = some after) :
    before = portfolio ∧ after.version = before.version + 1 := by
  cases h with
  | unfilled hnone => exact absurd hnone hfills
  | filled booked hbefore' hafter' =>
      obtain rfl := Option.some.inj (hbefore.symm.trans hbefore')
      obtain rfl := Option.some.inj (hafter.symm.trans hafter')
      obtain ⟨_, -, hbooked⟩ := applyOrderFills_spec booked
      exact ⟨rfl, hbooked.version⟩

theorem rejected_accountedOn {request : OrderRequest} {portfolio : ContractPortfolio}
    {now : Datetime} {operationId : String} {rejection : Rejection} {result : OrderResult}
    (h : rejected request portfolio now operationId rejection = .ok result) :
    result.request = request ∧ result.AccountedOn portfolio := by
  rw [OrderResult.make_eq_ok_iff.mp h]
  exact ⟨rfl, .unfilled rfl rfl rfl rfl⟩

theorem pendingResult_accountedOn {request : OrderRequest} {portfolio : ContractPortfolio}
    {now : Datetime} {operationId : String} {frozenContextId : Option String}
    {result : OrderResult}
    (h : pendingResult request portfolio now operationId frozenContextId = .ok result) :
    result.request = request ∧ result.AccountedOn portfolio := by
  rw [OrderResult.make_eq_ok_iff.mp h]
  exact ⟨rfl, .unfilled rfl rfl rfl rfl⟩

namespace BinaryPaperBroker

variable (broker : BinaryPaperBroker) (digests : Digests)

/-- A prepared order is booked, or its result has no fills. -/
theorem finish_accountedOn {request : OrderRequest} {arguments : ExecutionArguments}
    {operationId : String} {prepared : PreparedOrder} {result : OrderResult}
    (h : finish digests request arguments operationId prepared = .ok result) :
    result.request = request ∧ result.AccountedOn arguments.portfolio := by
  obtain ⟨fills, -, h⟩ := Checks.bind_eq_ok.mp h
  split at h
  · split at h
    · exact rejected_accountedOn h
    · cases h
  next updated entry accounting hbooked =>
    obtain ⟨audit, -, h⟩ := Checks.bind_eq_ok.mp h
    rw [OrderResult.make_eq_ok_iff.mp h]
    exact ⟨rfl, .filled hbooked rfl rfl rfl⟩

theorem executeContext_accountedOn {request : OrderRequest} {arguments : ExecutionArguments}
    {context : MarketContext} {operationId : String} {result : OrderResult}
    (h : broker.executeContext digests request arguments context operationId = .ok result) :
    result.request = request ∧ result.AccountedOn arguments.portfolio := by
  unfold executeContext at h
  split at h
  · exact rejected_accountedOn h
  · cases h
  · exact finish_accountedOn digests h

end BinaryPaperBroker

/-- Remembering a result returns it. -/
@[simp]
theorem BrokerState.remember_snd (state : BrokerState) (key : String × String)
    (result : Except Raised OrderResult) : (state.remember key result).2 = result := by
  cases result <;> rfl

namespace BinaryPaperBroker

variable (broker : BinaryPaperBroker) (digests : Digests)

/-- The result of an order that is new is accounted for on the portfolio given. -/
theorem execute_accountedOn {state : BrokerState} {request : OrderRequest}
    {arguments : ExecutionArguments} {result : OrderResult}
    (hnew : state.result (request.agentId, request.idempotencyKey) = none)
    (h : (broker.execute digests state request arguments).2 = .ok result) :
    result.request = request ∧ result.AccountedOn arguments.portfolio := by
  unfold execute at h
  simp only [hnew] at h
  split at h
  · cases h
  · split at h
    · rw [BrokerState.remember_snd] at h
      exact rejected_accountedOn h
    · split at h
      · rw [BrokerState.remember_snd] at h
        exact broker.executeContext_accountedOn digests h
      · split at h
        next pending hpending =>
          cases h
          exact pendingResult_accountedOn hpending
        next => cases h

/-- An execution of a new order leaves the portfolio as it is, or moves it by the
fills of its result. -/
theorem execute_moves_or_leaves {state : BrokerState} {request : OrderRequest}
    {arguments : ExecutionArguments} {result : OrderResult}
    (hnew : state.result (request.agentId, request.idempotencyKey) = none)
    (h : (broker.execute digests state request arguments).2 = .ok result) :
    (result.fills = [] → result.portfolioAfter = some arguments.portfolio ∧
      result.ledgerEntries = []) ∧
    (result.fills ≠ [] → result.filledUnits = (result.fills.map fun fill => fill.contractUnits).sum ∧
      ∃ after entry, result.portfolioAfter = some after ∧ result.ledgerEntries = [entry] ∧
        FillsMove arguments.portfolio request result.fills after entry) := by
  obtain ⟨hrequest, haccounted⟩ := broker.execute_accountedOn digests hnew h
  cases haccounted with
  | unfilled hfills hbefore hafter hentries =>
      exact ⟨fun _ => ⟨hafter, hentries⟩, fun hsome => absurd hfills hsome⟩
  | filled hbooked hbefore hafter hentries =>
      obtain ⟨loop, -, hbooked⟩ := applyOrderFills_spec hbooked
      rw [hrequest] at hbooked
      exact ⟨fun hnone => absurd hnone hbooked.fills_ne_nil,
        fun _ => ⟨result.accounts.filled, _, _, hafter, hentries, hbooked.fillsMove⟩⟩

end BinaryPaperBroker

/-- A purchase that fills moves the portfolio by its fills. -/
theorem execute_moves_purchase :
    ∃ result after entry,
      (Sample.broker.execute Sample.digests .empty Sample.purchase
        (Sample.arguments Sample.portfolio false)).2 = .ok result ∧
      result.portfolioAfter = some after ∧
      FillsMove Sample.portfolio Sample.purchase result.fills after entry := by
  obtain ⟨result, hresult, htest⟩ := Checks.exists_ok_of_any
    (Sample.broker.execute Sample.digests .empty Sample.purchase
      (Sample.arguments Sample.portfolio false)).2
    (fun result => result.fills ≠ []) (by decide +kernel)
  obtain ⟨-, after, entry, hafter, -, hmoves⟩ :=
    (Sample.broker.execute_moves_or_leaves Sample.digests rfl hresult).2 (of_decide_eq_true htest)
  exact ⟨result, after, entry, hresult, hafter, hmoves⟩

end VTrade
