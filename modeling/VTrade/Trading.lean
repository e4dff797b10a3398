/-
# Runs of orders and settlements

An agent's portfolio changes by accepted orders and by successful settlements
only.  Along a run, with every entry kept, the portfolio is the account of what
the entries state: what was put in is still there, in cash, in what the
positions carry, or as realized result.

A settlement that the engine answers from memory emits the remembered entry once
more and puts the remembered portfolio in the place of the current one, so the
runs that keep the books are those whose settlements are first ones.
-/

import VTrade.Replay
import VTrade.SettlementIdentity

namespace VTrade

/-- The contract units an entry posts for a position. -/
def unitsPosted (entry : LedgerEntry) (key : PositionKey) : ℤ :=
  ((entry.postings.filter fun posting => posting.positionKey = some key).map
    fun posting => posting.contractUnitsDelta.getD 0).sum

/-- The position cost an entry posts for a position. -/
def costPosted (entry : LedgerEntry) (key : PositionKey) : ℤ :=
  dimensionAmount entry .positionCost key

section Posts

variable {entry : LedgerEntry} {movement : Books.Movement PositionKey} {expense : ℤ}

theorem unitsPosted_of_posts (h : entry.Posts (postingsOf movement expense)) (key : PositionKey) :
    unitsPosted entry key = if movement.key = key then movement.holding.units else 0 := by
  have hsum := entry.sum_filter_eq_total (fun posting => posting.positionKey = some key)
    fun posting => posting.contractUnitsDelta.getD 0
  rw [h.total_eq] at hsum
  refine hsum.trans ?_
  unfold postingsOf
  by_cases hfees : movement.fees + expense = 0 <;>
    by_cases hresult : movement.realized + expense = 0 <;>
    simp [hfees, hresult, PostingFields.ofCash, PostingFields.ofCost, PostingFields.ofFees,
      PostingFields.ofResult, PostingFields.positionKey, Books.Movement.holding]

theorem costPosted_of_posts (h : entry.Posts (postingsOf movement expense)) (key : PositionKey) :
    costPosted entry key = if movement.key = key then movement.holding.basis else 0 := by
  have hsum := entry.sum_filter_eq_total
    (fun posting => posting.account = .positionCost ∧ posting.positionKey = some key)
    fun posting => posting.amountMicros
  rw [h.total_eq] at hsum
  refine hsum.trans ?_
  unfold postingsOf
  by_cases hfees : movement.fees + expense = 0 <;>
    by_cases hresult : movement.realized + expense = 0 <;>
    simp [hfees, hresult, PostingFields.ofCash, PostingFields.ofCost, PostingFields.ofFees,
      PostingFields.ofResult, PostingFields.positionKey, Books.Movement.holding]

end Posts

/-! ## Runs -/

/-- What happens to a portfolio. -/
inductive TradingAction
  | order (order : FilledOrder)
  | settle (observation : ResolutionObservation) (position : ContractPosition)
      (asOf settledAt : Datetime)
  /-- The process starts again, with an engine that remembers nothing. -/
  | restart

/-- The settlement engine, the portfolio, and every entry emitted so far. -/
structure TradingState extends Bookkeeping where
  engine : BinarySettlementEngine

/-- One accepted order or successful settlement. -/
def tradingStep (state : TradingState) : TradingAction → Except Raised TradingState
  | .order order => do
      let books ← bookOrder state.toBookkeeping order
      .ok { books with engine := state.engine }
  | .settle observation position asOf settledAt =>
      let call := state.engine.settle observation position state.portfolio asOf settledAt
      match call.2 with
      | .ok (updated, record) => .ok {
          portfolio := updated
          entries := state.entries ++ [record.ledgerEntry]
          engine := call.1 }
      | .error error => .error error
  | .restart => .ok { state with engine := .empty }

/-- A settlement of which the engine remembers nothing under its agent, market
and settlement time. -/
def FirstSettlement (state : TradingState) : TradingAction → Prop
  | .settle observation position _ _ => ∀ settlementTs ∈ observation.settlementTs,
      state.engine.stored
        (settlementKey state.portfolio.agentId position.marketRef settlementTs) = none
  | _ => True

instance (state : TradingState) (action : TradingAction) :
    Decidable (FirstSettlement state action) :=
  match action with
  | .settle _ _ _ _ => inferInstanceAs (Decidable (∀ _ ∈ _, _))
  | .order _ => isTrue trivial
  | .restart => isTrue trivial

/-- The double-entry conservation law of a portfolio and the entries that led to
it from an initial one. -/
structure Conserved (initial : ContractPortfolio) (state : TradingState) : Prop where
  equity : state.portfolio.cashMicros +
      (state.portfolio.positions.map fun position =>
        position.grossCostBasisMicros + position.entryFeesMicros).sum -
      state.portfolio.realizedPnlMicros = initial.cashMicros - initial.realizedPnlMicros
  cash : state.portfolio.cashMicros = initial.cashMicros + (state.entries.map cashPosted).sum
  units : ∀ key, ((state.portfolio.position key).elim 0 fun position => position.contractUnits) =
    (state.entries.map fun entry => unitsPosted entry key).sum
  cost : ∀ key,
    ((state.portfolio.position key).elim 0 fun position => position.grossCostBasisMicros) =
      (state.entries.map fun entry => costPosted entry key).sum
  nonneg : ∀ position ∈ state.portfolio.positions, 0 ≤ position.contractUnits ∧
    0 ≤ position.grossCostBasisMicros ∧ 0 ≤ position.entryFeesMicros
  balanced : ∀ entry ∈ state.entries,
    (entry.postings.map fun posting => posting.amountMicros).sum = 0

/-- The entries state movements that lead from the initial account to the
current one. -/
structure Tracked (initial : ContractPortfolio) (state : TradingState) : Prop where
  allOpen : state.portfolio.AllOpen
  stated : ∃ movements : List (Books.Movement PositionKey),
    List.Forall₂ (fun (entry : LedgerEntry) movement =>
      ∃ expense, entry.Posts (postingsOf movement expense)) state.entries movements ∧
    state.portfolio.account = initial.account.postAll movements

theorem Tracked.snoc {initial : ContractPortfolio} {state next : TradingState}
    {entry : LedgerEntry} {movement : Books.Movement PositionKey} {expense : ℤ}
    (h : Tracked initial state) (hentries : next.entries = state.entries ++ [entry])
    (hposts : entry.Posts (postingsOf movement expense)) (hopen : next.portfolio.AllOpen)
    (haccount : next.portfolio.account = state.portfolio.account.post movement) :
    Tracked initial next := by
  obtain ⟨movements, hstated, hbefore⟩ := h.stated
  refine ⟨hopen, movements ++ [movement], ?_, ?_⟩
  · rw [hentries]
    exact List.rel_append hstated (.cons ⟨expense, hposts⟩ .nil)
  · rw [Books.Account.postAll_append, haccount, hbefore]

/-- A step with a first settlement keeps track. -/
theorem Tracked.step {initial : ContractPortfolio} {state next : TradingState}
    {action : TradingAction} (h : Tracked initial state) (hfirst : FirstSettlement state action)
    (hstep : tradingStep state action = .ok next) : Tracked initial next := by
  cases action with
  | order order =>
      obtain ⟨books, hbooks, hnext⟩ := Checks.bind_eq_ok.mp hstep
      cases hnext
      obtain ⟨entry, loop, hentries, hbooked⟩ := bookOrder_spec hbooks
      exact h.snoc hentries hbooked.posts_movement (hbooked.allOpen h.allOpen)
        (hbooked.account h.allOpen)
  | settle observation position asOf settledAt =>
      unfold tradingStep at hstep
      dsimp only at hstep
      generalize hcall : state.engine.settle observation position state.portfolio asOf
        settledAt = call at hstep
      obtain ⟨engine, outcome⟩ := call
      cases outcome with
      | error error => cases hstep
      | ok settled =>
          cases hstep
          obtain ⟨result, settlementTs, -, hts, -, hposition, ⟨hstored, -⟩ | ⟨-, hbooked, -⟩⟩ :=
            state.engine.settle_spec hcall
          · rw [hfirst settlementTs hts] at hstored
            cases hstored
          · have hsettled := bookSettlement_spec hbooked
            exact h.snoc rfl hsettled.posts_movement (hsettled.allOpen h.allOpen)
              (hsettled.account hposition)
  | restart =>
      cases hstep
      exact ⟨h.allOpen, h.stated⟩

/-- Entries that state movements sum to what the movements do. -/
theorem sum_posted_of_stated {entries : List LedgerEntry}
    {movements : List (Books.Movement PositionKey)}
    (h : List.Forall₂ (fun (entry : LedgerEntry) movement =>
      ∃ expense, entry.Posts (postingsOf movement expense)) entries movements)
    {posted : LedgerEntry → ℤ} {moved : Books.Movement PositionKey → ℤ}
    (hposted : ∀ {entry movement expense}, entry.Posts (postingsOf movement expense) →
      posted entry = moved movement) :
    (entries.map posted).sum = (movements.map moved).sum := by
  induction h with
  | nil => rfl
  | cons hfirst _ ih =>
      obtain ⟨expense, hfirst⟩ := hfirst
      rw [List.map_cons, List.map_cons, List.sum_cons, List.sum_cons, ih, hposted hfirst]

theorem imbalance_of_stated {entries : List LedgerEntry}
    {movements : List (Books.Movement PositionKey)}
    (h : List.Forall₂ (fun (entry : LedgerEntry) movement =>
      ∃ expense, entry.Posts (postingsOf movement expense)) entries movements) :
    ∀ movement ∈ movements, movement.imbalance = 0 := by
  induction h with
  | nil => simp
  | cons hfirst _ ih =>
      obtain ⟨expense, hfirst⟩ := hfirst
      simp only [List.forall_mem_cons]
      exact ⟨imbalance_eq_zero_of_posts hfirst, ih⟩

/-- A tracked portfolio conserves what was put in. -/
theorem Tracked.conserved {initial : ContractPortfolio} {state : TradingState}
    (h : Tracked initial state) (hempty : initial.positions = []) : Conserved initial state := by
  obtain ⟨movements, hstated, haccount⟩ := h.stated
  have hnone (key : PositionKey) : initial.account.holding key = 0 := by
    rw [ContractPortfolio.account_holding, ContractPortfolio.position, hempty]
    rfl
  have hholding (key : PositionKey) : (state.portfolio.position key).elim 0
      ContractPosition.holding = (initial.account.postAll movements).holding key := by
    rw [← haccount, ContractPortfolio.account_holding]
  refine {
    equity := ?_
    cash := ?_
    units := fun key => ?_
    cost := fun key => ?_
    nonneg := fun position _ => ⟨position.contractUnits_nonneg,
      position.grossCostBasisMicros_nonneg, position.entryFeesMicros_nonneg⟩
    balanced := fun entry _ => entry.balanced }
  · rw [← ContractPortfolio.account_equity, haccount,
      Books.Account.equity_postAll _ _ (imbalance_of_stated hstated),
      ContractPortfolio.account_equity, hempty]
    simp
  · have hcash := Books.Account.cash_postAll initial.account movements
    rw [← haccount] at hcash
    rw [sum_posted_of_stated hstated cashPosted_of_posts]
    exact hcash
  · have hpart := Books.Account.part_postAll initial.account movements key Books.Holding.units
      Books.Holding.add_units Books.Holding.closeOut_units
    rw [← hholding, hnone] at hpart
    rw [sum_posted_of_stated hstated (fun hposts => unitsPosted_of_posts hposts key)]
    simp only [Books.Holding.zero_units, zero_add] at hpart
    rw [← hpart]
    cases state.portfolio.position key <;> rfl
  · have hpart := Books.Account.part_postAll initial.account movements key Books.Holding.basis
      Books.Holding.add_basis Books.Holding.closeOut_basis
    rw [← hholding, hnone] at hpart
    rw [sum_posted_of_stated hstated (fun hposts => costPosted_of_posts hposts key)]
    simp only [Books.Holding.zero_basis, zero_add] at hpart
    rw [← hpart]
    cases state.portfolio.position key <;> rfl

/-- A run whose settlements are first ones conserves what was put in. -/
theorem trading_conserved {initial : ContractPortfolio} {engine : BinarySettlementEngine}
    {actions : List TradingAction} {state : TradingState} (hempty : initial.positions = [])
    (hrun : actions.foldlM tradingStep ⟨⟨initial, []⟩, engine⟩ = .ok state)
    (hfirst : Checks.Along tradingStep FirstSettlement ⟨⟨initial, []⟩, engine⟩ actions) :
    Conserved initial state := by
  have htracked := Checks.foldlM_invariant_along (fun _ => Tracked initial) []
    (fun _ _ _ _ hcondition hbefore hstep => hbefore.step hcondition hstep) hfirst hrun
    ⟨by simp [ContractPortfolio.AllOpen, hempty], [], .nil, rfl⟩
  exact htracked.conserved hempty

namespace Sample

/-- A hundred units bought and settled. -/
def settledOnce : List TradingAction :=
  [.order (order (market, .yes) .buy 100 4000 400000 100 "yes" hundred_pos (by decide)),
    .settle (observation market .yes) (position market .yes 400000 yesCost_nonneg) moment moment]

/-- Both outcomes bought, the winner settled, another market bought, and then the
loser settled. -/
def settledTwice : List TradingAction :=
  [.order (order (market, .yes) .buy 100 4000 400000 100 "yes" hundred_pos (by decide)),
    .order (order (market, .no) .buy 100 5000 500000 100 "no" hundred_pos (by decide)),
    .settle (observation market .yes) (position market .yes 400000 yesCost_nonneg) moment moment,
    .order (order (otherMarket, .yes) .buy 100 4000 400000 100 "other" hundred_pos (by decide)),
    .settle (observation market .yes) (position market .no 500000 noCost_nonneg) moment moment]

end Sample

set_option maxRecDepth 10000 in
theorem trading_conserved_settledOnce :
    ∃ state, Sample.settledOnce.foldlM tradingStep ⟨⟨Sample.portfolio, []⟩, .empty⟩ = .ok state ∧
      Conserved Sample.portfolio state := by
  obtain ⟨state, hrun, -⟩ := Checks.exists_ok_of_any
    (Sample.settledOnce.foldlM tradingStep ⟨⟨Sample.portfolio, []⟩, .empty⟩)
    (fun _ => true) (by decide)
  exact ⟨state, hrun, trading_conserved rfl hrun (by decide)⟩

set_option maxRecDepth 10000 in
/-- The second settlement is answered from memory and undoes the purchase. -/
theorem trading_not_conserved_settledTwice :
    ∃ state, Sample.settledTwice.foldlM tradingStep ⟨⟨Sample.portfolio, []⟩, .empty⟩ = .ok state ∧
      ¬ Conserved Sample.portfolio state := by
  obtain ⟨state, hrun, htest⟩ := Checks.exists_ok_of_any
    (Sample.settledTwice.foldlM tradingStep ⟨⟨Sample.portfolio, []⟩, .empty⟩)
    (fun state => (state.portfolio.position (Sample.otherMarket, .yes)).isNone ∧
      (state.entries.map fun entry => unitsPosted entry (Sample.otherMarket, .yes)).sum = 100)
    (by decide)
  obtain ⟨hgone, hposted⟩ := of_decide_eq_true htest
  refine ⟨state, hrun, fun hconserved => ?_⟩
  have hunits := hconserved.units (Sample.otherMarket, .yes)
  rw [Option.isNone_iff_eq_none.mp hgone, hposted] at hunits
  cases hunits

end VTrade
