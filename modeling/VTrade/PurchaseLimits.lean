/-
# What purchases may spend

A purchase that fills is within cash, fees included, and leaves its market within the
limit of the account value that it was measured by.  What it costs is what is added to
the cost basis of its market, whichever outcome it buys, so that the purchases of a run
add up to the exposure that the next one is checked with.
-/

import VTrade.ExecutionEffect
import VTrade.FillRecording

namespace VTrade

/-! ## The cost basis of a market -/

/-- What positions cost that are about one market. -/
theorem sum_marketBasis {positions : List ContractPosition}
    (h : (positions.map ContractPosition.key).Nodup) (marketRef : MarketKey) :
    ((positions.filter fun position => position.marketRef = marketRef).map
        fun position => position.grossCostBasisMicros).sum =
      ((KeyedList.lookup ContractPosition.key (marketRef, .yes) positions).elim 0
          fun position => position.grossCostBasisMicros) +
        (KeyedList.lookup ContractPosition.key (marketRef, .no) positions).elim 0
          fun position => position.grossCostBasisMicros := by
  induction positions with
  | nil => rfl
  | cons position rest ih =>
      rw [List.map_cons, List.nodup_cons] at h
      have hrest := ih h.2
      have hnone : KeyedList.lookup ContractPosition.key position.key rest = none := by
        rw [KeyedList.lookup_eq_none_iff]
        intro other hmem hkey
        exact h.1 (hkey ▸ List.mem_map_of_mem hmem)
      by_cases hmarket : position.marketRef = marketRef
      · rw [List.filter_cons_of_pos (by simpa using hmarket), List.map_cons, List.sum_cons, hrest,
          KeyedList.lookup_cons, KeyedList.lookup_cons]
        cases houtcome : position.outcome with
        | yes =>
            have hkey : position.key = (marketRef, .yes) := Prod.ext hmarket houtcome
            rw [hkey] at hnone
            rw [hkey, if_pos rfl, if_neg (by simp), hnone]
            exact (add_assoc _ _ _).symm.trans (by simp)
        | no =>
            have hkey : position.key = (marketRef, .no) := Prod.ext hmarket houtcome
            rw [hkey] at hnone
            rw [hkey, if_neg (by simp), if_pos rfl, hnone]
            exact (add_left_comm _ _ _).trans (by simp)
      · have hother (outcome : OutcomeSide) : position.key ≠ (marketRef, outcome) :=
          fun hkey => hmarket (congrArg Prod.fst hkey)
        rw [List.filter_cons_of_neg (by simpa using hmarket), hrest, KeyedList.lookup_cons,
          KeyedList.lookup_cons, if_neg (hother .yes), if_neg (hother .no)]

namespace ContractPortfolio

/-- The cost basis of a market is that of its two outcomes. -/
theorem marketCostBasisMicros_eq (portfolio : ContractPortfolio) (marketRef : MarketKey) :
    portfolio.marketCostBasisMicros marketRef =
      (portfolio.account.holding (marketRef, .yes)).basis +
        (portfolio.account.holding (marketRef, .no)).basis := by
  have hbasis (key : PositionKey) : ((portfolio.position key).elim 0
      fun position => position.grossCostBasisMicros) = (portfolio.account.holding key).basis := by
    rw [portfolio.account_holding]
    cases portfolio.position key with
    | none => rfl
    | some position => rfl
  rw [← hbasis, ← hbasis]
  exact sum_marketBasis portfolio.unique_keys marketRef

/-- When the holding of one key changes, so does the cost basis of its market, and that of no
other one. -/
theorem marketCostBasisMicros_of_moved {portfolio after : ContractPortfolio} {key : PositionKey}
    {amount : ℤ}
    (hmoved : (after.account.holding key).basis = (portfolio.account.holding key).basis + amount)
    (hothers : ∀ other ≠ key, after.position other = portfolio.position other)
    (marketRef : MarketKey) :
    after.marketCostBasisMicros marketRef =
      portfolio.marketCostBasisMicros marketRef + if marketRef = key.1 then amount else 0 := by
  have hkept : ∀ other ≠ key, (after.account.holding other).basis =
      (portfolio.account.holding other).basis := by
    intro other hother
    rw [after.account_holding, portfolio.account_holding, hothers other hother]
  rw [after.marketCostBasisMicros_eq, portfolio.marketCostBasisMicros_eq]
  obtain ⟨market, outcome⟩ := key
  by_cases hmarket : marketRef = market
  · subst hmarket
    rw [if_pos rfl]
    cases outcome with
    | yes =>
        rw [hmoved, hkept (marketRef, .no) (by simp)]
        ring
    | no =>
        rw [hmoved, hkept (marketRef, .yes) (by simp)]
        ring
  · rw [if_neg hmarket, hkept (marketRef, .yes) (fun hkey => hmarket (congrArg Prod.fst hkey)),
      hkept (marketRef, .no) (fun hkey => hmarket (congrArg Prod.fst hkey)), add_zero]

end ContractPortfolio

/-- An accepted order adds to the basis of its position what its loop moves. -/
theorem OrderBooked.basis {portfolio after : ContractPortfolio} {request : OrderRequest}
    {fills : List EconomicFill} {operationId : String} {occurredAt : Datetime}
    {entry : LedgerEntry} {loop : FillLoop}
    (h : OrderBooked portfolio request fills operationId occurredAt after entry loop) :
    (after.account.holding request.positionKey).basis =
      (portfolio.account.holding request.positionKey).basis + (loop.movement request).basis := by
  have hloop : (loop.working.account.holding request.positionKey).basis =
      (portfolio.account.holding request.positionKey).basis + (loop.movement request).basis := by
    apply Checks.foldlM_invariant (fun _ (loop : FillLoop) =>
      (loop.working.account.holding request.positionKey).basis =
        (portfolio.account.holding request.positionKey).basis +
          (loop.movement request).basis) [] _ h.run
    · rw [FillLoop.start_movement]
      exact (add_zero _).symm
    · intro seen loop fill next _ hloop hstep
      obtain ⟨item, movement, hstep⟩ := exists_fillStep hstep
      rw [hstep.account, ← hstep.movement_key, Books.Account.holding_post_self,
        Books.Holding.closeOut_basis, Books.Holding.add_basis, hstep.movement_key, hloop,
        hstep.movement_eq]
      exact add_assoc _ _ _
  rw [← hloop, after.account_holding, loop.working.account_holding, ContractPortfolio.position,
    ContractPortfolio.position, KeyedList.lookup_eq_of_perm h.positions after.unique_keys]

/-! ## One purchase -/

namespace OrderResultFields

variable (result : OrderResultFields)

/-- What the fills of a result are worth. -/
def grossCost : ℤ := (result.fills.map fun fill => fill.grossCashMicros).sum

/-- What the fills of a result are charged. -/
def charges : ℤ := (result.fills.map fun fill => fill.feeMicros).sum

end OrderResultFields

/-- A purchase within limits: cash pays for its fills and their fees, and the cost basis of
its market, together with what it costs, is within the limit of the account value that the
purchase is measured by.  Its cost is added to the cost basis of its market. -/
structure BinaryPaperBroker.WithinLimits (broker : BinaryPaperBroker)
    (arguments : ExecutionArguments) (result : OrderResultFields) (after : ContractPortfolio) :
    Prop where
  cash : after.cashMicros = arguments.portfolio.cashMicros - (result.grossCost + result.charges)
  cash_nonneg : 0 ≤ after.cashMicros
  concentration : ∃ accountValue, arguments.accountValue = .ok accountValue ∧
    (arguments.portfolio.marketCostBasisMicros result.request.marketRef + result.grossCost) *
        broker.maximumMarketConcentrationDenominator ≤
      accountValue * broker.maximumMarketConcentrationNumerator
  basis : ∀ marketRef, after.marketCostBasisMicros marketRef =
    arguments.portfolio.marketCostBasisMicros marketRef +
      if marketRef = result.request.marketRef then result.grossCost else 0

namespace BinaryPaperBroker

variable (broker : BinaryPaperBroker) (digests : Digests)

/-- A new purchase that fills is within limits. -/
theorem execute_withinLimits {state : BrokerState} {request : OrderRequest}
    {arguments : ExecutionArguments} {result : OrderResult} (hbuy : request.action = .buy)
    (hnew : state.result (request.agentId, request.idempotencyKey) = none)
    (h : (broker.execute digests state request arguments).2 = .ok result)
    (hfills : result.fills ≠ []) :
    ∃ after, result.portfolioAfter = some after ∧
      broker.WithinLimits arguments result.toOrderResultFields after := by
  obtain ⟨context, prepared, -, hmade⟩ := broker.execute_madeOn digests hnew h hfills
  obtain ⟨hrequest, haccounted⟩ := broker.execute_accountedOn digests hnew h
  obtain ⟨levels, hsound⟩ := hmade.prepares.plans.sound
  obtain ⟨fills, hmadeFills, hagree⟩ := brokerFills_isOk digests request arguments.now prepared 0
    (digests.operationUuid_not_isBlank request.agentId request.idempotencyKey)
    hsound.plansFrom.chargeable hsound.fees
  obtain rfl : fills = result.fills := by
    have hmade' := hmade.fills_made
    rw [hmade.operationId_eq, hmadeFills] at hmade'
    exact Except.ok.inj hmade'
  have hgross : result.grossCost = grossTotal prepared.calculations := by
    unfold OrderResultFields.grossCost
    rw [hagree.gross]
    rfl
  obtain ⟨-, accountValue, haccountValue, -, hlimit⟩ := hmade.prepares.funded hbuy
  cases haccounted with
  | unfilled hnone => exact absurd hnone hfills
  | filled hbooked hbefore hafter hentries =>
      obtain ⟨loop, -, hbooked⟩ := applyOrderFills_spec hbooked
      have hmoves := hbooked.fillsMove
      have hbuy' : result.request.action = .buy := by rw [hrequest, hbuy]
      have hspent : (result.fills.map fun fill => fill.netCashDeltaMicros).sum =
          -(result.grossCost + result.charges) := by
        rw [hagree.adds_up, OrderResultFields.grossCost, OrderResultFields.charges]
        induction result.fills with
        | nil => rfl
        | cons fill fills ih =>
            simp only [List.map_cons, List.sum_cons, ih, brokerCashDelta, hbuy]
            ring
      refine ⟨_, hafter, ⟨?_, ContractPortfolio.cashMicros_nonneg _, ?_, ?_⟩⟩
      · rw [hmoves.cash, hspent]
        exact (sub_eq_add_neg _ _).symm
      · refine ⟨accountValue, haccountValue, ?_⟩
        rw [hgross, hrequest]
        exact hlimit
      · have hbasis := hbooked.basis
        rw [hbooked.loopTotals.buy_basis hbuy'] at hbasis
        exact ContractPortfolio.marketCostBasisMicros_of_moved hbasis hmoves.others

/-! ## Runs of purchases -/

end BinaryPaperBroker

/-- A broker, the portfolio that its orders have led to, and the results that have moved it. -/
structure Bookings where
  broker : BrokerState
  portfolio : ContractPortfolio
  booked : List OrderResult

namespace BinaryPaperBroker

variable (broker : BinaryPaperBroker) (digests : Digests)

/-- Execute an order on the portfolio that there is, and go on with the one it leaves.  An
order that is known already is answered with its result and leaves the portfolio. -/
def book (state : Bookings) (order : OrderRequest × ExecutionArguments) :
    Bookings × Except Raised OrderResult :=
  let reached := broker.execute digests state.broker order.1
    { order.2 with portfolio := state.portfolio }
  match state.broker.result (order.1.agentId, order.1.idempotencyKey), reached.2 with
  | none, .ok result =>
      (⟨reached.1, result.portfolioAfter.getD state.portfolio, state.booked ++ [result]⟩, reached.2)
  | _, _ => ({ state with broker := reached.1 }, reached.2)

/-- What an order does to a portfolio: a new purchase that fills is within limits, and any other
answer leaves the portfolio; an order that is known is answered with the result that is known
for it, or without fills. -/
structure Purchases (state : Bookings) (order : OrderRequest × ExecutionArguments)
    (reached : Bookings × Except Raised OrderResult) : Prop where
  limits : ∀ result, state.broker.result (order.1.agentId, order.1.idempotencyKey) = none →
    reached.2 = .ok result → result.fills ≠ [] →
      broker.WithinLimits { order.2 with portfolio := state.portfolio } result.toOrderResultFields
        reached.1.portfolio
  unmoved : (∀ result, reached.2 = .ok result → result.fills = [] ∨
      (state.broker.result (order.1.agentId, order.1.idempotencyKey)).isSome = true) →
    reached.1.portfolio = state.portfolio
  known : ∀ existing result,
    state.broker.result (order.1.agentId, order.1.idempotencyKey) = some existing →
      reached.2 = .ok result → result = existing ∨ result.fills = []

/-- The results that have moved the portfolio account for all of it. -/
structure Booked (start state : Bookings) (later : List OrderResult) : Prop where
  booked : state.booked = start.booked ++ later
  cash : state.portfolio.cashMicros = start.portfolio.cashMicros -
    (later.map fun result => result.grossCost + result.charges).sum
  basis : ∀ marketRef, state.portfolio.marketCostBasisMicros marketRef =
    start.portfolio.marketCostBasisMicros marketRef +
      ((later.filter fun result => result.request.marketRef = marketRef).map
        fun result => result.grossCost).sum

/-- An order that is new moves the portfolio to the one that its result leaves. -/
theorem book_of_new {state : Bookings} {order : OrderRequest × ExecutionArguments}
    (hnew : state.broker.result (order.1.agentId, order.1.idempotencyKey) = none) {result : OrderResult}
    (h : (broker.book digests state order).2 = .ok result) :
    (broker.execute digests state.broker order.1
        { order.2 with portfolio := state.portfolio }).2 = .ok result ∧
      (broker.book digests state order).1.portfolio =
        result.portfolioAfter.getD state.portfolio ∧
      (broker.book digests state order).1.booked = state.booked ++ [result] := by
  unfold book at h ⊢
  dsimp only at h ⊢
  cases hreached : (broker.execute digests state.broker order.1
      { order.2 with portfolio := state.portfolio }).2 with
  | error error =>
      rw [hnew, hreached] at h
      cases h
  | ok other =>
      rw [hnew, hreached] at h
      cases h
      rw [hnew]
      exact ⟨rfl, rfl, rfl⟩

/-- An order that is known, or that raises, leaves the portfolio. -/
theorem book_unmoved {state : Bookings} {order : OrderRequest × ExecutionArguments}
    (h : (state.broker.result (order.1.agentId, order.1.idempotencyKey)).isSome = true ∨
      ∃ error, (broker.book digests state order).2 = .error error) :
    (broker.book digests state order).1.portfolio = state.portfolio ∧
      (broker.book digests state order).1.booked = state.booked := by
  unfold book at h ⊢
  dsimp only at h ⊢
  cases hknown : state.broker.result (order.1.agentId, order.1.idempotencyKey) with
  | some existing => exact ⟨rfl, rfl⟩
  | none =>
      cases hreached : (broker.execute digests state.broker order.1
          { order.2 with portfolio := state.portfolio }).2 with
      | error error => exact ⟨rfl, rfl⟩
      | ok result =>
          rw [hknown, hreached] at h
          obtain ⟨⟨⟩⟩ | ⟨error, ⟨⟩⟩ := h

theorem book_answer {state : Bookings} {order : OrderRequest × ExecutionArguments} :
    (broker.book digests state order).2 = (broker.execute digests state.broker order.1
      { order.2 with portfolio := state.portfolio }).2 := by
  unfold book
  dsimp only
  split
  · rfl
  · rfl

/-- Every purchase keeps to the limits. -/
theorem book_purchases {state : Bookings} {order : OrderRequest × ExecutionArguments}
    (hbuy : order.1.action = .buy) :
    broker.Purchases state order (broker.book digests state order) := by
  constructor
  case limits =>
    intro result hnew hanswer hfills
    obtain ⟨hexecuted, hportfolio, -⟩ := broker.book_of_new digests hnew hanswer
    obtain ⟨after, hafter, hlimits⟩ :=
      broker.execute_withinLimits digests hbuy hnew hexecuted hfills
    rw [hportfolio, hafter]
    exact hlimits
  case unmoved =>
    intro hcase
    cases hknown : state.broker.result (order.1.agentId, order.1.idempotencyKey) with
    | some existing => exact (broker.book_unmoved digests (Or.inl (by rw [hknown]; rfl))).1
    | none =>
        cases hanswer : (broker.book digests state order).2 with
        | error error => exact (broker.book_unmoved digests (Or.inr ⟨error, hanswer⟩)).1
        | ok result =>
            obtain ⟨hexecuted, hportfolio, -⟩ := broker.book_of_new digests hknown hanswer
            obtain ⟨hunfilled, -⟩ := broker.execute_moves_or_leaves digests hknown hexecuted
            rcases hcase result hanswer with hfills | hsome
            · rw [hportfolio, (hunfilled hfills).1]
              rfl
            · rw [hknown] at hsome
              cases hsome
  case known =>
    intro existing result hknown hanswer
    rw [book_answer] at hanswer
    obtain ⟨-, hcase⟩ := broker.execute_known digests
      { order.2 with portfolio := state.portfolio } hknown
    rcases hcase with ⟨-, error, herror⟩ | ⟨-, -, hsame⟩ | ⟨-, -, hrejected⟩
    · rw [herror] at hanswer
      cases hanswer
    · rw [hsame] at hanswer
      exact Or.inl (Except.ok.inj hanswer).symm
    · rw [hrejected] at hanswer
      exact Or.inr (conflicts_of_rejected hanswer).fills

/-- Every purchase keeps the portfolio accounted for by the results that have moved it. -/
theorem Booked.step {start state : Bookings} {later : List OrderResult}
    (h : Booked start state later) {order : OrderRequest × ExecutionArguments}
    (hbuy : order.1.action = .buy) :
    ∃ more, Booked start (broker.book digests state order).1 (later ++ more) := by
  have hpurchases := @book_purchases broker digests state order hbuy
  have hunmoved (hportfolio : (broker.book digests state order).1.portfolio = state.portfolio)
      (hbooked : (broker.book digests state order).1.booked = state.booked) :
      Booked start (broker.book digests state order).1 (later ++ []) := by
    rw [List.append_nil]
    refine ⟨hbooked.trans h.booked, ?_, ?_⟩
    · rw [hportfolio, h.cash]
    · intro marketRef
      rw [hportfolio, h.basis]
  cases hknown : state.broker.result (order.1.agentId, order.1.idempotencyKey) with
  | some existing =>
      obtain ⟨hportfolio, hbooked⟩ :=
        broker.book_unmoved digests (Or.inl (show _ = true by rw [hknown]; rfl))
      exact ⟨[], hunmoved hportfolio hbooked⟩
  | none =>
      cases hanswer : (broker.book digests state order).2 with
      | error error =>
          obtain ⟨hportfolio, hbooked⟩ := broker.book_unmoved digests (Or.inr ⟨error, hanswer⟩)
          exact ⟨[], hunmoved hportfolio hbooked⟩
      | ok result =>
          obtain ⟨-, -, hbooked⟩ := broker.book_of_new digests hknown hanswer
          have hmoved : (broker.book digests state order).1.portfolio.cashMicros =
                state.portfolio.cashMicros - (result.grossCost + result.charges) ∧
              ∀ marketRef, (broker.book digests state order).1.portfolio.marketCostBasisMicros
                marketRef = state.portfolio.marketCostBasisMicros marketRef +
                  if marketRef = result.request.marketRef then result.grossCost else 0 := by
            by_cases hfills : result.fills = []
            · rw [hpurchases.unmoved (fun other hother => Or.inl (by
                rw [hanswer] at hother
                rw [← Except.ok.inj hother, hfills]))]
              simp [OrderResultFields.grossCost, OrderResultFields.charges, hfills]
            · have hlimits := hpurchases.limits result hknown hanswer hfills
              exact ⟨hlimits.cash, hlimits.basis⟩
          refine ⟨[result], ⟨?_, ?_, ?_⟩⟩
          · rw [hbooked, h.booked, List.append_assoc]
          · rw [hmoved.1, h.cash, List.map_append, List.sum_append, List.map_singleton,
              List.sum_singleton]
            ring
          · intro marketRef
            rw [hmoved.2, h.basis, List.filter_append, List.map_append, List.sum_append, add_assoc]
            by_cases hmarket : result.request.marketRef = marketRef
            · simp [hmarket]
            · simp [hmarket, Ne.symm hmarket]

end BinaryPaperBroker

/-- In every run of purchases, each on the portfolio that the ones before it have led to: every
purchase that fills is within cash and within the limit of the account value that it is measured
by, and nothing else moves the portfolio; cash is what is left of it after all that they cost,
and never negative, and the cost basis of every market grows by what was bought in it, of either
outcome. -/
theorem purchases_withinLimits (broker : BinaryPaperBroker) (digests : Digests) (start : Bookings)
    {orders : List (OrderRequest × ExecutionArguments)}
    (hbuy : ∀ order ∈ orders, order.1.action = .buy) :
    (∀ before order after, orders = before ++ order :: after →
      broker.Purchases (Runs.final (broker.book digests) start before) order
        (broker.book digests (Runs.final (broker.book digests) start before) order)) ∧
      0 ≤ (Runs.final (broker.book digests) start orders).portfolio.cashMicros ∧
      ∃ later, BinaryPaperBroker.Booked start (Runs.final (broker.book digests) start orders)
        later := by
  refine ⟨?_, ContractPortfolio.cashMicros_nonneg _, ?_⟩
  · rintro before order after rfl
    exact broker.book_purchases digests (hbuy order (by simp))
  · induction orders using List.reverseRecOn with
    | nil =>
        refine ⟨[], ⟨(List.append_nil _).symm, (sub_zero _).symm, ?_⟩⟩
        exact fun _ => (add_zero _).symm
    | append_singleton orders order ih =>
        obtain ⟨later, hbooked⟩ := ih fun other hmem => hbuy other (List.mem_append_left _ hmem)
        obtain ⟨more, hmore⟩ := hbooked.step broker digests (hbuy order (by simp))
        rw [Runs.final_concat]
        exact ⟨later ++ more, hmore⟩

namespace Sample

/-- A purchase of all that the haircut leaves of the book, and another of the same. -/
def purchases : List (OrderRequest × ExecutionArguments) := [
  (purchase, arguments portfolio false),
  ({ purchase with
      idempotencyKey := "again"
      key_nonblank := by decide
      key_length := by decide }, arguments portfolio false)]

end Sample

set_option maxRecDepth 10000 in
/-- Both purchases fill, and the second is measured with what the first has cost. -/
theorem purchases_withinLimits_sample :
    ∃ later, BinaryPaperBroker.Booked ⟨.empty, Sample.portfolio, []⟩
        (Runs.final (Sample.broker.book Sample.digests) ⟨.empty, Sample.portfolio, []⟩
          Sample.purchases) later ∧
      (later.map fun result => result.filledUnits) = [200, 200] := by
  obtain ⟨-, -, later, hbooked⟩ := purchases_withinLimits Sample.broker Sample.digests
    ⟨.empty, Sample.portfolio, []⟩ (show ∀ order ∈ Sample.purchases, order.1.action = .buy by
      simp [Sample.purchases, Sample.purchase, Sample.request])
  refine ⟨later, hbooked, ?_⟩
  rw [← List.nil_append later, ← hbooked.booked]
  decide +kernel

end VTrade
