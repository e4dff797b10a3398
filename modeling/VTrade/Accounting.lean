/-
# What an order books

A portfolio is an account in the sense of `Books`: cash, the running result and
one holding for every position.  An accepted order posts one movement to it, and
the ledger entry of the order states that movement.

The fill loop is followed one fill at a time: each fill posts a movement of its
own, and the movements of a loop add up to the movement of the order.
-/

import VTrade.Lib.Books
import VTrade.Portfolio

namespace VTrade

/-! ## Portfolios as accounts -/

def ContractPosition.holding (position : ContractPosition) : Books.Holding where
  units := position.contractUnits
  basis := position.grossCostBasisMicros
  fees := position.entryFeesMicros
  realized := position.realizedPnlMicros

/-- An empty position is closed out by dropping it. -/
theorem ContractPosition.closeOut_holding_of_empty {position : ContractPosition}
    (h : position.contractUnits = 0) : position.holding.closeOut = 0 := by
  obtain ⟨hbasis, hfees⟩ := position.carries_nothing h
  rw [Books.Holding.closeOut_of_units_eq_zero h]
  ext
  · exact h
  · exact hbasis
  · exact hfees
  · rfl

/-- The holdings of a list of positions. -/
noncomputable def holdings (positions : List ContractPosition) : PositionKey →₀ Books.Holding :=
  (positions.map fun position => Finsupp.single position.key position.holding).sum

theorem holdings_perm {first second : List ContractPosition} (h : first.Perm second) :
    holdings first = holdings second :=
  (h.map _).sum_eq

/-- The holding under a key is that of the position of the key. -/
theorem holdings_apply {positions : List ContractPosition}
    (unique : (positions.map ContractPosition.key).Nodup) (key : PositionKey) :
    holdings positions key =
      (KeyedList.lookup ContractPosition.key key positions).elim 0 ContractPosition.holding := by
  induction positions with
  | nil => rfl
  | cons position positions ih =>
      rw [List.map_cons, List.nodup_cons] at unique
      have hsplit : holdings (position :: positions) key =
          Finsupp.single position.key position.holding key + holdings positions key := by
        simp [holdings]
      rw [hsplit, ih unique.2, KeyedList.lookup_cons]
      by_cases h : position.key = key
      · have hrest : KeyedList.lookup ContractPosition.key key positions = none :=
          KeyedList.lookup_eq_none_iff.mpr fun other hmem hkey =>
            unique.1 (List.mem_map.mpr ⟨other, hmem, hkey.trans h.symm⟩)
        simp [h, hrest]
      · simp [h]

/-- Putting a position in the place of its key is an update of the holdings. -/
theorem holdings_cons_erase {positions : List ContractPosition}
    (unique : (positions.map ContractPosition.key).Nodup) (position : ContractPosition) :
    holdings (position :: KeyedList.erase ContractPosition.key position.key positions) =
      (holdings positions).update position.key position.holding := by
  ext1 key
  rw [holdings_apply (KeyedList.nodup_cons_erase unique position), Finsupp.update_apply]
  split
  next h => simp [h]
  next h => rw [KeyedList.lookup_cons_erase_of_ne h, holdings_apply unique]

/-- Dropping the position of a key is an update of the holdings. -/
theorem holdings_erase {positions : List ContractPosition}
    (unique : (positions.map ContractPosition.key).Nodup) (key : PositionKey) :
    holdings (KeyedList.erase ContractPosition.key key positions) =
      (holdings positions).update key 0 := by
  ext1 other
  rw [holdings_apply (KeyedList.nodup_erase unique key), Finsupp.update_apply]
  split
  next h => simp [h]
  next h => rw [KeyedList.lookup_erase_of_ne h, holdings_apply unique]

theorem sortPositions_perm (positions : List ContractPosition) :
    (sortPositions positions).Perm positions :=
  List.perm_insertionSort _ _

namespace ContractPortfolio

/-- The account a portfolio is. -/
noncomputable def account (portfolio : ContractPortfolio) : Books.Account PositionKey where
  cash := portfolio.cashMicros
  realized := portfolio.realizedPnlMicros
  holding := holdings portfolio.positions

theorem account_holding (portfolio : ContractPortfolio) (key : PositionKey) :
    portfolio.account.holding key =
      (portfolio.position key).elim 0 ContractPosition.holding :=
  holdings_apply portfolio.unique_keys key

/-- Equity is cash and what the positions carry, less what has been realized. -/
theorem account_equity (portfolio : ContractPortfolio) :
    portfolio.account.equity = portfolio.cashMicros +
      (portfolio.positions.map fun position =>
        position.grossCostBasisMicros + position.entryFeesMicros).sum -
      portfolio.realizedPnlMicros := by
  have hsum : (holdings portfolio.positions).sum (fun _ holding => holding.carried) =
      (portfolio.positions.map fun position =>
        position.grossCostBasisMicros + position.entryFeesMicros).sum := by
    generalize portfolio.positions = positions
    induction positions with
    | nil => simp [holdings]
    | cons position positions ih =>
        have hcons : holdings (position :: positions) =
            Finsupp.single position.key position.holding + holdings positions := by
          simp [holdings]
        rw [hcons, Finsupp.sum_add_index' (fun _ => Books.Holding.carried_zero)
          (fun _ => Books.Holding.carried_add), ih]
        congr 1
        exact Finsupp.sum_single_index Books.Holding.carried_zero
  simp only [Books.Account.equity, account, hsum]

/-- No position without units. -/
def AllOpen (portfolio : ContractPortfolio) : Prop :=
  ∀ position ∈ portfolio.positions, 0 < position.contractUnits

/-- Closing out leaves an open portfolio's holdings as they are. -/
theorem AllOpen.closeOut_holding {portfolio : ContractPortfolio} (h : portfolio.AllOpen)
    (key : PositionKey) :
    (portfolio.account.holding key).closeOut = portfolio.account.holding key := by
  rw [account_holding]
  cases hposition : portfolio.position key with
  | none => rfl
  | some position =>
      have hpos := h position (KeyedList.mem_of_lookup_eq_some hposition)
      exact Books.Holding.closeOut_of_units_ne_zero hpos.ne'

theorem account_holding_units_nonneg (portfolio : ContractPortfolio) (key : PositionKey) :
    0 ≤ (portfolio.account.holding key).units := by
  rw [account_holding]
  cases portfolio.position key with
  | none => simp
  | some position => exact position.contractUnits_nonneg

end ContractPortfolio

/-- Replacing a position updates its holding and keeps everything else. -/
theorem replacePosition_spec {portfolio updated : ContractPortfolio} {position : ContractPosition}
    {cashMicros realizedPnlMicros : ℤ}
    (h : replacePosition portfolio position cashMicros realizedPnlMicros = .ok updated) :
    updated.agentId = portfolio.agentId ∧ updated.version = portfolio.version ∧
      updated.cashMicros = cashMicros ∧ updated.realizedPnlMicros = realizedPnlMicros ∧
      updated.account.holding =
        portfolio.account.holding.update position.key position.holding.closeOut ∧
      (portfolio.AllOpen → updated.AllOpen) := by
  have hfields := ContractPortfolio.make_eq_ok_iff.mp h
  have hpositions : updated.positions = sortPositions
      (if position.contractUnits ≠ 0 then
        KeyedList.erase ContractPosition.key position.key portfolio.positions ++ [position]
      else KeyedList.erase ContractPosition.key position.key portfolio.positions) := by
    rw [hfields]
  have hperm : updated.positions.Perm
      (if position.contractUnits ≠ 0 then
        position :: KeyedList.erase ContractPosition.key position.key portfolio.positions
      else KeyedList.erase ContractPosition.key position.key portfolio.positions) := by
    rw [hpositions]
    refine (sortPositions_perm _).trans ?_
    split
    · exact List.perm_append_singleton _ _
    · exact List.Perm.refl _
  refine ⟨by rw [hfields], by rw [hfields], by rw [hfields], by rw [hfields], ?_, ?_⟩
  · change holdings updated.positions = (holdings portfolio.positions).update _ _
    rw [holdings_perm hperm]
    split
    next hopen =>
      rw [holdings_cons_erase portfolio.unique_keys,
        Books.Holding.closeOut_of_units_ne_zero hopen]
    next hclosed =>
      rw [holdings_erase portfolio.unique_keys,
        ContractPosition.closeOut_holding_of_empty (not_not.mp hclosed)]
  · intro hopen other hmem
    rw [hperm.mem_iff] at hmem
    split at hmem
    next hunits =>
      rcases List.mem_cons.mp hmem with rfl | hrest
      · have hnonneg := other.contractUnits_nonneg
        omega
      · exact hopen other (KeyedList.mem_erase.mp hrest).1
    next => exact hopen other (KeyedList.mem_erase.mp hmem).1

/-! ## The fill loop -/

/-- What one BUY fill moves. -/
def buyMovement (request : OrderRequest) (fill : EconomicFill) : Books.Movement PositionKey where
  key := request.positionKey
  cash := fill.netCashDeltaMicros
  units := fill.contractUnits
  basis := fill.grossCashMicros
  fees := fill.feeMicros
  realized := 0

/-- What one SELL fill moves, for the cost and the entry fees it removes. -/
def sellMovement (request : OrderRequest) (fill : EconomicFill)
    (removedBasis removedFees : ℤ) : Books.Movement PositionKey where
  key := request.positionKey
  cash := fill.netCashDeltaMicros
  units := -fill.contractUnits
  basis := -removedBasis
  fees := -removedFees
  realized := fill.grossCashMicros - removedBasis - removedFees - fill.feeMicros

/-- What the loop has moved so far. -/
def FillLoop.movement (request : OrderRequest) (loop : FillLoop) :
    Books.Movement PositionKey where
  key := request.positionKey
  cash := loop.cashDelta
  units := loop.unitsDelta
  basis := loop.positionCostDelta
  fees := entryFeesDelta request loop.accounting
  realized := (loop.accounting.map fun item => item.realizedPnlMicros).sum

/-- A step of the loop: what it posts to the working portfolio, and what it adds
to the totals. -/
structure FillStep (request : OrderRequest) (loop next : FillLoop) (fill : EconomicFill)
    (item : FillAccounting) (movement : Books.Movement PositionKey) : Prop where
  agentId : next.working.agentId = loop.working.agentId
  account : next.working.account = loop.working.account.post movement
  allOpen : loop.working.AllOpen → next.working.AllOpen
  accounting : next.accounting = loop.accounting ++ [item]
  item_fill : item.fill = fill
  movement_eq : next.movement request = (loop.movement request).merge movement
  movement_key : movement.key = request.positionKey

theorem applyBuyFill_spec {request : OrderRequest} {loop next : FillLoop} {fill : EconomicFill}
    (haction : request.action = .buy) (h : applyBuyFill request loop fill = .ok next) :
    FillStep request loop next fill ⟨fill, 0, 0, 0⟩ (buyMovement request fill) ∧
      next.feeExpenseDelta = loop.feeExpenseDelta + fill.feeMicros ∧
      next.realizedPosting = loop.realizedPosting := by
  obtain ⟨updated, hupdated, h⟩ := Checks.bind_eq_ok.mp h
  split_ifs at h with hnet
  obtain ⟨working, hworking, h⟩ := Checks.bind_eq_ok.mp h
  split_ifs at h with hcash
  cases h
  obtain ⟨hagent, -, hcashMicros, hrealized, hholding, hopen⟩ := replacePosition_spec hworking
  have hfields := ContractPosition.make_eq_ok_iff.mp hupdated
  have hkey : updated.key = request.positionKey := by
    simp [ContractPosition.key, OrderRequest.positionKey, hfields, boughtPosition]
  have hmoved : updated.holding =
      loop.working.account.holding request.positionKey + (buyMovement request fill).holding := by
    rw [ContractPortfolio.account_holding]
    cases hcurrent : loop.working.position request.positionKey <;>
      simp [ContractPosition.holding, hfields, boughtPosition, hcurrent, buyMovement,
        Books.Movement.holding, Books.Holding.ext_iff]
  refine ⟨{
    agentId := hagent
    account := ?_
    allOpen := hopen
    accounting := rfl
    item_fill := rfl
    movement_eq := ?_
    movement_key := rfl }, rfl, rfl⟩
  · rw [Books.Account.ext_iff]
    refine ⟨hcashMicros, ?_, ?_⟩
    · change working.realizedPnlMicros = loop.working.realizedPnlMicros + 0
      rw [hrealized, add_zero]
    · change working.account.holding = _
      rw [hholding, hkey, hmoved]
      rfl
  · simp [FillLoop.movement, entryFeesDelta, haction, Books.Movement.merge, buyMovement]

theorem applySellFill_spec {request : OrderRequest} {loop next : FillLoop} {fill : EconomicFill}
    (haction : request.action = .sell) (h : applySellFill request loop fill = .ok next) :
    ∃ current removedBasis removedFees,
      loop.working.position request.positionKey = some current ∧
      fill.contractUnits ≤ current.contractUnits ∧
      proRata current.grossCostBasisMicros fill.contractUnits current.contractUnits =
        .ok removedBasis ∧
      proRata current.entryFeesMicros fill.contractUnits current.contractUnits =
        .ok removedFees ∧
      FillStep request loop next fill
        ⟨fill, removedBasis, removedFees,
          fill.grossCashMicros - removedBasis - removedFees - fill.feeMicros⟩
        (sellMovement request fill removedBasis removedFees) ∧
      next.feeExpenseDelta = loop.feeExpenseDelta + (fill.feeMicros - removedFees) ∧
      next.realizedPosting = loop.realizedPosting +
        (removedBasis + removedFees - fill.grossCashMicros) := by
  unfold applySellFill at h
  split at h
  next => cases h
  next current hcurrent =>
    by_cases hunits : current.contractUnits < fill.contractUnits
    · rw [if_pos hunits] at h
      cases h
    rw [if_neg hunits] at h
    obtain ⟨removedBasis, hbasis, h⟩ := Checks.bind_eq_ok.mp h
    obtain ⟨removedFees, hfees, h⟩ := Checks.bind_eq_ok.mp h
    obtain ⟨updated, hupdated, h⟩ := Checks.bind_eq_ok.mp h
    split_ifs at h with hnet
    obtain ⟨working, hworking, h⟩ := Checks.bind_eq_ok.mp h
    split_ifs at h with hcash
    cases h
    obtain ⟨hagent, -, hcashMicros, hrealized, hholding, hopen⟩ := replacePosition_spec hworking
    have hfields := ContractPosition.make_eq_ok_iff.mp hupdated
    have hkey : updated.key = request.positionKey := by
      simp [ContractPosition.key, OrderRequest.positionKey, hfields, soldPosition]
    have hmoved : updated.holding = loop.working.account.holding request.positionKey +
        (sellMovement request fill removedBasis removedFees).holding := by
      rw [ContractPortfolio.account_holding, hcurrent]
      simp only [ContractPosition.holding, hfields, soldPosition, sellMovement,
        Books.Movement.holding, Option.elim_some, Books.Holding.ext_iff, Books.Holding.add_units, Books.Holding.add_basis,
        Books.Holding.add_fees, Books.Holding.add_realized, sub_eq_add_neg, and_self]
    refine ⟨current, removedBasis, removedFees, hcurrent, not_lt.mp hunits, hbasis, hfees, {
      agentId := hagent
      account := ?_
      allOpen := hopen
      accounting := rfl
      item_fill := rfl
      movement_eq := ?_
      movement_key := rfl }, rfl, rfl⟩
    · rw [Books.Account.ext_iff]
      refine ⟨hcashMicros, hrealized, ?_⟩
      change working.account.holding = _
      rw [hholding, hkey, hmoved]
      rfl
    · simp only [FillLoop.movement, entryFeesDelta, haction, Books.Movement.merge, sellMovement,
        List.map_append, List.map_cons, List.map_nil, List.sum_append, List.sum_singleton,
        neg_add, sub_eq_add_neg]

/-- The fees of a sale are an expense; those of a purchase stay in the position. -/
def saleFees (request : OrderRequest) (fills : List EconomicFill) : ℤ :=
  match request.action with
  | .buy => 0
  | .sell => (fills.map fun fill => fill.feeMicros).sum

/-- The postings that state a movement and an expense beside it. -/
def postingsOf (movement : Books.Movement PositionKey) (expense : ℤ) : MovementPostings where
  key := movement.key
  cash := movement.cash
  cost := movement.basis
  units := movement.units
  fees :=
    if movement.fees + expense ≠ 0 then some (movement.fees + expense, movement.fees) else none
  result :=
    if movement.realized + expense ≠ 0 then some (-(movement.realized + expense)) else none

/-- The cash delta the broker gives a fill. -/
def brokerCashDelta (request : OrderRequest) (fill : EconomicFill) : ℤ :=
  match request.action with
  | .buy => -fill.grossCashMicros - fill.feeMicros
  | .sell => fill.grossCashMicros - fill.feeMicros

/-- The units a fill adds to the position. -/
def signedUnits (request : OrderRequest) (fill : EconomicFill) : ℤ :=
  match request.action with
  | .buy => fill.contractUnits
  | .sell => -fill.contractUnits

/-- A purchase adds the units of its fills, a sale takes them. -/
theorem sum_signedUnits (request : OrderRequest) (fills : List EconomicFill) :
    (fills.map (signedUnits request)).sum = match request.action with
      | .buy => (fills.map fun fill => fill.contractUnits).sum
      | .sell => -(fills.map fun fill => fill.contractUnits).sum := by
  induction fills with
  | nil => cases request.action <;> rfl
  | cons fill rest ih =>
      rw [List.map_cons, List.sum_cons, ih]
      cases haction : request.action <;> simp [signedUnits, haction, add_comm]

/-- The totals of the loop after it has consumed some fills. -/
structure LoopTotals (request : OrderRequest) (seen : List EconomicFill) (loop : FillLoop) :
    Prop where
  fills : loop.accounting.map (fun item => item.fill) = seen
  cash : (loop.movement request).cash = (seen.map fun fill => fill.netCashDeltaMicros).sum
  units : (loop.movement request).units = (seen.map (signedUnits request)).sum
  imbalance : (loop.movement request).imbalance =
    (seen.map fun fill => fill.netCashDeltaMicros).sum - (seen.map (brokerCashDelta request)).sum
  feeExpense : loop.feeExpenseDelta = (loop.movement request).fees + saleFees request seen
  realizedPosting :
    loop.realizedPosting = -((loop.movement request).realized + saleFees request seen)
  buy_basis : request.action = .buy →
    (loop.movement request).basis = (seen.map fun fill => fill.grossCashMicros).sum
  buy_fees : request.action = .buy →
    (loop.movement request).fees = (seen.map fun fill => fill.feeMicros).sum
  buy_realized : request.action = .buy → (loop.movement request).realized = 0

theorem FillLoop.start_movement (portfolio : ContractPortfolio) (request : OrderRequest) :
    (FillLoop.start portfolio).movement request = Books.Movement.idle request.positionKey := by
  cases haction : request.action <;>
    simp [FillLoop.movement, FillLoop.start, entryFeesDelta, haction, Books.Movement.idle]

theorem LoopTotals.start (portfolio : ContractPortfolio) (request : OrderRequest) :
    LoopTotals request [] (FillLoop.start portfolio) := by
  have hidle := FillLoop.start_movement portfolio request
  have hsale : saleFees request [] = 0 := by cases haction : request.action <;>
    simp [saleFees, haction]
  exact {
    fills := rfl
    cash := by simp [hidle, Books.Movement.idle]
    units := by simp [hidle, Books.Movement.idle]
    imbalance := by simp [hidle, Books.Movement.idle, Books.Movement.imbalance]
    feeExpense := by rw [hidle, hsale]; rfl
    realizedPosting := by rw [hidle, hsale]; rfl
    buy_basis := fun _ => by simp [hidle, Books.Movement.idle]
    buy_fees := fun _ => by simp [hidle, Books.Movement.idle]
    buy_realized := fun _ => by simp [hidle, Books.Movement.idle] }

/-- One fill keeps the totals. -/
theorem LoopTotals.step {request : OrderRequest} {seen : List EconomicFill}
    {loop next : FillLoop} {fill : EconomicFill} (hloop : LoopTotals request seen loop)
    (h : applyFill request loop fill = .ok next) :
    LoopTotals request (seen ++ [fill]) next := by
  unfold applyFill at h
  cases haction : request.action with
  | buy =>
      rw [haction] at h
      obtain ⟨hstep, hexpense, hposting⟩ := applyBuyFill_spec haction h
      have hsale : ∀ fills, saleFees request fills = 0 := fun fills => by
        simp only [saleFees, haction]
      have hmerge := hstep.movement_eq
      constructor
      · rw [hstep.accounting, List.map_append, hloop.fills]
        rfl
      · simp [hmerge, Books.Movement.merge, buyMovement, hloop.cash]
      · simp [hmerge, Books.Movement.merge, buyMovement, hloop.units, signedUnits, haction]
      · have himbalance := hloop.imbalance
        simp only [Books.Movement.imbalance, hmerge, Books.Movement.merge, buyMovement,
          List.map_append, List.sum_append, List.map_cons, List.map_nil, List.sum_singleton,
          brokerCashDelta, haction] at himbalance ⊢
        linarith
      · rw [hexpense, hloop.feeExpense, hmerge, hsale, hsale]
        simp [Books.Movement.merge, buyMovement]
      · rw [hposting, hloop.realizedPosting, hmerge, hsale, hsale]
        simp [Books.Movement.merge, buyMovement]
      · intro _
        simp [hmerge, Books.Movement.merge, buyMovement, hloop.buy_basis haction]
      · intro _
        simp [hmerge, Books.Movement.merge, buyMovement, hloop.buy_fees haction]
      · intro _
        simp [hmerge, Books.Movement.merge, buyMovement, hloop.buy_realized haction]
  | sell =>
      rw [haction] at h
      obtain ⟨current, removedBasis, removedFees, -, -, -, -, hstep, hexpense, hposting⟩ :=
        applySellFill_spec haction h
      have hsale : saleFees request (seen ++ [fill]) =
          saleFees request seen + fill.feeMicros := by
        simp only [saleFees, haction, List.map_append, List.sum_append, List.map_cons,
          List.map_nil, List.sum_singleton]
      have hmerge := hstep.movement_eq
      have hnotBuy : request.action ≠ .buy := by simp [haction]
      constructor
      · rw [hstep.accounting, List.map_append, hloop.fills]
        rfl
      · simp [hmerge, Books.Movement.merge, sellMovement, hloop.cash]
      · simp [hmerge, Books.Movement.merge, sellMovement, hloop.units, signedUnits, haction]
      · have himbalance := hloop.imbalance
        simp only [Books.Movement.imbalance, hmerge, Books.Movement.merge, sellMovement,
          List.map_append, List.sum_append, List.map_cons, List.map_nil, List.sum_singleton,
          brokerCashDelta, haction] at himbalance ⊢
        linarith
      · rw [hexpense, hloop.feeExpense, hmerge, hsale]
        simp only [Books.Movement.merge, sellMovement]
        ring
      · rw [hposting, hloop.realizedPosting, hmerge, hsale]
        simp only [Books.Movement.merge, sellMovement]
        ring
      · exact fun hbuy => absurd hbuy hnotBuy
      · exact fun hbuy => absurd hbuy hnotBuy
      · exact fun hbuy => absurd hbuy hnotBuy

/-- The totals after all fills. -/
theorem LoopTotals.of_foldlM {portfolio : ContractPortfolio} {request : OrderRequest}
    {fills : List EconomicFill} {loop : FillLoop}
    (h : fills.foldlM (applyFill request) (FillLoop.start portfolio) = .ok loop) :
    LoopTotals request fills loop := by
  have hrun := Checks.foldlM_invariant (LoopTotals request) []
    (fun _ _ _ _ _ hstate hstep => hstate.step hstep) h
    (LoopTotals.start portfolio request)
  simpa using hrun

/-- The postings of an order state the movement of its loop, and beside it the
fees of a sale. -/
theorem LoopTotals.orderPostings_eq {request : OrderRequest} {fills : List EconomicFill}
    {loop : FillLoop} (hloop : LoopTotals request fills loop) :
    orderPostings request loop = postingsOf (loop.movement request) (saleFees request fills) := by
  have hresult : loop.realizedPosting = 0 ↔
      (loop.movement request).realized + saleFees request fills = 0 := by
    rw [hloop.realizedPosting, neg_eq_zero]
  unfold orderPostings postingsOf
  simp only [ne_eq, hresult, ← hloop.feeExpense, ← hloop.realizedPosting]
  rfl

/-- What the loop has done to the working portfolio after some fills. -/
structure LoopBooked (portfolio : ContractPortfolio) (request : OrderRequest)
    (loop : FillLoop) : Prop where
  agentId : loop.working.agentId = portfolio.agentId
  account : loop.working.account = portfolio.account.post (loop.movement request)
  allOpen : loop.working.AllOpen
  buy_open : request.action = .buy →
    (portfolio.account.holding request.positionKey + (loop.movement request).holding).closeOut =
      portfolio.account.holding request.positionKey + (loop.movement request).holding

theorem LoopBooked.start {portfolio : ContractPortfolio} (request : OrderRequest)
    (hopen : portfolio.AllOpen) : LoopBooked portfolio request (FillLoop.start portfolio) := by
  have hidle := FillLoop.start_movement portfolio request
  refine ⟨rfl, ?_, hopen, ?_⟩
  · rw [hidle, Books.Account.post_idle _ _ (hopen.closeOut_holding _)]
    rfl
  · intro _
    rw [hidle, Books.Movement.holding_idle, add_zero, hopen.closeOut_holding]

/-- One fill posts its movement. -/
theorem LoopBooked.step {portfolio : ContractPortfolio} {request : OrderRequest}
    {loop next : FillLoop} {fill : EconomicFill} (hloop : LoopBooked portfolio request loop)
    (h : applyFill request loop fill = .ok next) : LoopBooked portfolio request next := by
  have hworking : (loop.working.account.holding request.positionKey).units =
      (portfolio.account.holding request.positionKey +
        (loop.movement request).holding).units := by
    rw [hloop.account, show request.positionKey = (loop.movement request).key from rfl,
      Books.Account.holding_post_self, Books.Holding.closeOut_units]
  unfold applyFill at h
  cases haction : request.action with
  | buy =>
      rw [haction] at h
      obtain ⟨hstep, -, -⟩ := applyBuyFill_spec haction h
      have hmerge := hstep.movement_eq
      refine ⟨hstep.agentId.trans hloop.agentId, ?_, hstep.allOpen hloop.allOpen, ?_⟩
      · rw [hstep.account, hloop.account, hmerge]
        exact Books.Account.post_post _ rfl (hloop.buy_open haction)
      · intro _
        -- A purchase leaves units, so there is nothing to close out.
        apply Books.Holding.closeOut_of_units_ne_zero
        have hnonneg := loop.working.account_holding_units_nonneg request.positionKey
        have hpos := fill.contractUnits_pos
        rw [hworking] at hnonneg
        rw [hmerge, Books.Movement.holding_merge, ← add_assoc, Books.Holding.add_units]
        have hunits : (buyMovement request fill).holding.units = fill.contractUnits := rfl
        omega
  | sell =>
      rw [haction] at h
      obtain ⟨current, removedBasis, removedFees, hcurrent, hunits, -, -, hstep, -, -⟩ :=
        applySellFill_spec haction h
      have hmerge := hstep.movement_eq
      have hopen : (portfolio.account.holding request.positionKey +
          (loop.movement request).holding).closeOut =
          portfolio.account.holding request.positionKey + (loop.movement request).holding := by
        -- The position is still there to be sold from.
        apply Books.Holding.closeOut_of_units_ne_zero
        rw [← hworking, ContractPortfolio.account_holding, hcurrent]
        have hpos := fill.contractUnits_pos
        change current.contractUnits ≠ 0
        omega
      refine ⟨hstep.agentId.trans hloop.agentId, ?_, hstep.allOpen hloop.allOpen, ?_⟩
      · rw [hstep.account, hloop.account, hmerge]
        exact Books.Account.post_post _ rfl hopen
      · intro hbuy
        rw [haction] at hbuy
        cases hbuy

/-- What the loop has done after all fills. -/
theorem LoopBooked.of_foldlM {portfolio : ContractPortfolio} {request : OrderRequest}
    {fills : List EconomicFill} {loop : FillLoop} (hopen : portfolio.AllOpen)
    (h : fills.foldlM (applyFill request) (FillLoop.start portfolio) = .ok loop) :
    LoopBooked portfolio request loop :=
  Checks.foldlM_invariant (fun _ => LoopBooked portfolio request) []
    (fun _ _ _ _ _ hstate hstep => hstate.step hstep) h (LoopBooked.start request hopen)

/-! ## The order -/

/-- An accepted order: the portfolio it leaves, and the entry that states what it
moved. -/
structure OrderBooked (portfolio : ContractPortfolio) (request : OrderRequest)
    (fills : List EconomicFill) (operationId : String) (occurredAt : Datetime)
    (after : ContractPortfolio) (entry : LedgerEntry) (loop : FillLoop) : Prop where
  fills_ne_nil : fills ≠ []
  run : fills.foldlM (applyFill request) (FillLoop.start portfolio) = .ok loop
  request_agentId : request.agentId = portfolio.agentId
  agentId : after.agentId = loop.working.agentId
  cashMicros : after.cashMicros = loop.working.cashMicros
  realizedPnlMicros : after.realizedPnlMicros = loop.working.realizedPnlMicros
  positions : after.positions.Perm loop.working.positions
  version : after.version = portfolio.version + 1
  reconciliationBlocked : after.reconciliationBlocked = portfolio.reconciliationBlocked
  entry_agentId : entry.agentId = portfolio.agentId
  entry_id : entry.id = "ledger-order-" ++ operationId
  entry_key : entry.idempotencyKey = "order-accounting:" ++ operationId
  entry_occurredAt : entry.occurredAt = occurredAt.instant
  posts : entry.Posts (orderPostings request loop)

theorem applyOrderFills_spec {portfolio after : ContractPortfolio} {request : OrderRequest}
    {fills : List EconomicFill} {operationId : String} {occurredAt : Datetime}
    {entry : LedgerEntry} {accounting : List FillAccounting}
    (h : applyOrderFills portfolio request fills operationId occurredAt =
      .ok (after, entry, accounting)) :
    ∃ loop, loop.accounting = accounting ∧
      OrderBooked portfolio request fills operationId occurredAt after entry loop := by
  unfold applyOrderFills at h
  by_cases hagent : request.agentId ≠ portfolio.agentId
  · rw [if_pos hagent] at h
    cases h
  by_cases hfills : fills = []
  · rw [if_neg hagent, if_pos hfills] at h
    cases h
  by_cases haware : occurredAt.isAware = false
  · rw [if_neg hagent, if_neg hfills, if_pos haware] at h
    cases h
  rw [if_neg hagent, if_neg hfills, if_neg haware] at h
  obtain ⟨loop, hrun, h⟩ := Checks.bind_eq_ok.mp h
  obtain ⟨postings, hpostings, h⟩ := Checks.bind_eq_ok.mp h
  obtain ⟨built, hbuilt, h⟩ := Checks.bind_eq_ok.mp h
  obtain ⟨result, hresult, h⟩ := Checks.bind_eq_ok.mp h
  cases h
  obtain ⟨hid, hentryAgent, hkey, -, hoccurred, hentryPostings⟩ :=
    LedgerEntry.eq_of_make_eq_ok hbuilt
  have hfields := ContractPortfolio.make_eq_ok_iff.mp hresult
  refine ⟨loop, rfl, {
    fills_ne_nil := hfills
    run := hrun
    request_agentId := not_not.mp hagent
    agentId := by rw [hfields]
    cashMicros := by rw [hfields]
    realizedPnlMicros := by rw [hfields]
    positions := by rw [hfields]; exact sortPositions_perm _
    version := by rw [hfields]
    reconciliationBlocked := by rw [hfields]
    entry_agentId := hentryAgent
    entry_id := hid
    entry_key := hkey
    entry_occurredAt := hoccurred
    posts := ?_ }⟩
  rw [LedgerEntry.Posts, hentryPostings]
  exact Posting.mapM_make_eq_ok_iff.mp hpostings

namespace OrderBooked

variable {portfolio after : ContractPortfolio} {request : OrderRequest}
  {fills : List EconomicFill} {operationId : String} {occurredAt : Datetime}
  {entry : LedgerEntry} {loop : FillLoop}

theorem loopTotals
    (h : OrderBooked portfolio request fills operationId occurredAt after entry loop) :
    LoopTotals request fills loop :=
  LoopTotals.of_foldlM h.run

/-- An accepted order posts the movement of its loop. -/
theorem account
    (h : OrderBooked portfolio request fills operationId occurredAt after entry loop)
    (hopen : portfolio.AllOpen) :
    after.account = portfolio.account.post (loop.movement request) := by
  rw [← (LoopBooked.of_foldlM hopen h.run).account, Books.Account.ext_iff]
  exact ⟨h.cashMicros, h.realizedPnlMicros, holdings_perm h.positions⟩

theorem allOpen
    (h : OrderBooked portfolio request fills operationId occurredAt after entry loop)
    (hopen : portfolio.AllOpen) : after.AllOpen := fun position hmem =>
  (LoopBooked.of_foldlM hopen h.run).allOpen position (h.positions.mem_iff.mp hmem)

/-- The entry states the movement. -/
theorem posts_movement
    (h : OrderBooked portfolio request fills operationId occurredAt after entry loop) :
    entry.Posts (postingsOf (loop.movement request) (saleFees request fills)) := by
  rw [← h.loopTotals.orderPostings_eq]
  exact h.posts

end OrderBooked

/-- An entry that posts a movement balances exactly when the movement does. -/
theorem imbalance_eq_zero_of_posts {entry : LedgerEntry}
    {movement : Books.Movement PositionKey} {expense : ℤ}
    (h : entry.Posts (postingsOf movement expense)) : movement.imbalance = 0 := by
  have hsum : entry.total (fun posting => posting.amountMicros) = 0 := entry.balanced
  rw [h.total_eq] at hsum
  have hfees : (postingsOf movement expense).fees.elim 0 (fun fees =>
      (PostingFields.ofFees movement.key fees.1 fees.2).amountMicros) =
      movement.fees + expense := by
    unfold postingsOf
    by_cases hzero : movement.fees + expense = 0 <;> simp [hzero, PostingFields.ofFees]
  have hresult : (postingsOf movement expense).result.elim 0 (fun result =>
      (PostingFields.ofResult movement.key result).amountMicros) =
      -(movement.realized + expense) := by
    unfold postingsOf
    by_cases hzero : movement.realized + expense = 0 <;> simp [hzero, PostingFields.ofResult]
  rw [show (postingsOf movement expense).key = movement.key from rfl, hfees, hresult] at hsum
  have hcash : (PostingFields.ofCash (postingsOf movement expense).cash).amountMicros =
      movement.cash := rfl
  have hcost : (PostingFields.ofCost movement.key (postingsOf movement expense).cost
      (postingsOf movement expense).units).amountMicros = movement.basis := rfl
  rw [hcash, hcost] at hsum
  unfold Books.Movement.imbalance
  linarith

/-! ## Runs of orders -/

/-- The arguments of `applyOrderFills` besides the portfolio. -/
structure FilledOrder where
  request : OrderRequest
  fills : List EconomicFill
  operationId : String
  occurredAt : Datetime

/-- A portfolio and the entries emitted on the way to it. -/
structure Bookkeeping where
  portfolio : ContractPortfolio
  entries : List LedgerEntry
  deriving DecidableEq

/-- Apply one order and keep its entry. -/
def bookOrder (state : Bookkeeping) (order : FilledOrder) : Except Raised Bookkeeping := do
  let (after, entry, _) ← applyOrderFills state.portfolio order.request order.fills
    order.operationId order.occurredAt
  .ok ⟨after, state.entries ++ [entry]⟩

theorem bookOrder_spec {state next : Bookkeeping} {order : FilledOrder}
    (h : bookOrder state order = .ok next) :
    ∃ entry loop, next.entries = state.entries ++ [entry] ∧
      OrderBooked state.portfolio order.request order.fills order.operationId order.occurredAt
        next.portfolio entry loop := by
  obtain ⟨⟨after, entry, accounting⟩, haccepted, h⟩ := Checks.bind_eq_ok.mp h
  cases h
  obtain ⟨loop, -, hbooked⟩ := applyOrderFills_spec haccepted
  exact ⟨entry, loop, rfl, hbooked⟩

namespace Sample

/-! ## A sample agent, market and orders -/

def market : MarketKey := ⟨"KXRAIN-26", by decide⟩

theorem hundred_pos : (0 : ℤ) < 100 := by decide

theorem twoHundred_pos : (0 : ℤ) < 200 := by decide

theorem cents_within : 0 ≤ (0 : ℤ) ∧ (0 : ℤ) < 1000000 ∧ (1000000 : ℤ) ≤ 1000000 := by decide

theorem cent_pos : (0 : ℤ) < 10000 := by decide

theorem cents_aligned : ((1000000 : ℤ) - 0) % 10000 = 0 := by decide

/-- The prices of whole cents. -/
def cents : PriceRange := ⟨0, 1000000, 10000, cents_within, cent_pos, cents_aligned⟩

theorem cents_ne_nil : [cents] ≠ [] := List.cons_ne_nil _ _

theorem cents_chain : [cents].IsChain fun previous current => previous.stop ≤ current.start :=
  List.isChain_singleton _

theorem no_text_isBlank : ∀ text ∈ (none : Option String), Text.isBlank text = false := by simp

def digest : Sha256 :=
  ⟨"0000000000000000000000000000000000000000000000000000000000000000", by decide, by decide⟩

/-- Midnight UTC at the start of 2026. -/
def moment : Datetime where
  year := 2026
  month := 1
  day := 1
  hour := 0
  minute := 0
  second := 0
  microsecond := 0
  utcoffset := some 0
  date_valid := by decide
  time_valid := by decide
  offset_valid := Datetime.utc_offset_valid

/-- The agent's order for one outcome of a market. -/
def request (key : PositionKey) (action : Side) (units : ℤ) (h : 0 < units) :
    OrderRequest where
  agentId := "agent"
  marketRef := key.1
  outcome := key.2
  action := action
  amount := units
  amountType := .contracts
  idempotencyKey := "key"
  limitPriceMicros := none
  timeInForce := .ioc
  frozenContextId := none
  frozenCutoff := none
  createdAt := moment.instant
  agentId_nonblank := by decide
  key_nonblank := by decide
  key_length := by decide
  amount_pos := h
  limit_range := by simp
  context_nonblank := no_text_isBlank

/-- A fill with the cash delta the broker gives it. -/
def fillFields (action : Side) (units price gross fee : ℤ) : EconomicFillFields where
  fillId := "fill"
  contractUnits := units
  priceMicros := price
  grossCashMicros := gross
  feeMicros := fee
  netCashDeltaMicros := if action = .buy then -gross - fee else gross - fee
  filledAt := moment.instant
  frozenContextId := none
  executionContextId := none
  authoritative := true
  estimatedFeeMicros := none
  tradeFeeMicros := 0
  roundingFeeMicros := 0
  rebateMicros := 0
  feePolicyFingerprint := none

/-- An order filled at one price. -/
def order (key : PositionKey) (action : Side) (units price gross fee : ℤ) (operationId : String)
    (hunits : 0 < units) (h : (fillFields action units price gross fee).postInit = .ok ()) :
    FilledOrder where
  request := request key action units hunits
  fills := [⟨fillFields action units price gross fee, digest, h⟩]
  operationId := operationId
  occurredAt := moment

/-- A thousand dollars and no position. -/
def portfolio : ContractPortfolio :=
  ⟨{ agentId := "agent", cashMicros := 1000000000 }, by decide⟩

end Sample

end VTrade
