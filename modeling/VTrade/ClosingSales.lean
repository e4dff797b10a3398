/-
# Closing a position by sales

A sale removes a share of the cost and of the entry fees that are left in the position, rounded half
up, and all of them with the last unit.  So whatever was rounded on the way, the sales that close a
position have removed exactly what it carried, and none of them more than was left.  For amounts of
64 bits no rounding lifts a share above what is left, so none is the reason to refuse a sale.
-/

import VTrade.OrderAcceptance

namespace VTrade

/-! ## What sales have removed -/

def soldUnits (accounting : List FillAccounting) : ℤ :=
  (accounting.map fun item => item.fill.contractUnits).sum

def removedBasis (accounting : List FillAccounting) : ℤ :=
  (accounting.map fun item => item.removedBasisMicros).sum

def removedEntryFees (accounting : List FillAccounting) : ℤ :=
  (accounting.map fun item => item.removedEntryFeesMicros).sum

@[simp] theorem soldUnits_concat (accounting : List FillAccounting) (item : FillAccounting) :
    soldUnits (accounting ++ [item]) = soldUnits accounting + item.fill.contractUnits := by
  simp [soldUnits]

@[simp] theorem removedBasis_concat (accounting : List FillAccounting) (item : FillAccounting) :
    removedBasis (accounting ++ [item]) = removedBasis accounting + item.removedBasisMicros := by
  simp [removedBasis]

@[simp] theorem removedEntryFees_concat (accounting : List FillAccounting)
    (item : FillAccounting) : removedEntryFees (accounting ++ [item]) =
      removedEntryFees accounting + item.removedEntryFeesMicros := by
  simp [removedEntryFees]

/-- What remains of the cost and of the entry fees of a position is not negative, and is nothing
when no unit remains. -/
structure Released (position : ContractPosition) (accounting : List FillAccounting) : Prop where
  basis_nonneg : 0 ≤ position.grossCostBasisMicros - removedBasis accounting
  fees_nonneg : 0 ≤ position.entryFeesMicros - removedEntryFees accounting
  basis_eq_zero : position.contractUnits - soldUnits accounting = 0 →
    position.grossCostBasisMicros - removedBasis accounting = 0
  fees_eq_zero : position.contractUnits - soldUnits accounting = 0 →
    position.entryFeesMicros - removedEntryFees accounting = 0

/-- A position is what sales took from it and what is left of it. -/
structure Divided (position : ContractPosition) (accounting : List FillAccounting)
    (left : Option ContractPosition) : Prop where
  units : position.contractUnits = soldUnits accounting + left.elim 0 fun left => left.contractUnits
  basis : position.grossCostBasisMicros =
    removedBasis accounting + left.elim 0 fun left => left.grossCostBasisMicros
  fees : position.entryFeesMicros =
    removedEntryFees accounting + left.elim 0 fun left => left.entryFeesMicros
  basis_nonneg : 0 ≤ removedBasis accounting
  fees_nonneg : 0 ≤ removedEntryFees accounting

namespace Divided

variable {position : ContractPosition} {accounting : List FillAccounting}

theorem nil (position : ContractPosition) : Divided position [] (some position) where
  units := (zero_add _).symm
  basis := (zero_add _).symm
  fees := (zero_add _).symm
  basis_nonneg := le_refl 0
  fees_nonneg := le_refl 0

theorem released {left : Option ContractPosition} (h : Divided position accounting left) :
    Released position accounting := by
  obtain ⟨hunits, hbasis, hfees, -, -⟩ := h
  rw [← sub_eq_iff_eq_add'] at hunits hbasis hfees
  cases left with
  | none =>
      exact ⟨hbasis.ge, hfees.ge, fun _ => hbasis, fun _ => hfees⟩
  | some left =>
      constructor
      · rw [hbasis]
        exact left.grossCostBasisMicros_nonneg
      · rw [hfees]
        exact left.entryFeesMicros_nonneg
      · intro hnone
        rw [hbasis]
        exact (left.carries_nothing (hunits.symm.trans hnone)).1
      · intro hnone
        rw [hfees]
        exact (left.carries_nothing (hunits.symm.trans hnone)).2

/-- A sale moves from what is left to what is taken. -/
theorem sell {request : OrderRequest} {current updated : ContractPosition} {fill : EconomicFill}
    {basis fees realized : ℤ} (h : Divided position accounting (some current))
    (hupdated : updated.toContractPositionFields = soldPosition request current fill basis fees)
    (hremoved : 0 ≤ basis ∧ 0 ≤ fees) :
    Divided position (accounting ++ [⟨fill, basis, fees, realized⟩])
      (if updated.contractUnits ≠ 0 then some updated else none) := by
  obtain ⟨hunits, hbasis, hfees, hremovedBasis, hremovedFees⟩ := h
  rw [Option.elim_some] at hunits hbasis hfees
  have hunits' : updated.contractUnits = current.contractUnits - fill.contractUnits := by
    rw [hupdated]
    rfl
  have hbasis' : updated.grossCostBasisMicros = current.grossCostBasisMicros - basis := by
    rw [hupdated]
    rfl
  have hfees' : updated.entryFeesMicros = current.entryFeesMicros - fees := by
    rw [hupdated]
    rfl
  have hleft : (if updated.contractUnits ≠ 0 then some updated else none).elim 0
        (fun left => left.contractUnits) = updated.contractUnits ∧
      (if updated.contractUnits ≠ 0 then some updated else none).elim 0
        (fun left => left.grossCostBasisMicros) = updated.grossCostBasisMicros ∧
      (if updated.contractUnits ≠ 0 then some updated else none).elim 0
        (fun left => left.entryFeesMicros) = updated.entryFeesMicros := by
    by_cases hclosed : updated.contractUnits = 0
    · -- What is dropped with the last unit carries nothing.
      obtain ⟨hnoBasis, hnoFees⟩ := updated.carries_nothing hclosed
      rw [if_neg (not_not.mpr hclosed)]
      exact ⟨hclosed.symm, hnoBasis.symm, hnoFees.symm⟩
    · rw [if_pos hclosed]
      exact ⟨rfl, rfl, rfl⟩
  obtain ⟨hleftUnits, hleftBasis, hleftFees⟩ := hleft
  constructor
  · rw [soldUnits_concat, hleftUnits, hunits, hunits']
    ring
  · rw [removedBasis_concat, hleftBasis, hbasis, hbasis']
    ring
  · rw [removedEntryFees_concat, hleftFees, hfees, hfees']
    ring
  · rw [removedBasis_concat]
    exact add_nonneg hremovedBasis hremoved.1
  · rw [removedEntryFees_concat]
    exact add_nonneg hremovedFees hremoved.2

end Divided

/-! ## Runs of sales -/

/-- A portfolio, and how the fills on the way to it are accounted for. -/
structure SalesBook where
  portfolio : ContractPortfolio
  accounting : List FillAccounting

/-- Apply one order and keep the accounting of its fills. -/
def bookSale (book : SalesBook) (order : FilledOrder) : Except Raised SalesBook := do
  let (after, _, accounting) ← applyOrderFills book.portfolio order.request order.fills
    order.operationId order.occurredAt
  .ok ⟨after, book.accounting ++ accounting⟩

/-- What a book of sales has taken from a position, after each of its fills. -/
structure SoldFrom (position : ContractPosition) (key : PositionKey) (book : SalesBook) :
    Prop where
  divided : Divided position book.accounting (book.portfolio.position key)
  released : ∀ seen, seen <+: book.accounting → Released position seen

namespace SoldFrom

variable {position : ContractPosition} {key : PositionKey} {book : SalesBook}

theorem start {portfolio : ContractPortfolio} (h : portfolio.position key = some position) :
    SoldFrom position key ⟨portfolio, []⟩ := by
  have hdivided : Divided position [] (portfolio.position key) := by
    rw [h]
    exact Divided.nil position
  refine ⟨hdivided, fun seen hseen => ?_⟩
  rw [List.prefix_nil.mp hseen]
  exact hdivided.released

/-- One more fill. -/
theorem fill {request : OrderRequest} {before : List FillAccounting} {loop next : FillLoop}
    {fill : EconomicFill} (haction : request.action = .sell) (hkey : request.positionKey = key)
    (hsold : SoldFrom position key ⟨loop.working, before ++ loop.accounting⟩)
    (h : applyFill request loop fill = .ok next) :
    SoldFrom position key ⟨next.working, before ++ next.accounting⟩ := by
  have hsell : applySellFill request loop fill = .ok next := by
    simpa only [applyFill, haction] using h
  obtain ⟨current, -, -, hcurrent, -⟩ := applySellFill_spec haction hsell
  obtain ⟨updated, hupdated, hposition, haccounting, -⟩ := applySellFill_position hcurrent hsell
  have hdivided := hsold.divided
  rw [hkey] at hcurrent hposition
  dsimp only at hdivided
  rw [hcurrent] at hdivided
  have hnext : Divided position (before ++ next.accounting) (next.working.position key) := by
    rw [hposition, haccounting, ← List.append_assoc]
    exact hdivided.sell hupdated ⟨share_nonneg current.grossCostBasisMicros_nonneg _ _,
      share_nonneg current.entryFeesMicros_nonneg _ _⟩
  refine ⟨hnext, fun seen hseen => ?_⟩
  dsimp only at hseen
  rw [haccounting, ← List.append_assoc, List.prefix_concat_iff, List.append_assoc,
    ← haccounting] at hseen
  rcases hseen with rfl | hseen
  · exact hnext.released
  · exact hsold.released seen hseen

/-- One more sale. -/
theorem sale {next : SalesBook} {order : FilledOrder} (haction : order.request.action = .sell)
    (hkey : order.request.positionKey = key) (hsold : SoldFrom position key book)
    (h : bookSale book order = .ok next) : SoldFrom position key next := by
  obtain ⟨⟨after, entry, accounting⟩, haccepted, h⟩ := Checks.bind_eq_ok.mp h
  obtain rfl := Except.ok.inj h
  obtain ⟨loop, rfl, hbooked⟩ := applyOrderFills_spec haccepted
  have hstart : SoldFrom position key
      ⟨(FillLoop.start book.portfolio).working,
        book.accounting ++ (FillLoop.start book.portfolio).accounting⟩ := by
    unfold FillLoop.start
    rw [List.append_nil]
    exact hsold
  have hloop := Checks.foldlM_invariant
    (fun _ loop => SoldFrom position key ⟨loop.working, book.accounting ++ loop.accounting⟩) []
    (fun _ _ _ _ _ hstate hstep => hstate.fill haction hkey hstep) hbooked.run hstart
  have hposition : after.position key = loop.working.position key :=
    KeyedList.lookup_eq_of_perm hbooked.positions after.unique_keys key
  refine ⟨?_, hloop.released⟩
  dsimp only
  rw [hposition]
  exact hloop.divided

/-- Any number of sales. -/
theorem run {final : SalesBook} {orders : List FilledOrder}
    (hsales : ∀ order ∈ orders,
      order.request.action = .sell ∧ order.request.positionKey = key)
    (hsold : SoldFrom position key book) (h : orders.foldlM bookSale book = .ok final) :
    SoldFrom position key final :=
  Checks.foldlM_invariant (fun _ book => SoldFrom position key book) []
    (fun _ _ order _ hmem hstate hstep =>
      hstate.sale (hsales order hmem).1 (hsales order hmem).2 hstep) h hsold

end SoldFrom

/-- The fills of a sale of owned units that bring cash go through the fill loop. -/
def ContractPortfolio.Sellable (portfolio : ContractPortfolio) (key : PositionKey) : Prop :=
  ∀ (current : ContractPosition) (request : OrderRequest) (fills : List EconomicFill),
    portfolio.position key = some current → request.action = .sell → request.positionKey = key →
    (fills.map fun fill => fill.contractUnits).sum ≤ current.contractUnits →
    (∀ fill ∈ fills, 0 < fill.netCashDeltaMicros) →
    ∃ loop, fills.foldlM (applyFill request) (FillLoop.start portfolio) = .ok loop

namespace SoldFrom

variable {position : ContractPosition} {key : PositionKey} {book : SalesBook}

/-- A share of amounts of 64 bits never exceeds what is left of them. -/
theorem sellable (hbasis : position.grossCostBasisMicros < 2 ^ 63)
    (hfees : position.entryFeesMicros < 2 ^ 63) (hsold : SoldFrom position key book) :
    book.portfolio.Sellable key := by
  intro current request fills hcurrent haction hkey hunits hnet
  have hdivided := hsold.divided
  rw [hcurrent] at hdivided
  have hbasisLe : current.grossCostBasisMicros ≤ position.grossCostBasisMicros := by
    rw [hdivided.basis]
    exact le_add_of_nonneg_left hdivided.basis_nonneg
  have hfeesLe : current.entryFeesMicros ≤ position.entryFeesMicros := by
    rw [hdivided.fees]
    exact le_add_of_nonneg_left hdivided.fees_nonneg
  have hparts : ∀ part ∈ fills.map fun fill => fill.contractUnits, 0 ≤ part := by
    intro part hmem
    obtain ⟨fill, -, rfl⟩ := List.mem_map.mp hmem
    exact fill.contractUnits_pos.le
  have hlarge : (2 : ℤ) ^ 63 < 10 ^ 26 := by norm_num
  rw [← hkey] at hcurrent
  apply (sellLoop_isOk_iff haction (FillLoop.start book.portfolio) hcurrent hunits hnet).mpr
  constructor
  · exact sharesFit_of_lt current.grossCostBasisMicros_nonneg
      (hbasisLe.trans_lt (hbasis.trans hlarge)) hparts hunits
  · exact sharesFit_of_lt current.entryFeesMicros_nonneg
      (hfeesLe.trans_lt (hfees.trans hlarge)) hparts hunits

/-- Whatever sales of a position are booked, the sales that close it have removed exactly its cost
and its entry fees; after each fill what remains is not negative, and is nothing when no unit
remains; and no further sale is refused for its shares. -/
theorem closing_sales {portfolio : ContractPortfolio} {orders : List FilledOrder}
    {final : SalesBook} (hposition : portfolio.position key = some position)
    (hbasis : position.grossCostBasisMicros < 2 ^ 63) (hfees : position.entryFeesMicros < 2 ^ 63)
    (hsales : ∀ order ∈ orders,
      order.request.action = .sell ∧ order.request.positionKey = key)
    (h : orders.foldlM bookSale ⟨portfolio, []⟩ = .ok final) :
    (final.portfolio.position key = none →
      removedBasis final.accounting = position.grossCostBasisMicros ∧
        removedEntryFees final.accounting = position.entryFeesMicros) ∧
    (∀ seen, seen <+: final.accounting → Released position seen) ∧
    final.portfolio.Sellable key := by
  have hsold := (start hposition).run hsales h
  refine ⟨fun hclosed => ?_, hsold.released, hsold.sellable hbasis hfees⟩
  have hdivided := hsold.divided
  rw [hclosed] at hdivided
  obtain ⟨-, hcost, hentryFees, -, -⟩ := hdivided
  rw [Option.elim_none, add_zero] at hcost hentryFees
  exact ⟨hcost.symm, hentryFees.symm⟩

end SoldFrom

namespace Sample

theorem thirds_valid : ContractPositionFields.postInit {
    marketRef := market
    outcome := .yes
    contractUnits := 300
    grossCostBasisMicros := 1000000
    entryFeesMicros := 500
    updatedAt := moment.instant } = .ok () := by decide

/-- Three contracts, each of which is a third of a dollar and of its entry fees. -/
def thirds : ContractPosition := ⟨_, thirds_valid⟩

theorem holdsThirds_valid : ContractPortfolioFields.postInit {
    agentId := "agent"
    cashMicros := 1000000000
    positions := [thirds] } = .ok () := by decide

def holdsThirds : ContractPortfolio := ⟨_, holdsThirds_valid⟩

theorem thirdSale_fill : (fillFields .sell 100 500000 500000 100).postInit = .ok () := by decide

def thirdSale : FilledOrder :=
  order (market, .yes) .sell 100 500000 500000 100 "sell" hundred_pos thirdSale_fill

/-- Three sales of a contract each close the position, although its thirds are not whole. -/
theorem thirdSales_close : ∃ final,
    [thirdSale, thirdSale, thirdSale].foldlM bookSale ⟨holdsThirds, []⟩ = .ok final ∧
      final.accounting.map (fun item => item.removedBasisMicros) = [333333, 333334, 333333] ∧
      final.accounting.map (fun item => item.removedEntryFeesMicros) = [167, 167, 166] ∧
      removedBasis final.accounting = thirds.grossCostBasisMicros ∧
      removedEntryFees final.accounting = thirds.entryFeesMicros ∧
      (∀ seen, seen <+: final.accounting → Released thirds seen) ∧
      final.portfolio.Sellable (market, .yes) := by
  obtain ⟨final, hrun, htest⟩ := Checks.exists_ok_of_any
    ([thirdSale, thirdSale, thirdSale].foldlM bookSale ⟨holdsThirds, []⟩)
    (fun book => book.portfolio.position (market, .yes) = none ∧
      book.accounting.map (fun item => item.removedBasisMicros) = [333333, 333334, 333333] ∧
      book.accounting.map (fun item => item.removedEntryFeesMicros) = [167, 167, 166])
    (by decide +kernel)
  obtain ⟨hclosed, hbasis, hfees⟩ := of_decide_eq_true htest
  have hposition : holdsThirds.position (market, .yes) = some thirds := by decide
  have hsales : ∀ order ∈ [thirdSale, thirdSale, thirdSale],
      order.request.action = .sell ∧ order.request.positionKey = (market, .yes) := by
    intro order hmem
    simp only [List.mem_cons, List.not_mem_nil, or_false, or_self] at hmem
    rw [hmem]
    exact ⟨rfl, rfl⟩
  obtain ⟨hremoved, hreleased, hsellable⟩ :=
    SoldFrom.closing_sales hposition (by decide) (by decide) hsales hrun
  exact ⟨final, hrun, hbasis, hfees, (hremoved hclosed).1, (hremoved hclosed).2, hreleased,
    hsellable⟩

end Sample

end VTrade
