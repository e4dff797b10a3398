/-
# When an order is accepted

`applyOrderFills` refuses an order at the first check that fails, in the fill
loop, in the postings or in the ledger entry.  Here the checks are put together:
a purchase within cash is accepted when its cash deltas add up; a sale of owned
units is accepted when, besides, no share it removes exceeds what is left and it
does not charge fees while releasing none.

What a sale removes is a function of the position before it and of the units of
its fills.
-/

import Mathlib.Algebra.Order.BigOperators.Group.List
import VTrade.Accounting

namespace VTrade

/-! ## Shares -/

/-- The share of `total` that `part` is of `whole`, for a part of the whole. -/
def share (total part whole : ℤ) : ℤ :=
  if part = whole then total else decimalShare total part whole

theorem proRata_eq_ok_iff {total part whole removed : ℤ} :
    proRata total part whole = .ok removed ↔
      0 ≤ total ∧ 0 ≤ part ∧ 0 < whole ∧ part ≤ whole ∧ removed = share total part whole := by
  unfold proRata share
  by_cases hbad : total < 0 ∨ part < 0 ∨ whole ≤ 0 ∨ part > whole
  · rw [if_pos hbad]
    constructor
    · intro h
      cases h
    · omega
  · rw [if_neg hbad]
    split
    · rw [Except.ok.injEq]
      omega
    · rw [Except.ok.injEq]
      omega

theorem decimalShare_nonneg (total part whole : ℤ) : 0 ≤ decimalShare total part whole :=
  Int.natCast_nonneg _

theorem share_nonneg {total : ℤ} (h : 0 ≤ total) (part whole : ℤ) : 0 ≤ share total part whole := by
  unfold share
  split
  · exact h
  · exact decimalShare_nonneg total part whole

/-- Below `10 ^ 26` the rounding of the share never lifts it above the total. -/
theorem share_le {total part whole : ℤ} (htotal : 0 ≤ total) (hlarge : total < 10 ^ 26)
    (hpart : 0 ≤ part) (hwhole : part ≤ whole) : share total part whole ≤ total := by
  unfold share
  split
  · exact le_refl total
  next hne =>
    obtain ⟨t, rfl⟩ := Int.eq_ofNat_of_zero_le htotal
    obtain ⟨p, rfl⟩ := Int.eq_ofNat_of_zero_le hpart
    obtain ⟨w, rfl⟩ := Int.eq_ofNat_of_zero_le (hpart.trans hwhole)
    have hw : 0 < w := by omega
    have hpw : p ≤ w := by omega
    have ht : t < 10 ^ 26 := by exact_mod_cast hlarge
    unfold decimalShare
    simp only [Int.toNat_natCast]
    set product := DecimalContext.mul 28 (.ofNat t) (.ofNat p) with hproduct
    have hproductValue : product.value ≤ t * p * (1 + DecimalContext.relativeError 28) :=
      calc
        product.value ≤ (⟨t * p, 1 * 1⟩ : DecimalContext.Fraction).value *
            (1 + DecimalContext.relativeError 28) :=
          DecimalContext.value_round_le 28 Nat.one_pos
        _ = t * p * (1 + DecimalContext.relativeError 28) := by
          simp [DecimalContext.Fraction.value]
    have hproductDen : 0 < product.den := DecimalContext.round_den_pos _ _
    have hquotient := @DecimalContext.value_round_le 28 ⟨product.num * 1, product.den * w⟩
      (Nat.mul_pos hproductDen hw)
    have hvalue : (⟨product.num * 1, product.den * w⟩ : DecimalContext.Fraction).value =
        product.value / w := by
      simp only [DecimalContext.Fraction.value]
      push_cast
      rw [mul_one, div_div]
    rw [hvalue] at hquotient
    apply Int.ofNat_le.mpr
    apply DecimalContext.toIntegralHalfUp_le (DecimalContext.round_den_pos _ _)
    refine lt_of_le_of_lt hquotient ?_
    have hwq : (0 : ℚ) < w := by exact_mod_cast hw
    have hratio : (t : ℚ) * p / w ≤ t := by
      rw [div_le_iff₀ hwq]
      have : (p : ℚ) ≤ w := by exact_mod_cast hpw
      have : (0 : ℚ) ≤ t := by positivity
      gcongr
    have herror : DecimalContext.relativeError 28 = 1 / (2 * 10 ^ 27) := by
      unfold DecimalContext.relativeError
      norm_num
    have htq : (t : ℚ) < 10 ^ 26 := by exact_mod_cast ht
    calc
      product.value / w * (1 + DecimalContext.relativeError 28)
        ≤ t * p * (1 + DecimalContext.relativeError 28) / w *
            (1 + DecimalContext.relativeError 28) := by
          have := DecimalContext.relativeError_pos 28
          gcongr
      _ = t * p / w * (1 + DecimalContext.relativeError 28) ^ 2 := by ring
      _ ≤ t * (1 + DecimalContext.relativeError 28) ^ 2 := by
          gcongr
      _ < t + 1 / 2 := by
          rw [herror]
          nlinarith

/-- What selling `parts` out of `units` removes from `total`, share by share. -/
def removedShares (units total : ℤ) : List ℤ → ℤ
  | [] => 0
  | part :: rest => share total part units +
      removedShares (units - part) (total - share total part units) rest

/-- No share that selling `parts` out of `units` removes from `total` exceeds
what is left of it. -/
def SharesFit (units total : ℤ) : List ℤ → Prop
  | [] => True
  | part :: rest => share total part units ≤ total ∧
      SharesFit (units - part) (total - share total part units) rest

instance SharesFit.decidable (units total : ℤ) : (parts : List ℤ) →
    Decidable (SharesFit units total parts)
  | [] => isTrue trivial
  | _ :: rest => @instDecidableAnd _ _ (Int.decLe _ _) (SharesFit.decidable _ _ rest)

/-- The shares of ordinary amounts fit. -/
theorem sharesFit_of_lt {units total : ℤ} {parts : List ℤ} (htotal : 0 ≤ total)
    (hlarge : total < 10 ^ 26) (hparts : ∀ part ∈ parts, 0 ≤ part) (hunits : parts.sum ≤ units) :
    SharesFit units total parts := by
  induction parts generalizing units total with
  | nil => trivial
  | cons part rest ih =>
      rw [List.forall_mem_cons] at hparts
      have hrest := List.sum_nonneg hparts.2
      rw [List.sum_cons] at hunits
      have hfirst := share_le htotal hlarge hparts.1 (show part ≤ units by omega)
      have hnonneg := share_nonneg htotal part units
      exact ⟨hfirst, ih (by omega) (by omega) hparts.2 (by omega)⟩

/-! ## One fill -/

theorem replacePosition_position {portfolio updated : ContractPortfolio}
    {position : ContractPosition} {cashMicros realizedPnlMicros : ℤ}
    (h : replacePosition portfolio position cashMicros realizedPnlMicros = .ok updated) :
    updated.position position.key = if position.contractUnits ≠ 0 then some position else none := by
  have hfields := ContractPortfolio.make_eq_ok_iff.mp h
  have hperm : updated.positions.Perm (if position.contractUnits ≠ 0 then
      KeyedList.erase ContractPosition.key position.key portfolio.positions ++ [position]
      else KeyedList.erase ContractPosition.key position.key portfolio.positions) := by
    rw [hfields]
    exact sortPositions_perm _
  unfold ContractPortfolio.position
  rw [KeyedList.lookup_eq_of_perm hperm updated.unique_keys]
  split
  next hopen =>
    rw [KeyedList.lookup_eq_of_perm (List.perm_append_singleton _ _)
      (((hperm.trans (by rw [if_pos hopen])).map _).nodup_iff.mp updated.unique_keys)]
    exact KeyedList.lookup_cons_self _ _ _
  next => exact KeyedList.lookup_erase_self _ _

/-- Replacing a position only needs the new cash not to be negative. -/
theorem replacePosition_isOk (portfolio : ContractPortfolio) (position : ContractPosition)
    {cashMicros : ℤ} (realizedPnlMicros : ℤ) (hcash : 0 ≤ cashMicros) :
    ∃ updated, replacePosition portfolio position cashMicros realizedPnlMicros = .ok updated := by
  have hvalid (positions : List ContractPosition)
      (hunique : (positions.map ContractPosition.key).Nodup) : ContractPortfolioFields.postInit {
        agentId := portfolio.agentId
        cashMicros := cashMicros
        positions := sortPositions positions
        version := portfolio.version
        reconciliationBlocked := portfolio.reconciliationBlocked
        realizedPnlMicros := realizedPnlMicros } = .ok () :=
    ContractPortfolio.postInit_eq_ok_iff.mpr ⟨portfolio.agentId_ne_empty, hcash,
      portfolio.version_nonneg,
      ((sortPositions_perm positions).map ContractPosition.key).nodup_iff.mpr hunique⟩
  refine ⟨_, ContractPortfolio.make_eq_ok (hvalid _ ?_)⟩
  split
  · rw [((List.perm_append_singleton _ _).map ContractPosition.key).nodup_iff]
    exact KeyedList.nodup_cons_erase portfolio.unique_keys position
  · exact KeyedList.nodup_erase portfolio.unique_keys _

theorem boughtPosition_valid (request : OrderRequest) (current : Option ContractPosition)
    (fill : EconomicFill) : (boughtPosition request current fill).postInit = .ok () := by
  have hunits := fill.contractUnits_pos
  have hgross := fill.grossCashMicros_nonneg
  have hfee := fill.feeMicros_nonneg
  rw [ContractPosition.postInit_eq_ok_iff]
  cases current with
  | none =>
      simp only [boughtPosition, Option.elim_none]
      omega
  | some current =>
      have h1 := current.contractUnits_nonneg
      have h2 := current.grossCostBasisMicros_nonneg
      have h3 := current.entryFeesMicros_nonneg
      simp only [boughtPosition, Option.elim_some]
      omega

/-- A BUY fill that takes cash is booked as long as there is that much. -/
theorem applyBuyFill_isOk (request : OrderRequest) (loop : FillLoop) {fill : EconomicFill}
    (hnet : fill.netCashDeltaMicros < 0)
    (hcash : 0 ≤ loop.working.cashMicros + fill.netCashDeltaMicros) :
    ∃ next, applyBuyFill request loop fill = .ok next ∧
      next.working.cashMicros = loop.working.cashMicros + fill.netCashDeltaMicros := by
  have hupdated := ContractPosition.make_eq_ok
    (boughtPosition_valid request (loop.working.position request.positionKey) fill)
  obtain ⟨working, hworking⟩ := replacePosition_isOk loop.working
    ⟨_, boughtPosition_valid request (loop.working.position request.positionKey) fill⟩
    loop.working.realizedPnlMicros hcash
  have hcashMicros := (replacePosition_spec hworking).2.2.1
  unfold applyBuyFill
  rw [hupdated]
  simp only [bind, Except.bind]
  rw [if_neg (not_le.mpr hnet), hworking]
  simp only [if_neg (not_lt.mpr (hcashMicros ▸ hcash : 0 ≤ working.cashMicros))]
  exact ⟨_, rfl, hcashMicros⟩

/-- A purchase that adds up and is within cash goes through the fill loop. -/
theorem buyLoop_isOk {request : OrderRequest} (haction : request.action = .buy)
    {fills : List EconomicFill} (loop : FillLoop)
    (hnet : ∀ fill ∈ fills, fill.netCashDeltaMicros < 0)
    (hcash : 0 ≤ loop.working.cashMicros +
      (fills.map fun fill => fill.netCashDeltaMicros).sum) :
    ∃ final, fills.foldlM (applyFill request) loop = .ok final := by
  induction fills generalizing loop with
  | nil => exact ⟨loop, rfl⟩
  | cons fill rest ih =>
      have hrest : (rest.map fun fill => fill.netCashDeltaMicros).sum ≤ 0 :=
        (List.sum_le_card_nsmul _ 0 fun amount hmem => by
          obtain ⟨other, hother, rfl⟩ := List.mem_map.mp hmem
          exact (hnet other (List.mem_cons_of_mem _ hother)).le).trans_eq (nsmul_zero _)
      rw [List.map_cons, List.sum_cons] at hcash
      obtain ⟨next, hnext, hworking⟩ := applyBuyFill_isOk request loop
        (hnet fill List.mem_cons_self) (by omega)
      obtain ⟨final, hfinal⟩ := ih next
        (fun other hmem => hnet other (List.mem_cons_of_mem _ hmem)) (by omega)
      refine ⟨final, Checks.foldlM_cons_eq_ok.mpr ⟨next, ?_, hfinal⟩⟩
      simp only [applyFill, haction, hnext]

theorem soldPosition_valid_iff (request : OrderRequest) {current : ContractPosition}
    {fill : EconomicFill} (hunits : fill.contractUnits ≤ current.contractUnits) :
    (soldPosition request current fill
        (share current.grossCostBasisMicros fill.contractUnits current.contractUnits)
        (share current.entryFeesMicros fill.contractUnits current.contractUnits)).postInit =
        .ok () ↔
      share current.grossCostBasisMicros fill.contractUnits current.contractUnits ≤
          current.grossCostBasisMicros ∧
        share current.entryFeesMicros fill.contractUnits current.contractUnits ≤
          current.entryFeesMicros := by
  rw [ContractPosition.postInit_eq_ok_iff]
  simp only [soldPosition]
  constructor
  · omega
  · rintro ⟨hbasis, hfees⟩
    refine ⟨by omega, by omega, by omega, fun hclosed => ?_⟩
    -- A sale of everything removes everything.
    have hall : fill.contractUnits = current.contractUnits := by omega
    simp [share, hall]

/-- A SELL fill of owned units that brings cash is booked exactly when its shares fit. -/
theorem applySellFill_isOk_iff {request : OrderRequest} {loop : FillLoop}
    {current : ContractPosition} {fill : EconomicFill}
    (hcurrent : loop.working.position request.positionKey = some current)
    (hunits : fill.contractUnits ≤ current.contractUnits) (hnet : 0 < fill.netCashDeltaMicros) :
    (∃ next, applySellFill request loop fill = .ok next) ↔
      share current.grossCostBasisMicros fill.contractUnits current.contractUnits ≤
          current.grossCostBasisMicros ∧
        share current.entryFeesMicros fill.contractUnits current.contractUnits ≤
          current.entryFeesMicros := by
  have hpos := fill.contractUnits_pos
  have hbasis := proRata_eq_ok_iff.mpr ⟨current.grossCostBasisMicros_nonneg, hpos.le,
    lt_of_lt_of_le hpos hunits, hunits, rfl⟩
  have hfees := proRata_eq_ok_iff.mpr ⟨current.entryFeesMicros_nonneg, hpos.le,
    lt_of_lt_of_le hpos hunits, hunits, rfl⟩
  rw [← soldPosition_valid_iff request hunits]
  unfold applySellFill
  rw [hcurrent]
  simp only [if_neg (not_lt.mpr hunits), hbasis, hfees, bind, Except.bind]
  constructor
  · rintro ⟨next, h⟩
    cases hsold : ContractPosition.make (soldPosition request current fill
        (share current.grossCostBasisMicros fill.contractUnits current.contractUnits)
        (share current.entryFeesMicros fill.contractUnits current.contractUnits)) with
    | error error =>
        rw [hsold] at h
        cases h
    | ok updated =>
        rw [← ContractPosition.make_eq_ok_iff.mp hsold]
        exact updated.valid
  · intro hvalid
    rw [ContractPosition.make_eq_ok hvalid]
    have hcash : 0 ≤ loop.working.cashMicros + fill.netCashDeltaMicros := by
      have := loop.working.cashMicros_nonneg
      omega
    obtain ⟨working, hworking⟩ := replacePosition_isOk loop.working ⟨_, hvalid⟩
      (loop.working.realizedPnlMicros + (fill.grossCashMicros -
        share current.grossCostBasisMicros fill.contractUnits current.contractUnits -
        share current.entryFeesMicros fill.contractUnits current.contractUnits -
        fill.feeMicros)) hcash
    have hcashMicros := (replacePosition_spec hworking).2.2.1
    simp only [if_neg (not_le.mpr hnet), hworking]
    rw [if_neg (by rw [hcashMicros]; exact not_lt.mpr hcash)]
    exact ⟨_, rfl⟩

/-- What a booked SELL fill removes is its shares, and the position is what is left. -/
theorem applySellFill_position {request : OrderRequest} {loop next : FillLoop}
    {current : ContractPosition} {fill : EconomicFill}
    (hcurrent : loop.working.position request.positionKey = some current)
    (h : applySellFill request loop fill = .ok next) :
    ∃ updated : ContractPosition,
      updated.toContractPositionFields = soldPosition request current fill
        (share current.grossCostBasisMicros fill.contractUnits current.contractUnits)
        (share current.entryFeesMicros fill.contractUnits current.contractUnits) ∧
      next.working.position request.positionKey =
        (if updated.contractUnits ≠ 0 then some updated else none) ∧
      next.accounting = loop.accounting ++ [⟨fill,
        share current.grossCostBasisMicros fill.contractUnits current.contractUnits,
        share current.entryFeesMicros fill.contractUnits current.contractUnits,
        fill.grossCashMicros -
          share current.grossCostBasisMicros fill.contractUnits current.contractUnits -
          share current.entryFeesMicros fill.contractUnits current.contractUnits -
          fill.feeMicros⟩] ∧
      next.positionCostDelta = loop.positionCostDelta -
        share current.grossCostBasisMicros fill.contractUnits current.contractUnits := by
  unfold applySellFill at h
  rw [hcurrent] at h
  by_cases hunits : current.contractUnits < fill.contractUnits
  · simp only [if_pos hunits] at h
    cases h
  simp only [if_neg hunits] at h
  obtain ⟨removedBasis, hbasis, h⟩ := Checks.bind_eq_ok.mp h
  obtain ⟨removedFees, hfees, h⟩ := Checks.bind_eq_ok.mp h
  obtain ⟨updated, hupdated, h⟩ := Checks.bind_eq_ok.mp h
  split_ifs at h with hnet
  obtain ⟨working, hworking, h⟩ := Checks.bind_eq_ok.mp h
  split_ifs at h with hcash
  cases h
  obtain rfl := (proRata_eq_ok_iff.mp hbasis).2.2.2.2
  obtain rfl := (proRata_eq_ok_iff.mp hfees).2.2.2.2
  have hfields := ContractPosition.make_eq_ok_iff.mp hupdated
  have hkey : updated.key = request.positionKey := by
    simp [ContractPosition.key, OrderRequest.positionKey, hfields, soldPosition]
  refine ⟨updated, hfields, ?_, rfl, rfl⟩
  rw [← hkey]
  exact replacePosition_position hworking

/-- A sale of owned units that brings cash goes through the fill loop exactly
when its shares fit. -/
theorem sellLoop_isOk_iff {request : OrderRequest} (haction : request.action = .sell)
    {fills : List EconomicFill} (loop : FillLoop) {current : ContractPosition}
    (hcurrent : loop.working.position request.positionKey = some current)
    (hunits : (fills.map fun fill => fill.contractUnits).sum ≤ current.contractUnits)
    (hnet : ∀ fill ∈ fills, 0 < fill.netCashDeltaMicros) :
    (∃ final, fills.foldlM (applyFill request) loop = .ok final) ↔
      SharesFit current.contractUnits current.grossCostBasisMicros
          (fills.map fun fill => fill.contractUnits) ∧
        SharesFit current.contractUnits current.entryFeesMicros
          (fills.map fun fill => fill.contractUnits) := by
  induction fills generalizing loop current with
  | nil => exact ⟨fun _ => ⟨trivial, trivial⟩, fun _ => ⟨loop, rfl⟩⟩
  | cons fill rest ih =>
      have hrestUnits : ∀ units ∈ rest.map fun fill => fill.contractUnits, 0 < units := by
        intro units hmem
        obtain ⟨other, -, rfl⟩ := List.mem_map.mp hmem
        exact other.contractUnits_pos
      rw [List.map_cons, List.sum_cons] at hunits
      have hrestSum := List.sum_nonneg fun units hmem => (hrestUnits units hmem).le
      have hfillUnits : fill.contractUnits ≤ current.contractUnits := by omega
      have hstep := applySellFill_isOk_iff hcurrent hfillUnits (hnet fill List.mem_cons_self)
      have happly : applyFill request loop fill = applySellFill request loop fill := by
        simp only [applyFill, haction]
      have hnext : ∀ next, applySellFill request loop fill = .ok next →
          ((∃ final, rest.foldlM (applyFill request) next = .ok final) ↔
            SharesFit (current.contractUnits - fill.contractUnits)
                (current.grossCostBasisMicros -
                  share current.grossCostBasisMicros fill.contractUnits current.contractUnits)
                (rest.map fun fill => fill.contractUnits) ∧
              SharesFit (current.contractUnits - fill.contractUnits)
                (current.entryFeesMicros -
                  share current.entryFeesMicros fill.contractUnits current.contractUnits)
                (rest.map fun fill => fill.contractUnits)) := by
        intro next hsell
        obtain ⟨updated, hfields, hposition, -, -⟩ := applySellFill_position hcurrent hsell
        by_cases hclosed : updated.contractUnits = 0
        · -- The fill sold everything, so no fill can follow it.
          have hsold : current.contractUnits - fill.contractUnits = 0 := by
            rw [hfields] at hclosed
            exact hclosed
          have hempty : rest = [] := by
            by_contra hrest
            have hpos := List.sum_pos _ hrestUnits (by simpa using hrest)
            omega
          subst hempty
          exact ⟨fun _ => ⟨trivial, trivial⟩, fun _ => ⟨next, rfl⟩⟩
        · rw [if_pos hclosed] at hposition
          have hleft : updated.contractUnits = current.contractUnits - fill.contractUnits := by
            rw [hfields]
            rfl
          have hrest := ih next hposition (by omega)
            (fun other hmem => hnet other (List.mem_cons_of_mem _ hmem))
          rw [hfields] at hrest
          exact hrest
      constructor
      · rintro ⟨final, hrun⟩
        obtain ⟨next, hfirst, hrest⟩ := Checks.foldlM_cons_eq_ok.mp hrun
        rw [happly] at hfirst
        obtain ⟨hbasis, hfees⟩ := hstep.mp ⟨next, hfirst⟩
        obtain ⟨hbasis', hfees'⟩ := (hnext next hfirst).mp ⟨final, hrest⟩
        exact ⟨⟨hbasis, hbasis'⟩, ⟨hfees, hfees'⟩⟩
      · rintro ⟨⟨hbasis, hbasis'⟩, ⟨hfees, hfees'⟩⟩
        obtain ⟨next, hfirst⟩ := hstep.mpr ⟨hbasis, hfees⟩
        obtain ⟨final, hrest⟩ := (hnext next hfirst).mpr ⟨hbasis', hfees'⟩
        exact ⟨final, Checks.foldlM_cons_eq_ok.mpr ⟨next, happly ▸ hfirst, hrest⟩⟩

/-- The entry fees and the cost that a sale removes are the shares of the position
before it. -/
theorem sellLoop_removed {request : OrderRequest} (haction : request.action = .sell)
    {fills : List EconomicFill} (loop : FillLoop) {final : FillLoop} {current : ContractPosition}
    (hcurrent : loop.working.position request.positionKey = some current)
    (hrun : fills.foldlM (applyFill request) loop = .ok final) :
    (final.accounting.map fun item => item.removedEntryFeesMicros).sum =
        (loop.accounting.map fun item => item.removedEntryFeesMicros).sum +
          removedShares current.contractUnits current.entryFeesMicros
            (fills.map fun fill => fill.contractUnits) ∧
      final.positionCostDelta = loop.positionCostDelta -
        removedShares current.contractUnits current.grossCostBasisMicros
          (fills.map fun fill => fill.contractUnits) := by
  induction fills generalizing loop current with
  | nil =>
      rw [Checks.foldlM_nil_eq_ok.mp hrun]
      simp [removedShares]
  | cons fill rest ih =>
      obtain ⟨next, hfirst, hrest⟩ := Checks.foldlM_cons_eq_ok.mp hrun
      have hsell : applySellFill request loop fill = .ok next := by
        simpa only [applyFill, haction] using hfirst
      obtain ⟨updated, hfields, hposition, haccounting, hcost⟩ :=
        applySellFill_position hcurrent hsell
      have hsum : (next.accounting.map fun item => item.removedEntryFeesMicros).sum =
          (loop.accounting.map fun item => item.removedEntryFeesMicros).sum +
            share current.entryFeesMicros fill.contractUnits current.contractUnits := by
        simp [haccounting]
      by_cases hclosed : updated.contractUnits = 0
      · rw [if_neg (not_not.mpr hclosed)] at hposition
        cases rest with
        | nil =>
            rw [← Checks.foldlM_nil_eq_ok.mp hrest, hsum, hcost]
            simp [removedShares]
        | cons other others =>
            -- A closed position cannot be sold from.
            obtain ⟨last, hlast, -⟩ := Checks.foldlM_cons_eq_ok.mp hrest
            simp only [applyFill, haction, applySellFill, hposition] at hlast
            cases hlast
      · rw [if_pos hclosed] at hposition
        obtain ⟨hfees, hbasis⟩ := ih next hposition hrest
        rw [hfees, hsum, hbasis, hcost, List.map_cons, removedShares, removedShares, hfields]
        simp only [soldPosition]
        constructor <;> ring

/-! ## The whole order -/

/-- The amounts an entry of postings states add up to the movement's imbalance. -/
theorem sum_postings_eq_imbalance {postings : List Posting}
    {movement : Books.Movement PositionKey} {expense : ℤ}
    (h : (postingsOf movement expense).postings = .ok postings) :
    (postings.map fun posting => posting.amountMicros).sum = movement.imbalance := by
  have hfields := Posting.mapM_make_eq_ok_iff.mp h
  have hmap : (postings.map fun posting => posting.amountMicros) =
      (postings.map Posting.toPostingFields).map fun posting => posting.amountMicros := by
    simp [List.map_map, Function.comp_def]
  rw [hmap, hfields, MovementPostings.fields, postingsOf, Books.Movement.imbalance]
  by_cases hfees : movement.fees + expense = 0 <;>
    by_cases hresult : movement.realized + expense = 0 <;>
    simp [hfees, hresult, PostingFields.ofCash, PostingFields.ofCost, PostingFields.ofFees,
      PostingFields.ofResult] <;> omega

/-- An order is accepted when its fills go through the loop, its postings can be
built and they balance. -/
theorem applyOrderFills_isOk_iff {portfolio : ContractPortfolio} {request : OrderRequest}
    {fills : List EconomicFill} {operationId : String} {occurredAt : Datetime} :
    (∃ result, applyOrderFills portfolio request fills operationId occurredAt = .ok result) ↔
      request.agentId = portfolio.agentId ∧ fills ≠ [] ∧ occurredAt.isAware = true ∧
        ∃ loop, fills.foldlM (applyFill request) (FillLoop.start portfolio) = .ok loop ∧
          (∃ postings, (orderPostings request loop).postings = .ok postings) ∧
          (loop.movement request).imbalance = 0 := by
  constructor
  · rintro ⟨⟨after, entry, accounting⟩, h⟩
    have hagent : request.agentId = portfolio.agentId := by
      by_contra hagent
      rw [applyOrderFills, if_pos hagent] at h
      cases h
    have hfills : fills ≠ [] := by
      intro hfills
      rw [applyOrderFills, if_neg (not_not.mpr hagent), if_pos hfills] at h
      cases h
    have haware : occurredAt.isAware = true := by
      by_contra haware
      rw [applyOrderFills, if_neg (not_not.mpr hagent), if_neg hfills,
        if_pos (Bool.not_eq_true _ ▸ haware)] at h
      cases h
    obtain ⟨loop, -, hbooked⟩ := applyOrderFills_spec h
    exact ⟨hagent, hfills, haware, loop, hbooked.run,
      ⟨entry.postings, Posting.mapM_make_eq_ok_iff.mpr hbooked.posts⟩,
      imbalance_eq_zero_of_posts hbooked.posts_movement⟩
  · rintro ⟨hagent, hfills, haware, loop, hrun, ⟨postings, hpostings⟩, hbalanced⟩
    have hmovement := (LoopTotals.of_foldlM hrun).orderPostings_eq
    have hsum := sum_postings_eq_imbalance (hmovement ▸ hpostings)
    have hnonempty : postings ≠ [] := by
      intro hempty
      have hfields := Posting.mapM_make_eq_ok_iff.mp hpostings
      rw [hempty] at hfields
      cases hfields
    have hentry := LedgerEntry.make_eq_ok ("ledger-order-" ++ operationId) portfolio.agentId
      ("order-accounting:" ++ operationId) "paper_order_fill" hnonempty (hsum.trans hbalanced)
      haware
    have hvalid : ContractPortfolioFields.postInit {
        agentId := loop.working.agentId
        cashMicros := loop.working.cashMicros
        positions := sortPositions loop.working.positions
        version := portfolio.version + 1
        reconciliationBlocked := portfolio.reconciliationBlocked
        realizedPnlMicros := loop.working.realizedPnlMicros } = .ok () :=
      ContractPortfolio.postInit_eq_ok_iff.mpr ⟨loop.working.agentId_ne_empty,
        loop.working.cashMicros_nonneg, Int.add_nonneg portfolio.version_nonneg zero_le_one,
        ((sortPositions_perm _).map ContractPosition.key).nodup_iff.mpr loop.working.unique_keys⟩
    rw [applyOrderFills, if_neg (not_not.mpr hagent), if_neg hfills, if_neg (by simp [haware])]
    exact ⟨_, Checks.bind_eq_ok.mpr ⟨loop, hrun, Checks.bind_eq_ok.mpr ⟨postings, hpostings,
      Checks.bind_eq_ok.mpr ⟨_, hentry, Checks.bind_eq_ok.mpr
        ⟨_, ContractPortfolio.make_eq_ok hvalid, rfl⟩⟩⟩⟩⟩

theorem postingsOf_isOk_iff {movement : Books.Movement PositionKey} {expense : ℤ} :
    (∃ postings, (postingsOf movement expense).postings = .ok postings) ↔
      movement.cash ≠ 0 ∧ movement.units ≠ 0 ∧
        (movement.fees = 0 → expense = 0) := by
  rw [MovementPostings.postings_isOk_iff]
  unfold postingsOf
  by_cases hfees : movement.fees + expense = 0 <;>
    by_cases hresult : movement.realized + expense = 0 <;>
    simp [hfees, hresult] <;> omega

/-- A fill moves cash the way its order does: out for a purchase, in for a sale. -/
def MovesCash (request : OrderRequest) (netCashDeltaMicros : ℤ) : Prop :=
  match request.action with
  | .buy => netCashDeltaMicros < 0
  | .sell => 0 < netCashDeltaMicros

/-- Fills that go through the loop move cash the way the order does. -/
theorem movesCash_of_foldlM {request : OrderRequest} {fills : List EconomicFill}
    {start loop : FillLoop} (h : fills.foldlM (applyFill request) start = .ok loop) :
    ∀ fill ∈ fills, MovesCash request fill.netCashDeltaMicros := by
  refine Checks.foldlM_invariant
    (fun seen _ => ∀ fill ∈ seen, MovesCash request fill.netCashDeltaMicros) []
    (fun seen state fill next _ hseen hstep => ?_) h (by simp)
  rw [List.forall_mem_append, List.forall_mem_singleton]
  refine ⟨hseen, ?_⟩
  unfold MovesCash
  cases haction : request.action with
  | buy =>
      simp only [applyFill, haction, applyBuyFill] at hstep
      obtain ⟨updated, -, hstep⟩ := Checks.bind_eq_ok.mp hstep
      split at hstep
      · cases hstep
      next hnet => exact not_le.mp hnet
  | sell =>
      simp only [applyFill, haction, applySellFill] at hstep
      split at hstep
      · cases hstep
      · split at hstep
        · cases hstep
        · obtain ⟨removedBasis, -, hstep⟩ := Checks.bind_eq_ok.mp hstep
          obtain ⟨removedFees, -, hstep⟩ := Checks.bind_eq_ok.mp hstep
          obtain ⟨updated, -, hstep⟩ := Checks.bind_eq_ok.mp hstep
          split at hstep
          · cases hstep
          next hnet => exact not_le.mp hnet

theorem sum_contractUnits_pos {fills : List EconomicFill} (h : fills ≠ []) :
    0 < (fills.map fun fill => fill.contractUnits).sum := by
  apply List.sum_pos
  · intro units hmem
    obtain ⟨fill, -, rfl⟩ := List.mem_map.mp hmem
    exact fill.contractUnits_pos
  · simpa using h

/-- The units and the cash of a loop over fills that all bring cash, or all take
it, do not vanish. -/
theorem LoopTotals.cash_units_ne_zero {request : OrderRequest} {fills : List EconomicFill}
    {loop : FillLoop} (h : LoopTotals request fills loop) (hfills : fills ≠ [])
    (hnet : (∀ fill ∈ fills, fill.netCashDeltaMicros < 0) ∨
      ∀ fill ∈ fills, 0 < fill.netCashDeltaMicros) :
    (loop.movement request).cash ≠ 0 ∧ (loop.movement request).units ≠ 0 := by
  have hcash : (fills.map fun fill => fill.netCashDeltaMicros).sum ≠ 0 := by
    rcases hnet with hneg | hpos
    · have hsum : 0 < (fills.map fun fill => -fill.netCashDeltaMicros).sum := by
        apply List.sum_pos
        · intro amount hmem
          obtain ⟨fill, hfill, rfl⟩ := List.mem_map.mp hmem
          exact neg_pos.mpr (hneg fill hfill)
        · simpa using hfills
      have hflip : (fills.map fun fill => -fill.netCashDeltaMicros).sum =
          -(fills.map fun fill => fill.netCashDeltaMicros).sum := by
        rw [List.sum_neg, List.map_map]
        rfl
      omega
    · apply ne_of_gt
      apply List.sum_pos
      · intro amount hmem
        obtain ⟨fill, hfill, rfl⟩ := List.mem_map.mp hmem
        exact hpos fill hfill
      · simpa using hfills
  have hunits := sum_contractUnits_pos hfills
  have hsigned : (fills.map (signedUnits request)).sum ≠ 0 := by
    rw [sum_signedUnits]
    cases request.action <;> simp only <;> omega
  exact ⟨h.cash ▸ hcash, h.units ▸ hsigned⟩

/-- A purchase within cash is accepted exactly when it is the agent's, has
fills, is timed, and its cash deltas add up to what it costs. -/
theorem applyOrderFills_buy_isOk_iff {portfolio : ContractPortfolio} {request : OrderRequest}
    {fills : List EconomicFill} {operationId : String} {occurredAt : Datetime}
    (haction : request.action = .buy)
    (hnet : ∀ fill ∈ fills, fill.netCashDeltaMicros < 0)
    (hcash : 0 ≤ portfolio.cashMicros + (fills.map fun fill => fill.netCashDeltaMicros).sum) :
    (∃ result, applyOrderFills portfolio request fills operationId occurredAt = .ok result) ↔
      request.agentId = portfolio.agentId ∧ fills ≠ [] ∧ occurredAt.isAware = true ∧
        (fills.map fun fill => fill.netCashDeltaMicros).sum =
          (fills.map (brokerCashDelta request)).sum := by
  rw [applyOrderFills_isOk_iff]
  refine and_congr_right fun _ => and_congr_right fun hfills => and_congr_right fun _ => ?_
  obtain ⟨loop, hrun⟩ := buyLoop_isOk haction (FillLoop.start portfolio) hnet hcash
  have htotals := LoopTotals.of_foldlM hrun
  have hpostings : ∃ postings, (orderPostings request loop).postings = .ok postings := by
    rw [htotals.orderPostings_eq, postingsOf_isOk_iff]
    obtain ⟨hcash, hunits⟩ := htotals.cash_units_ne_zero hfills (Or.inl hnet)
    exact ⟨hcash, hunits, fun _ => by simp only [saleFees, haction]⟩
  have himbalance := htotals.imbalance
  constructor
  · rintro ⟨other, hother, -, hbalanced⟩
    rw [hrun] at hother
    cases hother
    omega
  · intro hsum
    exact ⟨loop, hrun, hpostings, by omega⟩

/-- A sale of owned units is accepted exactly when it is the agent's, has fills,
is timed, its cash deltas add up to what it brings, its shares fit, and it
charges no fees unless it releases some. -/
theorem applyOrderFills_sell_isOk_iff {portfolio : ContractPortfolio} {request : OrderRequest}
    {fills : List EconomicFill} {operationId : String} {occurredAt : Datetime}
    {position : ContractPosition} (haction : request.action = .sell)
    (hposition : portfolio.position request.positionKey = some position)
    (hunits : (fills.map fun fill => fill.contractUnits).sum ≤ position.contractUnits)
    (hnet : ∀ fill ∈ fills, 0 < fill.netCashDeltaMicros) :
    (∃ result, applyOrderFills portfolio request fills operationId occurredAt = .ok result) ↔
      request.agentId = portfolio.agentId ∧ fills ≠ [] ∧ occurredAt.isAware = true ∧
        (fills.map fun fill => fill.netCashDeltaMicros).sum =
          (fills.map (brokerCashDelta request)).sum ∧
        SharesFit position.contractUnits position.grossCostBasisMicros
          (fills.map fun fill => fill.contractUnits) ∧
        SharesFit position.contractUnits position.entryFeesMicros
          (fills.map fun fill => fill.contractUnits) ∧
        (removedShares position.contractUnits position.entryFeesMicros
          (fills.map fun fill => fill.contractUnits) = 0 →
          (fills.map fun fill => fill.feeMicros).sum = 0) := by
  rw [applyOrderFills_isOk_iff]
  refine and_congr_right fun _ => and_congr_right fun hfills => and_congr_right fun _ => ?_
  have hloop := sellLoop_isOk_iff haction (FillLoop.start portfolio) hposition hunits hnet
  have hposted : ∀ loop, fills.foldlM (applyFill request) (FillLoop.start portfolio) = .ok loop →
      ((∃ postings, (orderPostings request loop).postings = .ok postings) ↔
        (removedShares position.contractUnits position.entryFeesMicros
          (fills.map fun fill => fill.contractUnits) = 0 →
          (fills.map fun fill => fill.feeMicros).sum = 0)) := by
    intro loop hrun
    have htotals := LoopTotals.of_foldlM hrun
    have hreleased : (loop.movement request).fees =
        -removedShares position.contractUnits position.entryFeesMicros
          (fills.map fun fill => fill.contractUnits) := by
      have hremoved := (sellLoop_removed haction (FillLoop.start portfolio) hposition
        hrun).1
      simp only [FillLoop.start, List.map_nil, List.sum_nil, zero_add] at hremoved
      simp only [FillLoop.movement, entryFeesDelta, haction, hremoved]
    obtain ⟨hcash, hmoved⟩ := htotals.cash_units_ne_zero hfills (Or.inr hnet)
    rw [htotals.orderPostings_eq, postingsOf_isOk_iff, hreleased, neg_eq_zero]
    simp only [ne_eq, hcash, hmoved, not_false_eq_true, true_and, saleFees, haction]
  constructor
  · rintro ⟨loop, hrun, hpostings, hbalanced⟩
    obtain ⟨hbasis, hfees⟩ := hloop.mp ⟨loop, hrun⟩
    have himbalance := (LoopTotals.of_foldlM hrun).imbalance
    exact ⟨by omega, hbasis, hfees, (hposted loop hrun).mp hpostings⟩
  · rintro ⟨hsum, hbasis, hfees, hreleases⟩
    obtain ⟨loop, hrun⟩ := hloop.mpr ⟨hbasis, hfees⟩
    have himbalance := (LoopTotals.of_foldlM hrun).imbalance
    exact ⟨loop, hrun, (hposted loop hrun).mpr hreleases, by omega⟩

/-! ## What an accepted order moves -/

/-- The entry fees a sale releases, from the position before it. -/
def releasedEntryFees (portfolio : ContractPortfolio) (request : OrderRequest)
    (fills : List EconomicFill) : ℤ :=
  (portfolio.position request.positionKey).elim 0 fun position =>
    removedShares position.contractUnits position.entryFeesMicros
      (fills.map fun fill => fill.contractUnits)

/-- The cost a sale releases, from the position before it. -/
def releasedCost (portfolio : ContractPortfolio) (request : OrderRequest)
    (fills : List EconomicFill) : ℤ :=
  (portfolio.position request.positionKey).elim 0 fun position =>
    removedShares position.contractUnits position.grossCostBasisMicros
      (fills.map fun fill => fill.contractUnits)

namespace OrderBooked

variable {portfolio after : ContractPortfolio} {request : OrderRequest}
  {fills : List EconomicFill} {operationId : String} {occurredAt : Datetime}
  {entry : LedgerEntry} {loop : FillLoop}

/-- There is a position that a sale sells from. -/
theorem sell_position
    (h : OrderBooked portfolio request fills operationId occurredAt after entry loop)
    (haction : request.action = .sell) :
    ∃ current, portfolio.position request.positionKey = some current := by
  obtain ⟨fill, rest, hfills⟩ := List.exists_cons_of_ne_nil h.fills_ne_nil
  obtain ⟨next, hfirst, -⟩ := Checks.foldlM_cons_eq_ok.mp (hfills ▸ h.run)
  have hsell : applySellFill request (FillLoop.start portfolio) fill = .ok next := by
    simpa only [applyFill, haction] using hfirst
  obtain ⟨current, -, -, hcurrent, -⟩ := applySellFill_spec haction hsell
  exact ⟨current, hcurrent⟩

/-- A sale moves the entry fees and the cost that its position releases. -/
theorem sell_released
    (h : OrderBooked portfolio request fills operationId occurredAt after entry loop)
    (haction : request.action = .sell) :
    (loop.movement request).fees = -releasedEntryFees portfolio request fills ∧
      (loop.movement request).basis = -releasedCost portfolio request fills := by
  obtain ⟨current, hposition⟩ := h.sell_position haction
  obtain ⟨hfees, hbasis⟩ := sellLoop_removed haction (FillLoop.start portfolio) hposition
    h.run
  simp only [FillLoop.start, List.map_nil, List.sum_nil, zero_add, zero_sub] at hfees hbasis
  simp only [FillLoop.movement, entryFeesDelta, haction, hfees, hbasis, releasedEntryFees,
    releasedCost, hposition, Option.elim_some, and_self]

/-- A purchase adds units, a sale takes them. -/
theorem units_sign
    (h : OrderBooked portfolio request fills operationId occurredAt after entry loop) :
    if request.action = .buy then 0 < (loop.movement request).units
    else (loop.movement request).units < 0 := by
  have hpos := sum_contractUnits_pos h.fills_ne_nil
  rw [h.loopTotals.units, sum_signedUnits]
  cases request.action
  · rwa [if_pos rfl]
  · rw [if_neg (by simp)]
    simp only
    omega

end OrderBooked

end VTrade
