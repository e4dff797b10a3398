/-
# What the ledger tables take

Of the postings an order or a settlement makes, the table takes cash, cost and
result, and never fees: the program's account for them is not in the table's
vocabulary.  A cost of zero is a posting that the program makes because of its
units and the table refuses because of its amount.
-/

import VTrade.OrderAcceptance
import VTrade.Schema
import VTrade.SettlementIdentity

namespace VTrade

/-! ## Rows of a movement -/

section Rows

variable {vocabulary : List String} {key : PositionKey} {amount units : ℤ}

theorem check_ofCash : (postingRow (some key) (.ofCash amount)).check vocabulary = .ok () ↔
    FitsBigint amount ∧ "cash" ∈ vocabulary ∧ amount ≠ 0 := by
  rw [PostingRow.check_eq_ok_iff]
  simp [postingRow, PostingFields.ofCash, LedgerAccount.value, PostingRow.DimensionsAtomic,
    FitsBigint]

theorem check_ofCost :
    (postingRow (some key) (.ofCost key amount units)).check vocabulary = .ok () ↔
      FitsBigint amount ∧ FitsBigint units ∧ "position_cost" ∈ vocabulary ∧ amount ≠ 0 ∧
        units ≠ 0 := by
  rw [PostingRow.check_eq_ok_iff]
  simp [postingRow, PostingFields.ofCost, LedgerAccount.value, PostingRow.DimensionsAtomic]

theorem check_ofFees :
    (postingRow (some key) (.ofFees key amount units)).check vocabulary = .ok () ↔
      FitsBigint amount ∧ "fees" ∈ vocabulary ∧ amount ≠ 0 := by
  rw [PostingRow.check_eq_ok_iff]
  simp [postingRow, PostingFields.ofFees, LedgerAccount.value, PostingRow.DimensionsAtomic,
    FitsBigint]

theorem check_ofResult :
    (postingRow (some key) (.ofResult key amount)).check vocabulary = .ok () ↔
      FitsBigint amount ∧ "realized_pnl" ∈ vocabulary ∧ amount ≠ 0 := by
  rw [PostingRow.check_eq_ok_iff]
  simp [postingRow, PostingFields.ofResult, LedgerAccount.value, PostingRow.DimensionsAtomic,
    FitsBigint]

end Rows

/-- The rows of an entry that posts a movement. -/
theorem LedgerEntry.Posts.postingRows_eq {entry : LedgerEntry} {movement : MovementPostings}
    (h : entry.Posts movement) (key : Option PositionKey) :
    entry.postingRows key = movement.fields.map (postingRow key) := by
  rw [← h, List.map_map]
  rfl

/-- The amounts of the rows of an entry add up to zero. -/
theorem LedgerEntry.sum_postingRows (entry : LedgerEntry) (key : Option PositionKey) :
    ((entry.postingRows key).map fun row => row.amountMicros).sum = 0 := by
  rw [LedgerEntry.postingRows, List.map_map]
  exact entry.balanced

/-- The tables take the entry of a movement when it has a cost, posts no fees,
and its amounts fit the columns. -/
theorem insertPostings_of_posts {entry : LedgerEntry} {movement : Books.Movement PositionKey}
    {expense : ℤ} (h : entry.Posts (postingsOf movement expense)) :
    insertPostings ledgerVocabulary (entry.postingRows (some movement.key)) = .ok () ↔
      movement.fees + expense = 0 ∧ movement.basis ≠ 0 ∧ FitsBigint movement.cash ∧
        FitsBigint movement.basis ∧ FitsBigint movement.units ∧
        FitsBigint (-(movement.realized + expense)) := by
  obtain ⟨hcash, hunits, -⟩ := MovementPostings.postings_isOk_iff.mp
    ⟨entry.postings, Posting.mapM_make_eq_ok_iff.mpr h⟩
  have hcash' : movement.cash ≠ 0 := hcash
  have hunits' : movement.units ≠ 0 := hunits
  have hnoFees : ("fees" ∈ ledgerVocabulary) = False := by decide
  have hvocabulary : "cash" ∈ ledgerVocabulary ∧ "position_cost" ∈ ledgerVocabulary ∧
      "realized_pnl" ∈ ledgerVocabulary := by decide
  have hsum := entry.sum_postingRows (some movement.key)
  rw [insertPostings_eq_ok_iff, and_iff_left hsum, h.postingRows_eq, List.forall_mem_map,
    List.length_map, MovementPostings.fields, postingsOf]
  simp only [List.forall_mem_cons, List.forall_mem_append, List.length_cons, check_ofCash,
    check_ofCost]
  by_cases hfees : movement.fees + expense = 0 <;>
    by_cases hresult : movement.realized + expense = 0 <;>
    simp only [hfees, hresult, ne_eq, not_true_eq_false, not_false_eq_true, if_true, if_false,
      Option.map_none, Option.map_some, Option.toList_none, Option.toList_some,
      List.forall_mem_singleton, List.not_mem_nil, check_ofFees, check_ofResult, hnoFees,
      hvocabulary, hcash', hunits', neg_eq_zero, neg_zero, true_and, and_true, false_and,
      and_false, IsEmpty.forall_iff, implies_true] <;>
    simp [FitsBigint, and_assoc, and_comm, and_left_comm]

/-! ## Emitted entries -/

/-- An order that is accepted. -/
structure AcceptedOrder extends FilledOrder where
  portfolio : ContractPortfolio
  after : ContractPortfolio
  entry : LedgerEntry
  accounting : List FillAccounting
  accepted : applyOrderFills portfolio request fills operationId occurredAt =
    .ok (after, entry, accounting)

/-- What emits a ledger entry: an accepted order, or a settlement that is booked.  A
settlement that is answered from memory returns the entry of one that was
booked. -/
inductive Emission
  | order (accepted : AcceptedOrder)
  | settlement (produced : ProducedSettlement)

namespace Emission

def entry : Emission → LedgerEntry
  | order accepted => accepted.entry
  | settlement produced => produced.record.ledgerEntry

/-- The market outcome that the entry is written for. -/
def positionKey : Emission → PositionKey
  | order accepted => accepted.request.positionKey
  | settlement produced => produced.position.key

/-- A purchase without fees that costs something; a sale that charges exactly the
entry fees it releases and releases some cost; a settlement of a position with a
cost and without entry fees.  The amounts are those of a `bigint`. -/
def FitsSchema : Emission → Prop
  | order accepted =>
      let gross := (accepted.fills.map fun fill => fill.grossCashMicros).sum
      let fees := (accepted.fills.map fun fill => fill.feeMicros).sum
      let net := (accepted.fills.map fun fill => fill.netCashDeltaMicros).sum
      let units := (accepted.fills.map fun fill => fill.contractUnits).sum
      match accepted.request.action with
      | .buy => fees = 0 ∧ gross ≠ 0 ∧ FitsBigint gross ∧ FitsBigint units
      | .sell =>
          let cost := releasedCost accepted.portfolio accepted.request accepted.fills
          fees = releasedEntryFees accepted.portfolio accepted.request accepted.fills ∧
            cost ≠ 0 ∧ FitsBigint net ∧ FitsBigint (-cost) ∧ FitsBigint (-units) ∧
            FitsBigint (cost - net)
  | settlement produced =>
      produced.position.entryFeesMicros = 0 ∧ produced.position.grossCostBasisMicros ≠ 0 ∧
        FitsBigint (-produced.position.grossCostBasisMicros) ∧
        FitsBigint (10000 * produced.position.contractUnits)

end Emission

/-- The tables take the entry of an accepted order exactly when it fits. -/
theorem AcceptedOrder.insertPostings_iff (order : AcceptedOrder) :
    insertPostings ledgerVocabulary (order.entry.postingRows (some order.request.positionKey)) =
      .ok () ↔ (Emission.order order).FitsSchema := by
  obtain ⟨loop, -, hbooked⟩ := applyOrderFills_spec order.accepted
  have hposts := hbooked.posts_movement
  have htotals := hbooked.loopTotals
  have hbalanced := imbalance_eq_zero_of_posts hposts
  have hunits := htotals.units
  have hpos := sum_contractUnits_pos hbooked.fills_ne_nil
  have hcash := htotals.cash
  have hnonzero : (loop.movement order.request).cash ≠ 0 :=
    (MovementPostings.postings_isOk_iff.mp
      ⟨order.entry.postings, Posting.mapM_make_eq_ok_iff.mpr hposts⟩).1
  rw [sum_signedUnits] at hunits
  unfold Books.Movement.imbalance at hbalanced
  have hrows := insertPostings_of_posts hposts
  rw [show (loop.movement order.request).key = order.request.positionKey from rfl] at hrows
  rw [hrows]
  unfold Emission.FitsSchema
  cases haction : order.request.action with
  | buy =>
      have hbasis := htotals.buy_basis haction
      have hfees := htotals.buy_fees haction
      have hrealized := htotals.buy_realized haction
      have hgross : 0 ≤ (order.fills.map fun fill => fill.grossCashMicros).sum :=
        List.sum_nonneg fun amount hmem => by
          obtain ⟨fill, -, rfl⟩ := List.mem_map.mp hmem
          exact fill.grossCashMicros_nonneg
      simp only [haction] at hunits
      simp only [saleFees, haction, add_zero, FitsBigint]
      omega
  | sell =>
      obtain ⟨hfees, hbasis⟩ := hbooked.sell_released haction
      simp only [haction] at hunits
      simp only [saleFees, haction, FitsBigint]
      omega

/-- The tables take the entry of a booked settlement exactly when it fits. -/
theorem ProducedSettlement.insertPostings_iff (settlement : ProducedSettlement) :
    insertPostings ledgerVocabulary
        (settlement.record.ledgerEntry.postingRows (some settlement.position.key)) = .ok () ↔
      (Emission.settlement settlement).FitsSchema := by
  obtain ⟨result, hbooked⟩ := settlement.booked
  obtain ⟨hpayout, -, hresult⟩ := settlementPostings_isOk_iff.mp
    ⟨_, Posting.mapM_make_eq_ok_iff.mpr hbooked.posts⟩
  have hrows := insertPostings_of_posts hbooked.posts_movement
  have hwins : settlementPayout settlement.position result =
      settlement.position.contractUnits * 10000 := by
    unfold settlementPayout at hpayout ⊢
    split at hpayout
    next hwins => rw [if_pos hwins]
    next => exact absurd rfl hpayout
  have hunits := settlement.position.contractUnits_nonneg
  have hbasis := settlement.position.grossCostBasisMicros_nonneg
  rw [show (settlementMovement settlement.position
    (settlementPayout settlement.position result)).key = settlement.position.key from rfl] at hrows
  rw [hrows, hwins]
  rw [hwins] at hpayout
  simp only [Emission.FitsSchema, settlementMovement, settlementRealized, FitsBigint]
  omega

/-- An emitted entry is taken by the ledger tables exactly when it fits them. -/
theorem insertPostings_emission_iff (emission : Emission) :
    insertPostings ledgerVocabulary (emission.entry.postingRows (some emission.positionKey)) =
      .ok () ↔ emission.FitsSchema := by
  cases emission with
  | order accepted => exact accepted.insertPostings_iff
  | settlement produced => exact produced.insertPostings_iff

set_option maxRecDepth 10000 in
/-- A purchase with a fee is accepted, and the table has no account for the fee. -/
theorem insertPostings_fee_refused :
    ∃ accepted : AcceptedOrder,
      insertPostings ledgerVocabulary
        (accepted.entry.postingRows (some accepted.request.positionKey)) =
        .error (.databaseError "ledger_postings_account_check") := by
  obtain ⟨⟨after, entry, accounting⟩, haccepted, htest⟩ := Checks.exists_ok_of_any
    (applyOrderFills Sample.portfolio
      (Sample.request (Sample.market, .yes) .buy 100 (by decide))
      [⟨Sample.fillFields .buy 100 4000 400000 100, Sample.digest, by decide⟩] "operation"
      Sample.moment)
    (fun result => insertPostings ledgerVocabulary
      (result.2.1.postingRows (some (Sample.market, .yes))) =
        .error (.databaseError "ledger_postings_account_check"))
    (by decide)
  exact ⟨⟨⟨_, _, _, _⟩, _, after, entry, accounting, haccepted⟩, of_decide_eq_true htest⟩

end VTrade
