/-
# The ledger tables

A ledger entry is written as one row and one row for each of its postings.  The
table of postings has its own vocabulary of accounts and its own checks, apart
from those a posting makes when it is built, and a deferred trigger looks at the
postings of an entry together.

Only postings with contract units are written with the market and the outcome.
-/

import VTrade.Ledger

namespace VTrade

/-- A row of `ledger_postings`, apart from the reference to its entry. -/
structure PostingRow where
  account : String
  amountMicros : ℤ
  marketId : Option MarketKey
  outcomeSide : Option OutcomeSide
  contractUnitsDelta : Option ℤ
  deriving DecidableEq

/-- The row written for a posting of an entry about one market outcome. -/
def postingRow (key : Option PositionKey) (posting : PostingFields) : PostingRow :=
  let hasDimensions := posting.contractUnitsDelta.isSome
  { account := posting.account.value
    amountMicros := posting.amountMicros
    marketId := if hasDimensions then key.map Prod.fst else none
    outcomeSide := if hasDimensions then key.map Prod.snd else none
    contractUnitsDelta := if hasDimensions then posting.contractUnitsDelta else none }

/-- The rows written for the postings of an entry. -/
def LedgerEntry.postingRows (entry : LedgerEntry) (key : Option PositionKey) : List PostingRow :=
  entry.postings.map fun posting => postingRow key posting.toPostingFields

/-- The accounts that the table of postings admits. -/
def ledgerVocabulary : List String :=
  ["cash", "owner_equity", "position_cost", "fee_expense", "settlement_payout", "realized_pnl"]

/-- The values of a `bigint` column. -/
def FitsBigint (value : ℤ) : Prop := -2 ^ 63 ≤ value ∧ value < 2 ^ 63

instance (value : ℤ) : Decidable (FitsBigint value) := inferInstanceAs (Decidable (_ ∧ _))

namespace PostingRow

/-- A row has the market, the outcome and contract units, or none of the three. -/
def DimensionsAtomic (row : PostingRow) : Prop :=
  (row.marketId = none ∧ row.outcomeSide = none ∧ row.contractUnitsDelta = none) ∨
    (row.marketId.isSome ∧ row.outcomeSide.isSome ∧ row.contractUnitsDelta.isSome ∧
      row.contractUnitsDelta ≠ some 0)

instance (row : PostingRow) : Decidable row.DimensionsAtomic :=
  inferInstanceAs (Decidable (_ ∨ _))

/-- The column types and the checks of `ledger_postings`, for a vocabulary of
accounts. -/
def check (vocabulary : List String) (row : PostingRow) : Except Raised Unit :=
  Checks.raiseFirst [
    (¬ FitsBigint row.amountMicros, .databaseError "bigint out of range"),
    (¬ FitsBigint (row.contractUnitsDelta.getD 0), .databaseError "bigint out of range"),
    (row.account ∉ vocabulary, .databaseError "ledger_postings_account_check"),
    (row.amountMicros = 0, .databaseError "ledger_postings_amount_micros_check"),
    (¬ row.DimensionsAtomic, .databaseError "ledger_posting_dimensions_atomic")]

theorem check_eq_ok_iff {vocabulary : List String} {row : PostingRow} :
    row.check vocabulary = .ok () ↔
      FitsBigint row.amountMicros ∧ FitsBigint (row.contractUnitsDelta.getD 0) ∧
        row.account ∈ vocabulary ∧ row.amountMicros ≠ 0 ∧ row.DimensionsAtomic := by
  simp only [check, Checks.raiseFirst_cons_eq_ok, Checks.raiseFirst_nil, decide_eq_false_iff_not,
    not_not, and_true, ne_eq]

end PostingRow

/-- `vtrade_assert_balanced_ledger`, at the end of the transaction. -/
def assertBalancedLedger (rows : List PostingRow) : Except Raised Unit :=
  if rows.length < 2 ∨ (rows.map fun row => row.amountMicros).sum ≠ 0 then
    .error (.databaseError "ledger entry must have at least two balanced postings")
  else .ok ()

/-- Insert the postings of one entry. -/
def insertPostings (vocabulary : List String) (rows : List PostingRow) : Except Raised Unit := do
  rows.forM fun row => row.check vocabulary
  assertBalancedLedger rows

/-- The table takes an entry's postings when it takes each of them and they are
at least two that balance. -/
theorem insertPostings_eq_ok_iff {vocabulary : List String} {rows : List PostingRow} :
    insertPostings vocabulary rows = .ok () ↔
      (∀ row ∈ rows, row.check vocabulary = .ok ()) ∧ 2 ≤ rows.length ∧
        (rows.map fun row => row.amountMicros).sum = 0 := by
  have hchecks : rows.forM (fun row => row.check vocabulary) = .ok () ↔
      ∀ row ∈ rows, row.check vocabulary = .ok () := by
    induction rows with
    | nil => exact ⟨fun _ => by simp, fun _ => rfl⟩
    | cons row rest ih =>
        change row.check vocabulary >>= (fun _ => rest.forM _) = .ok () ↔ _
        rw [Checks.bind_eq_ok, List.forall_mem_cons, ← ih]
        exact ⟨fun ⟨_, hrow, hrest⟩ => ⟨hrow, hrest⟩, fun ⟨hrow, hrest⟩ => ⟨(), hrow, hrest⟩⟩
  rw [insertPostings, Checks.bind_eq_ok, ← hchecks]
  unfold assertBalancedLedger
  constructor
  · rintro ⟨_, hrows, hbalanced⟩
    split at hbalanced
    next => cases hbalanced
    next h => exact ⟨hrows, by omega, by omega⟩
  · rintro ⟨hrows, hcount, hsum⟩
    exact ⟨(), hrows, if_neg (by omega)⟩

end VTrade
