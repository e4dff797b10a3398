/-
# The append-only ledger

A ledger entry is a balanced list of postings.  A posting moves money on one
account and may carry contract units (only on the position-cost account) or an
allocation of entry fees (only on the fee account).  The ledger appends an entry
once for each idempotency key.
-/

import Mathlib.Algebra.BigOperators.Group.List.Basic
import Mathlib.Tactic.Ring
import VTrade.Domain.Execution
import VTrade.Lib.KeyedList

namespace VTrade

inductive LedgerAccount
  | cash
  | ownerEquity
  | positionCost
  | fees
  | proceeds
  | realizedPnl
  | settlementPayout
  deriving DecidableEq

def LedgerAccount.value : LedgerAccount → String
  | cash => "cash"
  | ownerEquity => "owner_equity"
  | positionCost => "position_cost"
  | fees => "fees"
  | proceeds => "proceeds"
  | realizedPnl => "realized_pnl"
  | settlementPayout => "settlement_payout"

structure PostingFields where
  account : LedgerAccount
  amountMicros : ℤ
  marketRef : Option MarketKey := none
  outcome : Option OutcomeSide := none
  contractUnitsDelta : Option ℤ := none
  entryFeesDeltaMicros : Option ℤ := none
  deriving DecidableEq

namespace PostingFields

/-- Both dimensions of the posting, when it has both. -/
def positionKey (posting : PostingFields) : Option PositionKey :=
  match posting.marketRef, posting.outcome with
  | some marketRef, some outcome => some (marketRef, outcome)
  | _, _ => none

def postInit (posting : PostingFields) : Except Raised Unit :=
  Checks.raiseFirst [
    (posting.amountMicros = 0 ∧ posting.contractUnitsDelta = none ∧
        posting.entryFeesDeltaMicros = none,
      .valueError "ledger postings require money or a contract-unit delta"),
    (posting.marketRef.isNone ≠ posting.outcome.isNone,
      .valueError "ledger posting market_ref and outcome dimensions are atomic"),
    (posting.contractUnitsDelta = some 0,
      .valueError "contract unit deltas must be non-zero integers"),
    (posting.contractUnitsDelta.isSome ∧ (posting.marketRef.isNone ∨ posting.outcome.isNone),
      .valueError "contract unit deltas require market_ref and outcome"),
    (posting.contractUnitsDelta.isSome ∧ posting.account ≠ .positionCost,
      .valueError "only position-cost postings may change contract units"),
    (posting.entryFeesDeltaMicros = some 0,
      .valueError "entry-fee deltas must be non-zero integers"),
    (posting.entryFeesDeltaMicros.isSome ∧ posting.account ≠ .fees,
      .valueError "only fee postings may change entry-fee allocation"),
    (posting.entryFeesDeltaMicros.isSome ∧
        (posting.marketRef.isNone ∨ posting.outcome.isNone),
      .valueError "entry-fee deltas require market_ref and outcome")]

/-- Money in or out of cash. -/
def ofCash (amount : ℤ) : PostingFields := { account := .cash, amountMicros := amount }

/-- Cost and contract units in or out of a position. -/
def ofCost (key : PositionKey) (amount units : ℤ) : PostingFields where
  account := .positionCost
  amountMicros := amount
  marketRef := some key.1
  outcome := some key.2
  contractUnitsDelta := some units

/-- Fees charged, and the entry fees allocated to a position or released from it. -/
def ofFees (key : PositionKey) (amount entryFees : ℤ) : PostingFields where
  account := .fees
  amountMicros := amount
  marketRef := some key.1
  outcome := some key.2
  entryFeesDeltaMicros := some entryFees

/-- The result a position realizes, as a credit. -/
def ofResult (key : PositionKey) (amount : ℤ) : PostingFields where
  account := .realizedPnl
  amountMicros := amount
  marketRef := some key.1
  outcome := some key.2

theorem ofCash_postInit {amount : ℤ} : (ofCash amount).postInit = .ok () ↔ amount ≠ 0 := by
  simp [ofCash, postInit]

theorem ofCost_postInit {key : PositionKey} {amount units : ℤ} :
    (ofCost key amount units).postInit = .ok () ↔ units ≠ 0 := by
  simp [ofCost, postInit]

theorem ofFees_postInit {key : PositionKey} {amount entryFees : ℤ} :
    (ofFees key amount entryFees).postInit = .ok () ↔ entryFees ≠ 0 := by
  simp [ofFees, postInit]

theorem ofResult_postInit {key : PositionKey} {amount : ℤ} :
    (ofResult key amount).postInit = .ok () ↔ amount ≠ 0 := by
  simp [ofResult, postInit]

end PostingFields

structure Posting extends PostingFields where
  valid : toPostingFields.postInit = .ok ()
  deriving DecidableEq

namespace Posting

def make (fields : PostingFields) : Except Raised Posting :=
  Checks.build fields.postInit fun h => ⟨fields, h⟩

theorem make_eq_ok_iff {fields : PostingFields} {posting : Posting} :
    make fields = .ok posting ↔ posting.toPostingFields = fields :=
  Checks.build_fields_eq_ok_iff PostingFields.postInit mk toPostingFields (fun _ _ => rfl)
    fun posting => ⟨posting.valid, rfl⟩

theorem make_eq_ok {fields : PostingFields} (h : fields.postInit = .ok ()) :
    make fields = .ok ⟨fields, h⟩ := Checks.build_eq_ok h _

/-- Postings built in order have the fields they were built from. -/
theorem mapM_make_eq_ok_iff {fields : List PostingFields} {postings : List Posting} :
    fields.mapM make = .ok postings ↔ postings.map toPostingFields = fields :=
  Checks.mapM_build_eq_ok_iff make_eq_ok_iff

/-- Postings can be built exactly when each of them can. -/
theorem mapM_make_isOk_iff {fields : List PostingFields} :
    (∃ postings, fields.mapM make = .ok postings) ↔
      ∀ posting ∈ fields, posting.postInit = .ok () := by
  rw [Checks.mapM_isOk_iff]
  refine forall₂_congr fun posting _ => ⟨?_, fun h => ⟨_, make_eq_ok h⟩⟩
  rintro ⟨built, h⟩
  rw [← make_eq_ok_iff.mp h]
  exact built.valid

end Posting

/-- The postings of one movement of a position: cash and cost, then the fees and
the result as far as there are any to post. -/
structure MovementPostings where
  key : PositionKey
  cash : ℤ
  cost : ℤ
  units : ℤ
  fees : Option (ℤ × ℤ)
  result : Option ℤ

namespace MovementPostings

def fields (movement : MovementPostings) : List PostingFields :=
  .ofCash movement.cash :: .ofCost movement.key movement.cost movement.units ::
    ((movement.fees.map fun fees => .ofFees movement.key fees.1 fees.2).toList ++
      (movement.result.map fun result => .ofResult movement.key result).toList)

def postings (movement : MovementPostings) : Except Raised (List Posting) :=
  movement.fields.mapM Posting.make

/-- A movement can be posted unless it posts no cash, no units, a fee that
allocates nothing or a result of zero. -/
theorem postings_isOk_iff {movement : MovementPostings} :
    (∃ postings, movement.postings = .ok postings) ↔ movement.cash ≠ 0 ∧ movement.units ≠ 0 ∧
      (∀ fees ∈ movement.fees, fees.2 ≠ 0) ∧ ∀ result ∈ movement.result, result ≠ 0 := by
  rw [postings, Posting.mapM_make_isOk_iff, fields]
  simp only [List.forall_mem_cons, List.forall_mem_append, PostingFields.ofCash_postInit,
    PostingFields.ofCost_postInit]
  cases movement.fees <;> cases movement.result <;>
    simp [PostingFields.ofFees_postInit, PostingFields.ofResult_postInit]

end MovementPostings

structure LedgerEntry where
  id : String
  agentId : String
  idempotencyKey : String
  eventType : String
  occurredAt : Instant
  postings : List Posting
  reversalOf : Option String
  nonempty : postings ≠ []
  balanced : (postings.map fun posting => posting.amountMicros).sum = 0
  deriving DecidableEq

namespace LedgerEntry

def make (id agentId idempotencyKey eventType : String) (occurredAt : Datetime)
    (postings : List Posting) : Except Raised LedgerEntry :=
  if hempty : postings = [] then .error (.valueError "ledger entry requires postings")
  else if hsum : (postings.map fun posting => posting.amountMicros).sum ≠ 0 then
    .error (.valueError "ledger entry postings must balance to zero")
  else if occurredAt.isAware = false then
    .error (.valueError "ledger entry timestamps must be timezone-aware")
  else
    .ok ⟨id, agentId, idempotencyKey, eventType, occurredAt.instant, postings, none,
      hempty, not_not.mp hsum⟩

theorem make_eq_ok (id agentId idempotencyKey eventType : String) {occurredAt : Datetime}
    {postings : List Posting} (hempty : postings ≠ [])
    (hsum : (postings.map fun posting => posting.amountMicros).sum = 0)
    (haware : occurredAt.isAware = true) :
    make id agentId idempotencyKey eventType occurredAt postings =
      .ok ⟨id, agentId, idempotencyKey, eventType, occurredAt.instant, postings, none,
        hempty, hsum⟩ := by
  rw [make, dif_neg hempty, dif_neg (not_not.mpr hsum), if_neg (by simp [haware])]

/-- An entry that is built has the fields it was built from. -/
theorem eq_of_make_eq_ok {id agentId idempotencyKey eventType : String} {occurredAt : Datetime}
    {postings : List Posting} {entry : LedgerEntry}
    (h : make id agentId idempotencyKey eventType occurredAt postings = .ok entry) :
    entry.id = id ∧ entry.agentId = agentId ∧ entry.idempotencyKey = idempotencyKey ∧
      entry.eventType = eventType ∧ entry.occurredAt = occurredAt.instant ∧
      entry.postings = postings := by
  unfold make at h
  split_ifs at h
  cases h
  exact ⟨rfl, rfl, rfl, rfl, rfl, rfl⟩

/-- The total of an amount over the postings of an entry. -/
def total (entry : LedgerEntry) (amount : PostingFields → ℤ) : ℤ :=
  (entry.postings.map fun posting => amount posting.toPostingFields).sum

/-- The entry consists of the postings of a movement. -/
def Posts (entry : LedgerEntry) (movement : MovementPostings) : Prop :=
  entry.postings.map Posting.toPostingFields = movement.fields

/-- A total over an entry that posts a movement has at most four summands. -/
theorem Posts.total_eq {entry : LedgerEntry} {movement : MovementPostings}
    (h : entry.Posts movement) (amount : PostingFields → ℤ) :
    entry.total amount = amount (.ofCash movement.cash) +
      amount (.ofCost movement.key movement.cost movement.units) +
      movement.fees.elim 0 (fun fees => amount (.ofFees movement.key fees.1 fees.2)) +
      movement.result.elim 0 (fun result => amount (.ofResult movement.key result)) := by
  have hmap : entry.total amount = ((entry.postings.map Posting.toPostingFields).map amount).sum := by
    simp [total, List.map_map, Function.comp_def]
  rw [hmap, h, MovementPostings.fields]
  cases movement.fees <;> cases movement.result <;> simp <;> ring

/-- The total of an amount over the postings that a test selects. -/
theorem sum_filter_eq_total (entry : LedgerEntry) (test : PostingFields → Bool)
    (amount : PostingFields → ℤ) :
    ((entry.postings.filter fun posting => test posting.toPostingFields).map
      fun posting => amount posting.toPostingFields).sum =
      entry.total fun posting => if test posting then amount posting else 0 := by
  unfold total
  induction entry.postings with
  | nil => rfl
  | cons posting postings ih =>
      by_cases htest : test posting.toPostingFields <;> simp [htest, ih]

end LedgerEntry

/-- Deterministic domain ledger: the entries in order, and the entry of each
idempotency key. -/
structure AppendOnlyLedger where
  entries : List LedgerEntry
  idempotency : List (String × LedgerEntry)
  deriving DecidableEq

namespace AppendOnlyLedger

def empty : AppendOnlyLedger := ⟨[], []⟩

def append (ledger : AppendOnlyLedger) (entry : LedgerEntry) :
    Except Raised (AppendOnlyLedger × LedgerEntry) :=
  match KeyedList.lookup Prod.fst entry.idempotencyKey ledger.idempotency with
  | some (_, existing) =>
      if existing ≠ entry then
        .error (.valueError "idempotency key reused with different ledger event")
      else
        .ok (ledger, existing)
  | none =>
      .ok (⟨ledger.entries ++ [entry],
        KeyedList.upsert Prod.fst (entry.idempotencyKey, entry) ledger.idempotency⟩, entry)

/-- The ledger has taken in exactly these entries, each under its key. -/
structure Records (ledger : AppendOnlyLedger) (seen : List LedgerEntry) : Prop where
  found : ∀ entry ∈ seen, KeyedList.lookup Prod.fst entry.idempotencyKey ledger.idempotency =
    some (entry.idempotencyKey, entry)
  taken : ∀ key row, KeyedList.lookup Prod.fst key ledger.idempotency = some row →
    row.2 ∈ seen ∧ row.2.idempotencyKey = key

theorem Records.start : Records empty [] := ⟨by simp, by simp [empty]⟩

/-- A key stands for one entry. -/
theorem Records.eq_of_key {ledger : AppendOnlyLedger} {seen : List LedgerEntry}
    (h : ledger.Records seen) {first second : LedgerEntry} (hfirst : first ∈ seen)
    (hsecond : second ∈ seen) (hkey : first.idempotencyKey = second.idempotencyKey) :
    first = second := by
  have hrow := h.found first hfirst
  rw [hkey, h.found second hsecond] at hrow
  exact (congrArg Prod.snd (Option.some.inj hrow)).symm

/-- An entry whose key is free, or stands for it already, is taken in. -/
theorem Records.append_isOk {ledger : AppendOnlyLedger} {seen : List LedgerEntry}
    (h : ledger.Records seen) {entry : LedgerEntry}
    (hsame : ∀ other ∈ seen, other.idempotencyKey = entry.idempotencyKey → other = entry) :
    ∃ result, ledger.append entry = .ok result := by
  unfold append
  split
  next existing hrow =>
    obtain ⟨hmem, hkey⟩ := h.taken _ _ hrow
    rw [if_neg (not_not.mpr (hsame existing hmem hkey))]
    exact ⟨_, rfl⟩
  next => exact ⟨_, rfl⟩

/-- An entry that is taken in is recorded. -/
theorem Records.append {ledger next : AppendOnlyLedger} {seen : List LedgerEntry}
    (h : ledger.Records seen) {entry result : LedgerEntry}
    (happend : ledger.append entry = .ok (next, result)) : next.Records (seen ++ [entry]) := by
  unfold AppendOnlyLedger.append at happend
  split at happend
  next existing hrow =>
    split_ifs at happend with hsame
    cases happend
    obtain ⟨hmem, -⟩ := h.taken _ _ hrow
    rw [not_not.mp hsame] at hmem
    refine ⟨fun other hother => ?_, fun key' row hrow' => ?_⟩
    · rcases List.mem_append.mp hother with hseen | hlast
      · exact h.found other hseen
      · rw [List.mem_singleton.mp hlast]
        exact h.found entry hmem
    · obtain ⟨hmem', hkey'⟩ := h.taken key' row hrow'
      exact ⟨List.mem_append_left _ hmem', hkey'⟩
  next hfree =>
    cases happend
    refine ⟨fun other hother => ?_, fun key row hrow => ?_⟩
    · rcases List.mem_append.mp hother with hseen | hlast
      · have hfound := h.found other hseen
        have hne : other.idempotencyKey ≠ entry.idempotencyKey := fun hkey => by
          rw [hkey, hfree] at hfound
          cases hfound
        rw [@KeyedList.lookup_upsert_of_ne _ _ _ Prod.fst _ (_, entry) hne]
        exact hfound
      · rw [List.mem_singleton.mp hlast]
        exact @KeyedList.lookup_upsert_self _ _ _ Prod.fst (_, entry) _
    · by_cases hkey : key = entry.idempotencyKey
      · subst hkey
        rw [@KeyedList.lookup_upsert_self _ _ _ Prod.fst (entry.idempotencyKey, entry)] at hrow
        cases hrow
        exact ⟨by simp, rfl⟩
      · rw [@KeyedList.lookup_upsert_of_ne _ _ _ Prod.fst _ (_, entry) hkey] at hrow
        obtain ⟨hmem, hkey'⟩ := h.taken key row hrow
        exact ⟨List.mem_append_left _ hmem, hkey'⟩

end AppendOnlyLedger

end VTrade
