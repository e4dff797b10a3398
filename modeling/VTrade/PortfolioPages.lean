/-
# Pages of the portfolio

An agent reads its open positions page by page, in the order of their identifiers.  A page takes as
many positions as fit with a cursor longer than any that is given out, and its cursor names the last
of them, together with what binds it to the agent.
-/

import Mathlib.Data.List.Sort
import VTrade.Domain.Datetime
import VTrade.Domain.Types
import VTrade.Lib.Base64
import VTrade.Lib.Checks
import VTrade.Lib.JsonText
import VTrade.Lib.Paging

namespace VTrade

/-! ## Identifiers -/

structure Uuid where
  value : ℕ
  value_lt : value < 2 ^ 128
  deriving DecidableEq

namespace Uuid

/-- The bytes of a number, the first one first. -/
def bigEndian : ℕ → ℕ → List UInt8
  | 0, _ => []
  | width + 1, n => bigEndian width (n / 256) ++ [UInt8.ofNat (n % 256)]

def bytes (id : Uuid) : List UInt8 := bigEndian 16 id.value

/-- The number of bytes. -/
def number (bytes : List UInt8) : ℕ := bytes.foldl (fun n byte => n * 256 + byte.toNat) 0

/-- `UUID(bytes=...)`, of sixteen bytes. -/
def ofBytes (bytes : List UInt8) : Uuid :=
  ⟨number bytes % 2 ^ 128, Nat.mod_lt _ (Nat.two_pow_pos 128)⟩

/-- `str(id)`. -/
def text (id : Uuid) : String :=
  let digits := id.bytes.flatMap fun byte =>
    [JsonText.hexDigit (byte.toNat / 16), JsonText.hexDigit (byte.toNat % 16)]
  let part (start length : ℕ) := (digits.drop start).take length
  String.ofList (part 0 8 ++ '-' :: part 8 4 ++ '-' :: part 12 4 ++ '-' :: part 16 4 ++
    '-' :: part 20 12)

@[simp]
theorem length_bigEndian (width n : ℕ) : (bigEndian width n).length = width := by
  induction width generalizing n with
  | zero => rfl
  | succ width ih => simp [bigEndian, ih]

@[simp]
theorem length_bytes (id : Uuid) : id.bytes.length = 16 := length_bigEndian 16 id.value

theorem number_concat (bytes : List UInt8) (byte : UInt8) :
    number (bytes ++ [byte]) = number bytes * 256 + byte.toNat := by
  simp [number]

theorem number_bigEndian {width n : ℕ} (h : n < 256 ^ width) : number (bigEndian width n) = n := by
  induction width generalizing n with
  | zero =>
      rw [pow_zero] at h
      have hzero : n = 0 := by omega
      rw [hzero]
      rfl
  | succ width ih =>
      have hquotient : n / 256 < 256 ^ width := by
        rw [pow_succ] at h
        exact Nat.div_lt_of_lt_mul (by rwa [Nat.mul_comm] at h)
      rw [bigEndian, number_concat, ih hquotient, UInt8.toNat_ofNat', Nat.mod_mod]
      omega

@[simp]
theorem ofBytes_bytes (id : Uuid) : ofBytes id.bytes = id := by
  obtain ⟨value, hvalue⟩ := id
  have hnumber : number (bigEndian 16 value) = value :=
    number_bigEndian (hvalue.trans_eq (by norm_num))
  unfold ofBytes bytes
  simp only [hnumber, Nat.mod_eq_of_lt hvalue]

end Uuid

/-! ## Cursors -/

inductive PortfolioError
  /-- `PortfolioPaginationError`. -/
  | pagination (message : String)
  /-- `PortfolioPaginationError` for these arguments. -/
  | unknownArguments (names : List String)
  /-- `RuntimeError`. -/
  | runtime (message : String)
  deriving DecidableEq

/-- What binds a cursor to an agent: the start of the digest of both identifiers. -/
structure CursorBinding where
  digest : Uuid → Uuid → List UInt8
  digest_length : ∀ agentId positionId, (digest agentId positionId).length = 8

namespace CursorBinding

variable (binding : CursorBinding)

/-- What a cursor is made of. -/
def payload (agentId positionId : Uuid) : List UInt8 :=
  1 :: (positionId.bytes ++ binding.digest agentId positionId)

/-- `_cursor_for_position`. -/
def cursorForPosition (agentId positionId : Uuid) : String :=
  String.ofList (Base64.token (binding.payload agentId positionId))

/-- `_position_id_from_cursor`. -/
def positionIdFromCursor (token : String) (agentId : Uuid) : Except PortfolioError Uuid :=
  match Base64.decode true (token.toList ++ Base64.padding token.toList.length) with
  | none => .error (.pagination "cursor is invalid or foreign")
  | some raw =>
      let positionId := Uuid.ofBytes ((raw.drop 1).take 16)
      if raw.length ≠ 25 ∨ raw.head? ≠ some 1 ∨ raw.drop 17 ≠ binding.digest agentId positionId then
        .error (.pagination "cursor is invalid or foreign")
      else .ok positionId

theorem length_payload (agentId positionId : Uuid) :
    (binding.payload agentId positionId).length = 25 := by
  simp [payload, binding.digest_length]

/-- What is read from a cursor: its position, if the agent is the one it was made for or is bound to
it in the same way. -/
theorem positionIdFromCursor_cursorForPosition (agentId other positionId : Uuid) :
    binding.positionIdFromCursor (binding.cursorForPosition agentId positionId) other =
      if binding.digest agentId positionId = binding.digest other positionId then .ok positionId
      else .error (.pagination "cursor is invalid or foreign") := by
  have htake : ((binding.payload agentId positionId).drop 1).take 16 = positionId.bytes := by
    unfold payload
    rw [List.drop_succ_cons, List.drop_zero, List.take_left' (Uuid.length_bytes positionId)]
  have hdrop : (binding.payload agentId positionId).drop 17 =
      binding.digest agentId positionId := by
    unfold payload
    rw [List.drop_succ_cons, List.drop_left' (Uuid.length_bytes positionId)]
  unfold positionIdFromCursor cursorForPosition
  rw [String.toList_ofList, Base64.decode_token]
  simp only [htake, hdrop, length_payload, Uuid.ofBytes_bytes]
  by_cases hsame : binding.digest agentId positionId = binding.digest other positionId
  · rw [if_neg (by simp [payload, hsame]), if_pos hsame]
  · rw [if_pos (.inr (.inr hsame)), if_neg hsame]

theorem positionIdFromCursor_self (agentId positionId : Uuid) :
    binding.positionIdFromCursor (binding.cursorForPosition agentId positionId) agentId =
      .ok positionId := by
  rw [positionIdFromCursor_cursorForPosition]
  simp only [if_true]

/-- A cursor is refused for an agent that it is not bound to. -/
theorem positionIdFromCursor_foreign {agentId other positionId : Uuid}
    (h : binding.digest agentId positionId ≠ binding.digest other positionId) :
    binding.positionIdFromCursor (binding.cursorForPosition agentId positionId) other =
      .error (.pagination "cursor is invalid or foreign") := by
  rw [positionIdFromCursor_cursorForPosition]
  simp only [h, if_false]

end CursorBinding

/-! ## The handler -/

/-- What the query reads of a position and of its market. -/
structure PortfolioRow where
  id : Uuid
  agentId : Uuid
  marketRef : String
  question : Option String
  outcomeSide : OutcomeSide
  contractUnits : ℤ
  grossCostBasisMicros : ℤ
  entryFeesMicros : ℤ
  realizedPnlMicros : ℤ
  /-- In UTC. -/
  updatedAt : Datetime

/-- The tables `positions` and `markets`, joined. -/
structure PortfolioRows where
  rows : List PortfolioRow
  ids_unique : (rows.map PortfolioRow.id).Nodup

/-- `astimezone(UTC).isoformat().replace("+00:00", "Z")`. -/
def zulu (value : Datetime) : String :=
  String.ofList (value.isoDate ++ 'T' :: Text.zeroPad 2 value.hour ++ ':' ::
    Text.zeroPad 2 value.minute ++ ':' :: Text.zeroPad 2 value.second ++
      Datetime.isoFraction value.microsecond ++ ['Z'])

/-- A position as an item of a page. -/
def positionItem (row : PortfolioRow) (question : String) : Json :=
  .object [
    ("position_id", .text row.id.text),
    ("market_ref", .text row.marketRef),
    ("market_question", .text question),
    ("outcome", .text row.outcomeSide.value),
    ("contract_units", .int row.contractUnits),
    ("gross_cost_basis_micros", .int row.grossCostBasisMicros),
    ("entry_fees_micros", .int row.entryFeesMicros),
    ("realized_pnl_micros", .int row.realizedPnlMicros),
    ("updated_at", .text (zulu row.updatedAt))]

/-- A row with its item, unless the question of its market is missing. -/
def positionRow (row : PortfolioRow) : Except PortfolioError (Uuid × Json) :=
  match row.question with
  | none | some "" => .error (.runtime "portfolio market question is missing")
  | some question => .ok (row.id, positionItem row question)

/-- `_token_upper_bound`. -/
def tokenUpperBound (value : Json) : ℕ := max 1 (JsonText.size false value.sorted)

/-- `MAXIMUM_RESULT_TOKENS`. -/
def maximumResultTokens : ℕ := 24000

/-- A page with its items. -/
def portfolioOutput (items : List Json) (nextCursor : Option String) (hasMore : Bool) : Json :=
  .object [
    ("items", .array items),
    ("next_cursor", match nextCursor with
      | some cursor => .text cursor
      | none => .null),
    ("has_more", .bool hasMore)]

structure PortfolioPage where
  /-- The positions with their items. -/
  items : List (Uuid × Json)
  nextCursor : Option String
  hasMore : Bool

/-- What the handler returns. -/
def PortfolioPage.document (page : PortfolioPage) : Json :=
  portfolioOutput (page.items.map Prod.snd) page.nextCursor page.hasMore

/-- What a page is tried with before it has a cursor. -/
def probe (items : List Json) (hasMore : Bool) : Json :=
  portfolioOutput items (if hasMore then some (String.ofList (List.replicate 64 'x')) else none)
    hasMore

/-- `_bounded_items`. -/
def boundedItems (rows : List (Uuid × Json)) (requestedLimit : ℕ) : List (Uuid × Json) × Bool :=
  let selected := Paging.fitting (fun candidate : List (Uuid × Json) =>
      tokenUpperBound (probe (candidate.map Prod.snd) (candidate.length < rows.length)) ≤
        maximumResultTokens)
    [] (rows.take requestedLimit)
  (selected, selected.length < rows.length)

/-- `_validate_cursor_token`, of a cursor if there is one. -/
def cursorArgument (arguments : JsonObject) : Except PortfolioError (Option String) :=
  match Json.get arguments "cursor" with
  | none | some .null => .ok none
  | some (.text cursor) =>
      if cursor = "" ∨ 64 < JsonText.byteLength cursor.toList then
        .error (.pagination "cursor must be a non-empty opaque string")
      else .ok (some cursor)
  | some _ => .error (.pagination "cursor must be a string")

def limitArgument (arguments : JsonObject) : Except PortfolioError ℕ :=
  match Json.get arguments "limit" with
  | none => .ok 100
  | some (.int limit) =>
      if 1 ≤ limit ∧ limit ≤ 200 then .ok limit.toNat
      else .error (.pagination "limit must be an integer between 1 and 200")
  | some _ => .error (.pagination "limit must be an integer between 1 and 200")

/-- `_validate_arguments`. -/
def validateArguments (arguments : JsonObject) : Except PortfolioError (Option String × ℕ) := do
  let unknown := (arguments.map Prod.fst).filter fun name => name ≠ "cursor" ∧ name ≠ "limit"
  if unknown ≠ [] then
    .error (.unknownArguments (unknown.insertionSort (· ≤ ·)))
  else
    let cursor ← cursorArgument arguments
    let limit ← limitArgument arguments
    .ok (cursor, limit)

structure ContractPortfolioHandler where
  positions : PortfolioRows
  binding : CursorBinding
  agentId : Uuid

namespace ContractPortfolioHandler

variable (handler : ContractPortfolioHandler)

/-- The open positions of the agent after one, in the order of their identifiers. -/
def positionsAfter (after : Option Uuid) : List PortfolioRow :=
  (handler.positions.rows.filter fun row =>
    row.agentId = handler.agentId ∧ 0 < row.contractUnits ∧
      after.all fun position => position.value < row.id.value).insertionSort
    fun first second => first.id.value ≤ second.id.value

/-- The position that a cursor names. -/
def afterPositionId : Option String → Except PortfolioError (Option Uuid)
  | some token => (handler.binding.positionIdFromCursor token handler.agentId).map some
  | none => .ok none

/-- `__call__`, from arguments that are valid. -/
def page (cursor : Option String) (limit : ℕ) : Except PortfolioError PortfolioPage := do
  let after ← handler.afterPositionId cursor
  let fetched ← ((handler.positionsAfter after).take (limit + 1)).mapM positionRow
  let sorted := fetched.insertionSort fun first second => first.1.value ≤ second.1.value
  let rows := sorted.filter fun row => after.all fun position => position.value < row.1.value
  let (selected, hasMore) := boundedItems rows limit
  if hasMore = true ∧ selected = [] then
    .error (.pagination "one portfolio item exceeds the 24000-token result ceiling")
  else
    let nextCursor := if hasMore then
        selected.getLast?.map fun row => handler.binding.cursorForPosition handler.agentId row.1
      else none
    let output : PortfolioPage := ⟨selected, nextCursor, hasMore⟩
    if maximumResultTokens < tokenUpperBound output.document then
      .error (.runtime "portfolio page bound invariant violated")
    else .ok output

/-- `__call__`. -/
def call (arguments : JsonObject) : Except PortfolioError PortfolioPage := do
  let (cursor, limit) ← validateArguments arguments
  handler.page cursor limit

end ContractPortfolioHandler

end VTrade
