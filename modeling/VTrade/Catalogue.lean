/-
# Scanning the catalogue of the venue

The catalogue of open markets comes in pages, each naming the next one by a cursor.  The
scan keeps the markets that are asked for and, of all others, a bounded number of the best.
Pages and rows come from the venue: a page that repeats, a cursor that repeats and a market
that repeats are refused.
-/

import VTrade.Domain.Market
import VTrade.Lib.Json
import VTrade.Lib.Selection
import Mathlib.Data.Prod.Lex
import Mathlib.Data.String.Basic

namespace VTrade

/-- What the venue adapter raises. -/
inductive KalshiError
  | payloadError (message : String)
  | cursorError (message : String)
  | lookAheadError (message : String)
  | transportError (message : String)
  deriving DecidableEq

/-- A text that is not blank. -/
abbrev OpaqueText := { text : String // Text.isBlank text = false }

/-- How values of the venue's responses are read: numbers and timestamps come in several
spellings, and are compared as Python compares them. -/
structure Readings where
  same : Json → Json → Bool
  /-- `_optional_timestamp`. -/
  optionalTimestamp : JsonObject → List String → String → Except KalshiError (Option Instant)
  /-- `to_contract_quantity`. -/
  contractQuantity : Json → Except KalshiError ℤ
  /-- `to_money_micros`. -/
  moneyMicros : Json → Except KalshiError ℤ

namespace Kalshi

/-! ## Reading a row -/

/-- `value in (None, "")`. -/
def isMissing : Json → Bool
  | .null => true
  | .text value => value = ""
  | .bool _ | .int _ | .float _ | .array _ | .object _ => false

/-- `value in (None, False, "", [], {})`, where zero is equal to `False`. -/
def isUnset : Json → Bool
  | .null => true
  | .bool value => !value
  | .int value => value = 0
  | .float value => value.digits = 0
  | .text value => value = ""
  | .array values => values.isEmpty
  | .object fields => fields.isEmpty

def opaqueText : Json → Option OpaqueText
  | .text value => if h : Text.isBlank value = false then some ⟨value, h⟩ else none
  | .null | .bool _ | .int _ | .float _ | .array _ | .object _ => none

/-- The first of several fields that are aliases, `_first_string` with `required=False`. -/
def optionalString (payload : JsonObject) (fields : List String) (label : String) :
    Except KalshiError (Option OpaqueText) :=
  let present := (fields.filterMap (Json.get payload)).filter fun value => !isMissing value
  match present.mapM opaqueText with
  | none => .error (.payloadError (label ++ " must be a non-empty exact string"))
  | some [] => .ok none
  | some (first :: rest) =>
      if rest.any (· ≠ first) then .error (.payloadError (label ++ " has conflicting aliases"))
      else .ok (some first)

/-- `_first_string`. -/
def firstString (payload : JsonObject) (fields : List String) (label : String) :
    Except KalshiError OpaqueText := do
  match ← optionalString payload fields label with
  | some text => .ok text
  | none => .error (.payloadError (label ++ " is required"))

/-- `_status`. -/
def status : Json → Except KalshiError MarketStatus
  | .text "initialized" => .ok .initialized
  | .text "active" => .ok .active
  | .text "inactive" => .ok .inactive
  | .text "open" => .ok .opened
  | .text "closed" => .ok .closed
  | .text "determined" => .ok .determined
  | .text "disputed" => .ok .disputed
  | .text "amended" => .ok .amended
  | .text "finalized" => .ok .finalized
  | .text "resolved" => .ok .resolved
  | .text "ambiguous" => .ok .ambiguous
  | .text value => .error (.payloadError ("unknown Kalshi lifecycle status '" ++ value ++ "'"))
  | .null | .bool _ | .int _ | .float _ | .array _ | .object _ =>
      .error (.payloadError "status must be a known lifecycle string")

/-- `_check_cutoff`. -/
def checkCutoff (value cutoff : Option Instant) (field : String) : Except KalshiError Unit :=
  match value, cutoff with
  | some value, some cutoff =>
      if cutoff < value then
        .error (.lookAheadError (field ++ " is newer than the requested cutoff"))
      else .ok ()
  | some _, none | none, some _ | none, none => .ok ()

/-- `sorted(ORDINARY_BINARY_FORBIDDEN_FIELDS)`. -/
def ordinaryBinaryForbiddenFields : List String :=
  ["condition_id", "negative_risk", "shares", "token_id", "venue_token_id"]

def multivariateMarketFields : List String :=
  ["mve_collection_ticker", "mve_selected_legs", "multivariate", "combo"]

/-- The texts of an array that holds nothing else. -/
def texts : Json → Option (List String)
  | .array values => values.mapM fun value =>
      match value with
      | .text value => some value
      | .null | .bool _ | .int _ | .float _ | .array _ | .object _ => none
  | .null | .bool _ | .int _ | .float _ | .text _ | .object _ => none

/-- Whether a row is an ordinary binary market. -/
def isOrdinaryBinary (row : JsonObject) : Except KalshiError Bool := do
  let forbidden := ordinaryBinaryForbiddenFields.filter fun field => (Json.get row field).isSome
  if forbidden ≠ [] then
    .error (.payloadError ("market contains forbidden token-shaped fields: [" ++
      ", ".intercalate (forbidden.map fun field => "'" ++ field ++ "'") ++ "]"))
  else if multivariateMarketFields.any fun field => (Json.get row field).any (!isUnset ·) then
    .ok false
  else
    match Json.get row "market_type" with
    | none | some .null | some (.text "binary") | some (.text "Binary") =>
        match Json.get row "outcomes" with
        | none => .ok true
        | some outcomes =>
            match texts outcomes with
            | none => .error (.payloadError "market outcomes must be an array of strings")
            | some outcomes =>
                .ok (outcomes.all (fun outcome => outcome = "YES" ∨ outcome = "NO") &&
                  decide ("YES" ∈ outcomes) && decide ("NO" ∈ outcomes))
    | some (.text _) => .ok false
    | some _ => .error (.payloadError "market_type must be a string when present")

/-- A market of the catalogue, as far as it is ranked. -/
structure CatalogueMarket where
  key : MarketKey
  volume : ℤ
  liquidityMicros : ℤ

structure CatalogueCandidate extends CatalogueMarket where
  payload : JsonObject
  pageIndex : ℕ
  rowIndex : ℕ
  tradeable : Bool

/-- The reference and the status of a row that is an ordinary binary market. -/
def marketOf (row : JsonObject) : Except KalshiError (Option (MarketKey × MarketStatus)) := do
  if ← isOrdinaryBinary row then
    match Json.get row "result" with
    | none | some .null | some (.text "") | some (.text "yes") | some (.text "no") => do
        let marketRef ← firstString row ["ticker", "market_ticker"] "market ticker"
        let _ ← firstString row ["event_ticker", "event_ref"] "event ticker"
        let _ ← optionalString row ["series_ticker", "series_ref"] "series ticker"
        let status ← status ((Json.get row "status").getD .null)
        .ok (some (⟨marketRef.1, marketRef.2⟩, status))
    | some _ => .error (.payloadError "only binary YES/NO results are admitted")
  else .ok none

/-- The volume and the liquidity of a row. -/
def sizesOf (readings : Readings) (row : JsonObject) : Except KalshiError (ℤ × ℤ) := do
  let volume ← readings.contractQuantity
    (((Json.get row "volume_fp").orElse fun _ => Json.get row "volume").getD (.int 0))
  let liquidity ← readings.moneyMicros
    (((Json.get row "liquidity_dollars").orElse fun _ => Json.get row "liquidity").getD (.int 0))
  .ok (volume, liquidity)

/-- `_catalogue_candidate`. -/
def catalogueCandidate (readings : Readings) (row : JsonObject) (pageIndex rowIndex : ℕ)
    (observedAt : Instant) (cutoff : Option Instant) :
    Except KalshiError (Option CatalogueCandidate) := do
  match ← marketOf row with
  | none => .ok none
  | some (key, status) => do
      let updated ← readings.optionalTimestamp row ["updated_time", "updated_ts", "updated_at"]
        "updated_time"
      checkCutoff updated cutoff "updated_time"
      if updated.any (observedAt < ·) then
        .error (.lookAheadError "updated_time is newer than local observation")
      else do
        let (volume, liquidity) ← sizesOf readings row
        .ok (some {
          key := key
          volume := volume
          liquidityMicros := liquidity
          payload := row
          pageIndex := pageIndex
          rowIndex := rowIndex
          tradeable := status = .active })

/-- `_candidate_rank`: more volume first, then more liquidity, then by reference. -/
def candidateRank (market : CatalogueMarket) : ℤ ×ₗ ℤ ×ₗ String :=
  toLex (-market.volume, toLex (-market.liquidityMicros, market.key.marketRef))

/-! ## Pages -/

/-- A response that was archived, with the digest of its bytes. -/
structure ArchivedResponse where
  payload : Json
  sha256 : Sha256
  observedAt : Instant

structure CatalogueScanRequest where
  heldMarkets : List MarketKey
  touchedMarkets : List MarketKey
  historicalMarkets : List MarketKey
  cutoff : Option Instant
  maximumHistoricalMarkets : ℕ
  maximumAdditionalMarkets : ℕ

namespace CatalogueScanRequest

variable (request : CatalogueScanRequest)

/-- The markets that are asked for, in their order. -/
def asked : List MarketKey :=
  request.historicalMarkets.take request.maximumHistoricalMarkets ++ request.heldMarkets ++
    request.touchedMarkets

/-- Whether a market is asked for. -/
def requires (key : MarketKey) : Bool := key ∈ request.asked

end CatalogueScanRequest

structure CataloguePageEvidence where
  requestedCursor : Option String
  nextCursor : Option String
  observedAt : Instant
  sha256 : Sha256
  recordCount : ℕ

structure ScanState where
  cursor : Option String
  pages : List CataloguePageEvidence
  seenCursors : List String
  seenPageHashes : List Sha256
  seenMarketKeys : List MarketKey
  retained : List CatalogueCandidate
  additional : List CatalogueCandidate
  scannedMarketCount : ℕ

def ScanState.start : ScanState := ⟨none, [], [], [], [], [], [], 0⟩

/-- `_next_cursor`. -/
def nextCursor (readings : Readings) (root : JsonObject) : Except KalshiError (Option String) :=
  let candidates := ["cursor", "next_cursor"].filterMap (Json.get root)
  match candidates.filter fun value => !isMissing value with
  | [] => .ok none
  | [.text value] => .ok (some value)
  | [first, second] =>
      if readings.same first second then
        match first with
        | .text value => .ok (some value)
        | .null | .bool _ | .int _ | .float _ | .array _ | .object _ =>
            .error (.cursorError "catalogue cursor must be an opaque non-empty string")
      else .error (.cursorError "response has conflicting cursor fields")
  | _ => .error (.cursorError "catalogue cursor must be an opaque non-empty string")

variable (readings : Readings) (request : CatalogueScanRequest)

/-- What becomes of a market that the catalogue lists: it is retained when it is asked for,
and otherwise kept among the best. -/
def keepCandidate (state : ScanState) (candidate : CatalogueCandidate) : Except KalshiError ScanState :=
  if candidate.key ∈ state.seenMarketKeys then
    .error (.cursorError "catalogue contains a duplicate market identity")
  else
    let state := { state with seenMarketKeys := state.seenMarketKeys ++ [candidate.key] }
    if candidate.tradeable = false then .ok state
    else if request.requires candidate.key then
      .ok { state with retained := state.retained ++ [candidate] }
    else
      .ok { state with
        additional := Selection.keep (fun kept => candidateRank kept.toCatalogueMarket)
          request.maximumAdditionalMarkets state.additional candidate }

/-- Read one row of a page. -/
def scanRow (pageIndex : ℕ) (observedAt : Instant) (state : ScanState) (row : Json × ℕ) :
    Except KalshiError ScanState := do
  match row.1 with
  | .object fields =>
      match ← catalogueCandidate readings fields pageIndex row.2 observedAt request.cutoff with
      | none => .ok state
      | some candidate => keepCandidate request state candidate
  | .null | .bool _ | .int _ | .float _ | .text _ | .array _ =>
      .error (.payloadError ("markets[" ++ toString row.2 ++ "] must be an object"))

/-- Read one page, with the cursor of the next one. -/
def scanPage (state : ScanState) (archived : ArchivedResponse) :
    Except KalshiError (ScanState × Option String) := do
  if archived.sha256 ∈ state.seenPageHashes then
    .error (.cursorError "catalogue returned a duplicate raw page")
  else
    match archived.payload with
    | .object root =>
        match Json.get root "markets" with
        | some (.array rows) => do
            let next ← nextCursor readings root
            let page : CataloguePageEvidence :=
              ⟨state.cursor, next, archived.observedAt, archived.sha256, rows.length⟩
            let state ← rows.zipIdx.foldlM
              (scanRow readings request state.pages.length archived.observedAt)
              { state with
                seenPageHashes := state.seenPageHashes ++ [archived.sha256]
                pages := state.pages ++ [page]
                scannedMarketCount := state.scannedMarketCount + rows.length }
            .ok (state, next)
        | _ => .error (.payloadError "markets response lacks a markets array")
    | _ => .error (.payloadError "response must be a JSON object")

/-- Read the pages one after the other, as the venue answers the requests.  What a request
fails with also stands for a deadline that has passed. -/
def scanPages : ScanState → List (Except KalshiError ArchivedResponse) →
    Except KalshiError ScanState
  | _, [] => .error (.transportError "request failed for /markets")
  | _, .error error :: _ => .error error
  | state, .ok archived :: rest => do
      let (state, next) ← scanPage readings request state archived
      match next with
      | none => .ok state
      | some next =>
          if next ∈ state.seenCursors ∨ state.cursor = some next then
            .error (.cursorError "catalogue cursor repeated")
          else scanPages { state with
            seenCursors := state.seenCursors ++ [next]
            cursor := some next } rest

/-! ## The result -/

/-- The keys that are asked for and were found, each once. -/
def askedKeys (found : MarketKey → Bool) : List MarketKey → List MarketKey :=
  List.foldl (fun values key => if found key ∧ key ∉ values then values ++ [key] else values) []

/-- `_discovery_keys`. -/
def discoveryKeys (retained additional : List CatalogueCandidate) : List MarketKey :=
  let values := askedKeys (fun key => retained.any fun candidate => decide (candidate.key = key))
    request.asked
  values ++ ((additional.insertionSort fun first second =>
    candidateRank first.toCatalogueMarket ≤ candidateRank second.toCatalogueMarket).map
      fun candidate => candidate.key).filter fun key => key ∉ values

structure CatalogueScanResult (Pages : Type) where
  pages : Pages
  discoveryMarketKeys : List MarketKey
  dataCutoff : Instant
  historicalCutoff : Instant
  scannedMarketCount : ℕ

/-- `scan_catalogue`.  Reading the metadata of the markets that are kept may raise. -/
def scanCatalogue {Pages : Type} (historicalCutoff : Except KalshiError Instant)
    (responses : List (Except KalshiError ArchivedResponse))
    (materialize : List CataloguePageEvidence → List CatalogueCandidate →
      Except KalshiError Pages) (completed : Instant) :
    Except KalshiError (CatalogueScanResult Pages) := do
  let historicalCutoff ← historicalCutoff
  let state ← scanPages readings request .start responses
  let keys := discoveryKeys request state.retained state.additional
  let selected := keys.filterMap fun key =>
    (state.retained ++ state.additional).find? fun candidate => decide (candidate.key = key)
  let pages ← materialize state.pages selected
  let dataCutoff := request.cutoff.getD completed
  state.pages.forM fun page =>
    checkCutoff (some page.observedAt) (some dataCutoff) "catalogue page observation"
  .ok ⟨pages, keys, dataCutoff, historicalCutoff, state.scannedMarketCount⟩

end Kalshi

end VTrade
