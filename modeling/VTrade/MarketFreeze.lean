/-
# Market freezes

A freeze is what one cycle may see of the venue: the markets of the scanned catalogue, the
markets whose books were read, and an observation of the resolution of every market that is
held, was touched or is asked for.  An observation is read from a response of the venue, and
none of a freeze is newer than its cutoff.

A freeze without a requested cutoff reads its observations up to a later time than the one it
is cut off at in the end.
-/

import VTrade.ArtifactRegistration
import VTrade.Catalogue
import VTrade.Workers

namespace VTrade

attribute [ext] FeePolicySnapshot

/-- The proofs of its checks tell no policy from another. -/
instance : DecidableEq FeePolicySnapshot := fun _ _ =>
  decidable_of_iff _ FeePolicySnapshot.ext_iff.symm

deriving instance DecidableEq for BinaryMarket

/-- A timestamp that names an instant. -/
abbrev AwareDatetime := { value : Datetime // value.isAware = true }

/-- An observation with the time its source gives and the artifact it was read from. -/
structure ResolutionEvidence extends ResolutionObservation where
  sourceTimestamp : Option AwareDatetime
  audit : RawArtifact

/-- A response to a request for a market, with the reading of the clock when it came. -/
structure ResolutionResponse where
  payload : Json
  observedAt : Instant
  observed : Datetime
  artifact : RawArtifact
  observed_eq : Datetime.utc observedAt = some observed

/-- How a value of a response is read as a time: numbers are seconds or milliseconds, texts are
numbers or in the ISO format. -/
abbrev TimestampReading := Json → String → Except KalshiError AwareDatetime

namespace Kalshi

/-! ## Reading an observation -/

/-- `_root`. -/
def root (payload : Json) (label : String) : Except KalshiError JsonObject :=
  match payload with
  | .object fields => .ok fields
  | .null | .bool _ | .int _ | .float _ | .text _ | .array _ =>
      .error (.payloadError (label ++ " must be a JSON object"))

/-- `_nested_or_root`. -/
def nestedOrRoot (fields : JsonObject) (key : String) : Except KalshiError JsonObject :=
  match Json.get fields key with
  | none | some .null => .ok fields
  | some nested => root nested key

/-- `_status` of a resolution. -/
def resolutionStatus (value : Json) : Except KalshiError MarketStatus :=
  match value with
  | .text _ => status value
  | .null | .bool _ | .int _ | .float _ | .array _ | .object _ =>
      .error (.payloadError "resolution status must be a known lifecycle string")

def resolutionResult : Json → Except KalshiError (Option OutcomeSide)
  | .null | .text "" => .ok none
  | .text "yes" => .ok (some .yes)
  | .text "no" => .ok (some .no)
  | .text _ | .bool _ | .int _ | .float _ | .array _ | .object _ =>
      .error (.payloadError "resolution result is not binary YES/NO")

/-- Whether a field of a payload has a value. -/
def hasField (payload : JsonObject) (field : String) : Bool :=
  (Json.get payload field).any fun value => !isMissing value

/-- `_parse_timestamp` of a field. -/
def fieldTimestamp (read : TimestampReading) (payload : JsonObject) (field label : String) :
    Except KalshiError (Option AwareDatetime) :=
  match (Json.get payload field).filter fun value => !isMissing value with
  | none => .ok none
  | some value => (read value label).map some

/-- `_resolution_timestamp`: the first of the times that a payload has. -/
def resolutionTimestamp (read : TimestampReading) (payload : JsonObject) :
    Except KalshiError (Option AwareDatetime) :=
  match ["settlement_ts", "updated_time", "updated_ts", "close_time"].find? (hasField payload) with
  | none => .ok none
  | some field => fieldTimestamp read payload field ("resolution " ++ field)

/-- The object of a response that describes the market. -/
def marketPayload (response : ResolutionResponse) : Except KalshiError JsonObject := do
  nestedOrRoot (← root response.payload "response") "market"

/-- What `get_resolutions` reads from the response for one market. -/
def readResolution (read : TimestampReading) (key : MarketKey) (cutoff : Instant)
    (response : ResolutionResponse) : Except KalshiError ResolutionEvidence := do
  let payload ← marketPayload response
  let returned ← firstString payload ["ticker", "market_ticker"] "resolution ticker"
  if returned.1 ≠ key.marketRef then
    .error (.payloadError "resolution response ticker does not match request")
  else do
    let status ← resolutionStatus ((Json.get payload "status").getD .null)
    let result ← resolutionResult ((Json.get payload "result").getD .null)
    let sourceTimestamp ← resolutionTimestamp read payload
    let settlementTs ← fieldTimestamp read payload "settlement_ts" "settlement_ts"
    checkCutoff (sourceTimestamp.map fun value => value.1.instant) (some cutoff)
      "resolution source timestamp"
    .ok {
      marketKey := key
      status := status
      result := result
      observedAt := response.observedAt
      settlementTs := settlementTs.map Subtype.val
      blocked := status = .finalized ∧ (result = none ∨ settlementTs = none)
      snapshotId := observationId key response.observed response.artifact.sha256.hex
      settlementTs_aware := by
        intro value hvalue
        obtain ⟨aware, -, rfl⟩ := Option.map_eq_some_iff.mp hvalue
        exact aware.2
      incomplete_blocked := by
        rintro rfl hincomplete
        simpa using hincomplete
      snapshotId_nonblank := observationId_not_isBlank _ _ _
      sourceTimestamp := sourceTimestamp
      audit := response.artifact }

/-- `get_resolutions`: one observation for every market, those after the cutoff left out. -/
def getResolutions (read : TimestampReading)
    (respond : MarketKey → Except KalshiError ResolutionResponse) (keys : List MarketKey)
    (cutoff : Instant) : Except KalshiError (List ResolutionEvidence) := do
  let observations ← (KeyedList.firsts id keys).mapM fun key => do
    readResolution read key cutoff (← respond key)
  .ok (observations.filter fun observation => observation.observedAt ≤ cutoff)

end Kalshi

/-! ## The freeze -/

/-- A market as a freeze has it, with when and from what it was read. -/
structure FrozenMarket extends BinaryMarket where
  /-- The question, the rules, the times and the sizes, as one text. -/
  details : String
  observedAt : Instant
  audit : RawArtifact
  deriving DecidableEq

/-- A market whose order book was read. -/
structure BookContext extends FrozenMarket where
  bookObservedAt : Instant

/-- A page of the scanned catalogue. -/
structure FrozenPage where
  markets : List FrozenMarket
  audit : RawArtifact

structure KalshiFreezeRequest where
  heldMarkets : List MarketKey
  touchedMarkets : List MarketKey
  historicalMarkets : List MarketKey
  cutoff : Option Instant

/-- The markets whose resolution is read. -/
def KalshiFreezeRequest.resolutionMarketKeys (request : KalshiFreezeRequest) : List MarketKey :=
  KeyedList.firsts id (request.heldMarkets ++ request.touchedMarkets ++ request.historicalMarkets)

structure KalshiMarketFreeze where
  pages : List FrozenPage
  historicalCutoff : Instant
  contexts : List BookContext
  resolutionMarketKeys : List MarketKey
  resolutions : List ResolutionEvidence
  dataCutoff : Instant
  resolutions_observed : ∀ observation ∈ resolutions, observation.observedAt ≤ dataCutoff ∧
    ∀ observed ∈ observation.audit.observedAt, observed ≤ dataCutoff

/-- What the venue and the clock give to one freeze. -/
structure FreezeReadings where
  pages : List FrozenPage
  historicalCutoff : Instant
  contexts : List BookContext
  respond : MarketKey → Except KalshiError ResolutionResponse
  /-- The clock before the resolutions are read. -/
  beforeResolutions : Instant
  /-- The clock when everything is read. -/
  completed : Instant

inductive FreezeError
  | venue (error : KalshiError)
  | raised (error : Raised)

structure KalshiMarketFreezeService where
  readTimestamp : TimestampReading
  /-- In microseconds. -/
  freezeDeadline : ℤ
  freezeDeadline_pos : 0 < freezeDeadline

namespace KalshiMarketFreezeService

variable (service : KalshiMarketFreezeService) (request : KalshiFreezeRequest)
  (readings : FreezeReadings)

/-- Up to when the resolutions are read. -/
def resolutionCutoff : Instant :=
  request.cutoff.getD (readings.beforeResolutions + service.freezeDeadline)

/-- `freeze`, from the markets that the venue lists on. -/
def freeze : Except FreezeError KalshiMarketFreeze := do
  let resolutions ← (Kalshi.getResolutions service.readTimestamp readings.respond
    request.resolutionMarketKeys (service.resolutionCutoff request readings)).mapError .venue
  let dataCutoff := request.cutoff.getD readings.completed
  if readings.contexts.any fun context =>
      dataCutoff < context.bookObservedAt ∨ dataCutoff < context.observedAt then
    .error (.raised (.runtimeError "book observation is newer than the freeze cutoff"))
  else if h : ∀ observation ∈ resolutions, observation.observedAt ≤ dataCutoff ∧
      ∀ observed ∈ observation.audit.observedAt, observed ≤ dataCutoff then
    .ok {
      pages := readings.pages
      historicalCutoff := readings.historicalCutoff
      contexts := readings.contexts
      resolutionMarketKeys := request.resolutionMarketKeys
      resolutions := resolutions
      dataCutoff := dataCutoff
      resolutions_observed := h }
  else
    .error (.raised (.valueError "freeze contains evidence newer than its data cutoff"))

end KalshiMarketFreezeService

end VTrade
