/-
# Look-ahead

What the venue says of a market, of its series and of its resolution comes in separate responses,
each observed at its own time.  A payload whose own times are not later than its own observation is
no look-ahead, whenever the other responses were observed.  The market keeps to that; the series is
held against the observation of the page that lists the market, and a resolution that has no time
of its own against the time at which the market closes.
-/

import VTrade.ResolutionPersistence

namespace VTrade

def KalshiError.isLookAhead : KalshiError → Bool
  | .lookAheadError _ => true
  | .payloadError _ | .cursorError _ | .transportError _ => false

namespace Kalshi

/-- How the times of payloads are read.  What is not a time is refused for its payload. -/
structure PayloadTimes where
  /-- `_parse_timestamp` of what is not missing. -/
  read : TimestampReading
  /-- How Python compares values. -/
  same : Json → Json → Bool
  read_error : ∀ value label error, read value label = .error error → error.isLookAhead = false

/-! ## Reading payloads -/

/-- The values of the fields of a payload that are not missing. -/
def presentValues (payload : JsonObject) (fields : List String) : List Json :=
  (fields.filterMap (Json.get payload)).filter fun value => !isMissing value

/-- `_optional_timestamp`. -/
def optionalTimestamp (times : PayloadTimes) (payload : JsonObject) (fields : List String)
    (label : String) : Except KalshiError (Option Instant) :=
  match presentValues payload fields with
  | [] => .ok none
  | [value] => (times.read value label).map fun time => some time.1.instant
  | value :: second :: _ =>
      if times.same value second then
        (times.read value label).map fun time => some time.1.instant
      else .error (.payloadError (label ++ " has conflicting aliases"))

/-- What a market must not be. -/
def admitMarket (payload : JsonObject) : Except KalshiError Unit :=
  let forbidden := ordinaryBinaryForbiddenFields.filter fun field =>
    (Json.get payload field).isSome
  Checks.raiseFirst [
    (forbidden ≠ [], .payloadError ("market contains forbidden token-shaped fields: [" ++
      ", ".intercalate (forbidden.map fun field => "'" ++ field ++ "'") ++ "]")),
    (multivariateMarketFields.any fun field => (Json.get payload field).any (!isUnset ·),
      .payloadError "multivariate or combo market is outside v1"),
    (!(match Json.get payload "market_type" with
      | none | some .null => true
      | some value => value.isText "binary" || value.isText "Binary"),
      .payloadError "only ordinary binary markets are admitted"),
    ((Json.get payload "outcomes").any fun outcomes => !(texts outcomes).any fun outcomes =>
        outcomes.all (fun outcome => outcome = "YES" ∨ outcome = "NO") &&
          decide ("YES" ∈ outcomes) && decide ("NO" ∈ outcomes),
      .payloadError "ordinary binary markets require exactly YES and NO outcomes"),
    ((Json.get payload "result").any fun value =>
        !(isMissing value || value.isText "yes" || value.isText "no"),
      .payloadError "only binary YES/NO results are admitted")]

/-- The text of a field that may be missing, as a part of a source. -/
def sourcePart (item : JsonObject) (field message : String) :
    Except KalshiError (List String) :=
  match Json.get item field with
  | some (.text value) => .ok (if Text.isBlank value then [] else [value])
  | none | some .null => .ok []
  | some _ => .error (.payloadError message)

/-- One of `settlement_sources`. -/
def settlementSource : Json → Except KalshiError String
  | .text value =>
      if Text.isBlank value then
        .error (.payloadError "settlement_sources must contain non-empty strings")
      else .ok value
  | .object item => do
      let name ← sourcePart item "name" "settlement source name must be a string"
      let url ← sourcePart item "url" "settlement source URL must be a string"
      if name ++ url = [] then
        .error (.payloadError "settlement source requires a name or URL")
      else .ok (": ".intercalate (name ++ url))
  | .null | .bool _ | .int _ | .float _ | .array _ =>
      .error (.payloadError "settlement_sources contains an invalid source")

/-- `_resolution_source`. -/
def resolutionSource (payload : JsonObject) : Except KalshiError (Option String) :=
  match (Json.get payload "resolution_source").filter fun value => !isMissing value with
  | some value =>
      match opaqueText value with
      | some text => .ok (some text.1)
      | none => .error (.payloadError "resolution_source must be a non-empty string")
  | none =>
      match Json.get payload "settlement_sources" with
      | none | some .null => .ok none
      | some (.text value) => .ok (if Text.isBlank value then none else some value)
      | some (.array items) => do
          let sources ← items.mapM settlementSource
          .ok (if sources = [] then none else some ("\n".intercalate sources))
      | some _ => .error (.payloadError "settlement_sources must be an array")

/-! ## Markets, events and series -/

/-- `_normalize_market` for a known series, as far as its times: what it reads after them is
refused for other reasons. -/
def normalizeMarket (times : PayloadTimes) (payload : JsonObject) (observedAt : Instant)
    (cutoff : Option Instant) : Except KalshiError OpaqueText := do
  admitMarket payload
  let marketRef ← firstString payload ["ticker", "market_ticker"] "market ticker"
  let _ ← firstString payload ["event_ticker", "event_ref"] "event ticker"
  let _ ← status ((Json.get payload "status").getD .null)
  let _ ← firstString payload ["title", "question"] "market question"
  let _ ← firstString payload ["rules_primary", "resolution_rules", "rules"] "resolution rules"
  let _ ← resolutionSource payload
  match ← optionalTimestamp times payload ["open_time"] "open_time" with
  | none => .error (.payloadError "open_time is required")
  | some _ => do
      let _ ← optionalTimestamp times payload ["close_time"] "close_time"
      let _ ← optionalTimestamp times payload ["expected_expiration_time"]
        "expected_expiration_time"
      let _ ← optionalTimestamp times payload ["latest_expiration_time"] "latest_expiration_time"
      let _ ← optionalTimestamp times payload ["fee_waiver_expiration_time"]
        "fee_waiver_expiration_time"
      let updated ← optionalTimestamp times payload ["updated_time", "updated_ts", "updated_at"]
        "updated_time"
      checkCutoff updated cutoff "updated_time"
      if updated.any (observedAt < ·) then
        .error (.lookAheadError "updated_time is newer than local observation")
      else .ok marketRef

/-- `_event_from_market` by its metadata, or by the market if it has none. -/
def eventFromMarket (source : JsonObject) : Except KalshiError Unit := do
  let _ ← optionalString source ["title", "event_title", "event_name"] "event title"
  let _ ← optionalString source ["category"] "event category"
  .ok ()

/-- The checks of the fees of a series. -/
def checkSeriesFees (source : JsonObject) : Except KalshiError Unit :=
  let numerator := Json.get source "fee_multiplier_numerator"
  let denominator := Json.get source "fee_multiplier_denominator"
  let present (value : Option Json) : Bool := value.any fun value => match value with
    | .null => false
    | .bool _ | .int _ | .float _ | .text _ | .array _ | .object _ => true
  let whole (value : Option Json) : Bool := value.any fun value => match value with
    | .int _ => true
    | .null | .bool _ | .float _ | .text _ | .array _ | .object _ => false
  Checks.raiseFirst [
    (present (Json.get source "fee_type") && ((Json.get source "fee_type").bind opaqueText).isNone,
      .payloadError "series fee_type must be a non-empty string"),
    ((Json.get source "fee_multiplier").any fun value => match value with
      | .bool _ => true
      | .null | .int _ | .float _ | .text _ | .array _ | .object _ => false,
      .payloadError "series fee_multiplier must be an exact number"),
    ((present numerator || present denominator) && !(whole numerator && whole denominator),
      .payloadError "series fee multiplier rational is malformed")]

/-- What `_series_from_market` reads up to the time of the last update of the series. -/
def seriesUpdatedAt (times : PayloadTimes) (source : JsonObject) :
    Except KalshiError (Option Instant) := do
  let _ ← optionalString source ["title", "series_title", "series_name"] "series title"
  let _ ← optionalString source ["rules_primary", "series_rules"] "series rules"
  checkSeriesFees source
  optionalTimestamp times source ["last_updated_ts", "updated_time", "updated_ts", "updated_at"]
    "series last_updated_ts"

/-- `_series_tags`. -/
def seriesTags (source : JsonObject) : Except KalshiError (List OpaqueText) :=
  match Json.get source "tags" with
  | none | some .null => .ok []
  | some (.array tags) =>
      tags.zipIdx.mapM fun tag =>
        match opaqueText tag.1 with
        | some text => .ok text
        | none => .error (.payloadError
            ("series tags[" ++ toString tag.2 ++ "] must be a non-empty string"))
  | some _ => .error (.payloadError "series tags must be an array")

/-- `_series_from_market`, with the page that lists the market. -/
def seriesFromMarket (times : PayloadTimes) (source : JsonObject) (pageObservedAt : Instant) :
    Except KalshiError (Option Instant) := do
  let updated ← seriesUpdatedAt times source
  if updated.any (pageObservedAt < ·) then
    .error (.lookAheadError "series last_updated_ts is newer than local observation")
  else do
    let _ ← seriesTags source
    .ok updated

/-! ## Answers of the venue -/

structure VenueAnswer where
  payload : Json
  observedAt : Instant

/-- What the venue answers, each time it is asked. -/
structure Venue where
  event : String → VenueAnswer
  series : String → VenueAnswer
  market : MarketKey → VenueAnswer
  resolution : MarketKey → ResolutionResponse

variable (times : PayloadTimes) (venue : Venue)

/-- The metadata in an answer, which has the reference it was asked for. -/
def metadata (answer : VenueAnswer) (key : String) (fields : List String) (label ref message : String) :
    Except KalshiError JsonObject := do
  let payload ← nestedOrRoot (← root answer.payload "response") key
  let returned ← firstString payload fields label
  if returned.1 ≠ ref then .error (.payloadError message) else .ok payload

/-- `_fetch_event_metadata`. -/
def fetchEventMetadata (eventRef : String) : Except KalshiError JsonObject :=
  metadata (venue.event eventRef) "event" ["event_ticker", "event_ref"] "event ticker" eventRef
    "event response reference does not match request"

/-- `_fetch_series_metadata`. -/
def fetchSeriesMetadata (seriesRef : String) : Except KalshiError JsonObject :=
  metadata (venue.series seriesRef) "series" ["ticker", "series_ticker", "series_ref"]
    "series ticker" seriesRef "series response reference does not match request"

/-- The series of a market, by its event if it does not say. -/
def seriesOf (payload : JsonObject) : Except KalshiError (OpaqueText × Option JsonObject) := do
  match ← optionalString payload ["series_ticker", "series_ref"] "series ticker" with
  | some seriesRef => .ok (seriesRef, none)
  | none => do
      let eventRef ← firstString payload ["event_ticker", "event_ref"] "event ticker"
      let event ← fetchEventMetadata venue eventRef.1
      let seriesRef ← firstString event ["series_ticker", "series_ref"] "series ticker"
      .ok (seriesRef, some event)

/-- The source of the resolution that an event gives. -/
def eventSource (event : Option JsonObject) : Except KalshiError (Option String) :=
  match event with
  | some event => resolutionSource event
  | none => .ok none

/-- What `_materialize_candidate` reads of a row before its series: the metadata of the series. -/
def candidateSeries (row : JsonObject) (pageObservedAt : Instant) (cutoff : Option Instant) :
    Except KalshiError JsonObject := do
  let (seriesRef, event) ← seriesOf venue row
  let series ← fetchSeriesMetadata venue seriesRef.1
  let _ ← eventSource event
  let _ ← normalizeMarket times row pageObservedAt cutoff
  eventFromMarket (event.getD row)
  .ok series

/-- `_materialize_candidate`, with the time of the last update of the series. -/
def materializeCandidate (row : JsonObject) (pageObservedAt : Instant) (cutoff : Option Instant) :
    Except KalshiError (Option Instant) := do
  let series ← candidateSeries times venue row pageObservedAt cutoff
  seriesFromMarket times series pageObservedAt

/-- `_fetch_market` of a market that is not cached. -/
def fetchMarket (key : MarketKey) (cutoff : Instant) : Except KalshiError OpaqueText := do
  let payload ← nestedOrRoot (← root (venue.market key).payload "response") "market"
  let (_, event) ← seriesOf venue payload
  let _ ← eventSource event
  let marketRef ← normalizeMarket times payload (venue.market key).observedAt (some cutoff)
  if marketRef.1 ≠ key.marketRef then
    .error (.payloadError "market response ticker does not match the requested key")
  else .ok marketRef

/-- What `get_resolutions` does for one market, which may be cached. -/
def resolveMarket (key : MarketKey) (cached : Bool) (cutoff : Instant) :
    Except KalshiError ResolutionEvidence :=
  if cached then readResolution times.read key cutoff (venue.resolution key)
  else do
    let _ ← fetchMarket times venue key cutoff
    readResolution times.read key cutoff (venue.resolution key)

/-! ## What is refused as look-ahead -/

/-- A computation does not refuse what it reads as look-ahead. -/
abbrev NoLookAhead {α : Type} (result : Except KalshiError α) : Prop :=
  Checks.RaisesOnly (fun error => error.isLookAhead = false) result

section NoLookAhead

variable {times venue} {payload row series : JsonObject} {fields : List String} {label : String}
  {observedAt pageObservedAt : Instant} {cutoff : Option Instant}

theorem optionalString_noLookAhead : NoLookAhead (optionalString payload fields label) := by
  unfold optionalString
  dsimp only
  split
  · exact Checks.raisesOnly_error rfl
  · exact Checks.raisesOnly_ok none
  · exact Checks.raisesOnly_ite (Checks.raisesOnly_error rfl) (Checks.raisesOnly_ok _)

theorem firstString_noLookAhead : NoLookAhead (firstString payload fields label) := by
  apply Checks.raisesOnly_bind optionalString_noLookAhead
  intro text _
  cases text with
  | none => exact Checks.raisesOnly_error rfl
  | some text => exact Checks.raisesOnly_ok text

theorem status_noLookAhead (value : Json) : NoLookAhead (status value) := by
  unfold status
  split
  all_goals first
    | exact Checks.raisesOnly_ok _
    | exact Checks.raisesOnly_error rfl

theorem read_noLookAhead (value : Json) : NoLookAhead (times.read value label) :=
  fun error h => times.read_error value label error h

theorem map_noLookAhead {α β : Type} {f : α → β} {result : Except KalshiError α}
    (h : NoLookAhead result) : NoLookAhead (result.map f) := by
  cases result with
  | error error => exact Checks.raisesOnly_error (h error rfl)
  | ok a => exact Checks.raisesOnly_ok (f a)

theorem optionalTimestamp_noLookAhead :
    NoLookAhead (optionalTimestamp times payload fields label) := by
  unfold optionalTimestamp
  split
  · exact Checks.raisesOnly_ok none
  · exact map_noLookAhead (read_noLookAhead _)
  · exact Checks.raisesOnly_ite (map_noLookAhead (read_noLookAhead _))
      (Checks.raisesOnly_error rfl)

theorem admitMarket_noLookAhead : NoLookAhead (admitMarket payload) := by
  apply Checks.raisesOnly_raiseFirst
  simp [KalshiError.isLookAhead]

theorem sourcePart_noLookAhead {field message : String} :
    NoLookAhead (sourcePart payload field message) := by
  unfold sourcePart
  split
  · exact Checks.raisesOnly_ok _
  · exact Checks.raisesOnly_ok []
  · exact Checks.raisesOnly_ok []
  · exact Checks.raisesOnly_error rfl

theorem settlementSource_noLookAhead (value : Json) : NoLookAhead (settlementSource value) := by
  unfold settlementSource
  split
  · exact Checks.raisesOnly_ite (Checks.raisesOnly_error rfl) (Checks.raisesOnly_ok _)
  · apply Checks.raisesOnly_bind sourcePart_noLookAhead
    intro name _
    apply Checks.raisesOnly_bind sourcePart_noLookAhead
    intro url _
    exact Checks.raisesOnly_ite (Checks.raisesOnly_error rfl) (Checks.raisesOnly_ok _)
  all_goals exact Checks.raisesOnly_error rfl

theorem resolutionSource_noLookAhead : NoLookAhead (resolutionSource payload) := by
  unfold resolutionSource
  split
  · split
    · exact Checks.raisesOnly_ok _
    · exact Checks.raisesOnly_error rfl
  · split
    · exact Checks.raisesOnly_ok none
    · exact Checks.raisesOnly_ok none
    · exact Checks.raisesOnly_ok _
    · apply Checks.raisesOnly_bind (Checks.raisesOnly_mapM settlementSource_noLookAhead)
      intro sources _
      exact Checks.raisesOnly_ok _
    · exact Checks.raisesOnly_error rfl

theorem eventFromMarket_noLookAhead : NoLookAhead (eventFromMarket payload) := by
  apply Checks.raisesOnly_bind optionalString_noLookAhead
  intro title _
  apply Checks.raisesOnly_bind optionalString_noLookAhead
  intro category _
  exact Checks.raisesOnly_ok ()

theorem checkSeriesFees_noLookAhead : NoLookAhead (checkSeriesFees payload) := by
  apply Checks.raisesOnly_raiseFirst
  simp [KalshiError.isLookAhead]

theorem seriesUpdatedAt_noLookAhead : NoLookAhead (seriesUpdatedAt times payload) := by
  apply Checks.raisesOnly_bind optionalString_noLookAhead
  intro title _
  apply Checks.raisesOnly_bind optionalString_noLookAhead
  intro rules _
  apply Checks.raisesOnly_bind checkSeriesFees_noLookAhead
  intro _ _
  exact optionalTimestamp_noLookAhead

theorem seriesTags_noLookAhead : NoLookAhead (seriesTags payload) := by
  unfold seriesTags
  split
  · exact Checks.raisesOnly_ok []
  · exact Checks.raisesOnly_ok []
  · apply Checks.raisesOnly_mapM
    intro tag
    split
    · exact Checks.raisesOnly_ok _
    · exact Checks.raisesOnly_error rfl
  · exact Checks.raisesOnly_error rfl

theorem root_noLookAhead (value : Json) : NoLookAhead (root value label) := by
  unfold root
  split
  · exact Checks.raisesOnly_ok _
  all_goals exact Checks.raisesOnly_error rfl

theorem nestedOrRoot_noLookAhead {key : String} : NoLookAhead (nestedOrRoot payload key) := by
  unfold nestedOrRoot
  split
  · exact Checks.raisesOnly_ok payload
  · exact Checks.raisesOnly_ok payload
  · exact root_noLookAhead _

theorem metadata_noLookAhead {answer : VenueAnswer} {key ref message : String} :
    NoLookAhead (metadata answer key fields label ref message) := by
  apply Checks.raisesOnly_bind (root_noLookAhead _)
  intro top _
  apply Checks.raisesOnly_bind nestedOrRoot_noLookAhead
  intro nested _
  apply Checks.raisesOnly_bind firstString_noLookAhead
  intro returned _
  exact Checks.raisesOnly_ite (Checks.raisesOnly_error rfl) (Checks.raisesOnly_ok nested)

theorem seriesOf_noLookAhead : NoLookAhead (seriesOf venue payload) := by
  apply Checks.raisesOnly_bind optionalString_noLookAhead
  intro found _
  cases found with
  | some seriesRef => exact Checks.raisesOnly_ok _
  | none =>
      apply Checks.raisesOnly_bind firstString_noLookAhead
      intro eventRef _
      apply Checks.raisesOnly_bind metadata_noLookAhead
      intro event _
      apply Checks.raisesOnly_bind firstString_noLookAhead
      intro seriesRef _
      exact Checks.raisesOnly_ok _

theorem eventSource_noLookAhead (event : Option JsonObject) : NoLookAhead (eventSource event) := by
  cases event with
  | none => exact Checks.raisesOnly_ok none
  | some event => exact resolutionSource_noLookAhead

end NoLookAhead

/-! ## Payloads with times of their own -/

/-- The fields in which a payload says when it was updated or settled. -/
def ownTimeFields : List String :=
  ["last_updated_ts", "updated_time", "updated_ts", "updated_at", "settlement_ts"]

/-- The times of a payload are not later than a time. -/
def OwnTimes (times : PayloadTimes) (payload : JsonObject) (observedAt : Instant) : Prop :=
  ∀ field ∈ ownTimeFields, ∀ value ∈ Json.get payload field, isMissing value = false →
    ∀ label time, times.read value label = .ok time → time.1.instant ≤ observedAt

section OwnTimes

variable {times venue} {payload row series : JsonObject} {fields : List String} {label : String}
  {observedAt pageObservedAt updated : Instant} {cutoff : Option Instant}

theorem optionalTimestamp_eq_some
    (h : optionalTimestamp times payload fields label = .ok (some updated)) :
    ∃ field ∈ fields, ∃ value ∈ Json.get payload field, isMissing value = false ∧
      ∃ time, times.read value label = .ok time ∧ updated = time.1.instant := by
  have hfirst {value : Json} {rest : List Json} (hpresent : presentValues payload fields = value :: rest)
      (hread : (times.read value label).map (fun time => some time.1.instant) = .ok (some updated)) :
      ∃ field ∈ fields, ∃ value ∈ Json.get payload field, isMissing value = false ∧
        ∃ time, times.read value label = .ok time ∧ updated = time.1.instant := by
    have hmem : value ∈ presentValues payload fields := by
      rw [hpresent]
      exact List.mem_cons_self
    obtain ⟨hvalue, hpresent⟩ := List.mem_filter.mp hmem
    obtain ⟨field, hfield, hget⟩ := List.mem_filterMap.mp hvalue
    obtain ⟨time, htime, hsame⟩ := Checks.map_eq_ok.mp hread
    exact ⟨field, hfield, value, hget, by simpa using hpresent, time, htime,
      (Option.some.inj hsame).symm⟩
  unfold optionalTimestamp at h
  split at h
  · cases h
  next value hpresent => exact hfirst hpresent h
  next value second rest hpresent =>
    split at h
    · exact hfirst hpresent h
    · cases h

/-- The time of the update of a payload is one of its own. -/
theorem OwnTimes.optionalTimestamp_le (h : OwnTimes times payload observedAt)
    (hfields : ∀ field ∈ fields, field ∈ ownTimeFields)
    (hupdated : optionalTimestamp times payload fields label = .ok (some updated)) :
    updated ≤ observedAt := by
  obtain ⟨field, hfield, value, hvalue, hpresent, time, htime, rfl⟩ :=
    optionalTimestamp_eq_some hupdated
  exact h field (hfields field hfield) value hvalue hpresent label time htime

/-- A market whose own times are not later than its observation is not refused as look-ahead. -/
theorem normalizeMarket_noLookAhead (hown : OwnTimes times payload observedAt)
    (hobserved : ∀ cutoff' ∈ cutoff, observedAt ≤ cutoff') :
    NoLookAhead (normalizeMarket times payload observedAt cutoff) := by
  apply Checks.raisesOnly_bind admitMarket_noLookAhead
  intro _ _
  apply Checks.raisesOnly_bind firstString_noLookAhead
  intro marketRef _
  apply Checks.raisesOnly_bind firstString_noLookAhead
  intro eventRef _
  apply Checks.raisesOnly_bind (status_noLookAhead _)
  intro status _
  apply Checks.raisesOnly_bind firstString_noLookAhead
  intro question _
  apply Checks.raisesOnly_bind firstString_noLookAhead
  intro rules _
  apply Checks.raisesOnly_bind resolutionSource_noLookAhead
  intro source _
  apply Checks.raisesOnly_bind optionalTimestamp_noLookAhead
  intro openTime _
  cases openTime with
  | none => exact Checks.raisesOnly_error rfl
  | some openTime =>
      apply Checks.raisesOnly_bind optionalTimestamp_noLookAhead
      intro closeTime _
      apply Checks.raisesOnly_bind optionalTimestamp_noLookAhead
      intro expected _
      apply Checks.raisesOnly_bind optionalTimestamp_noLookAhead
      intro latest _
      apply Checks.raisesOnly_bind optionalTimestamp_noLookAhead
      intro waiver _
      apply Checks.raisesOnly_bind optionalTimestamp_noLookAhead
      intro found hfound
      cases found with
      | none =>
          have hcutoff : checkCutoff none cutoff "updated_time" = .ok () := by
            cases cutoff <;> rfl
          apply Checks.raisesOnly_bind
          · rw [hcutoff]
            exact Checks.raisesOnly_ok ()
          · intro _ _
            exact Checks.raisesOnly_ok marketRef
      | some updated =>
          have hupdated : updated ≤ observedAt := hown.optionalTimestamp_le (by decide) hfound
          have hcutoff : checkCutoff (some updated) cutoff "updated_time" = .ok () := by
            cases cutoff with
            | none => rfl
            | some cutoff =>
                exact if_neg (not_lt.mpr (hupdated.trans (hobserved cutoff rfl)))
          apply Checks.raisesOnly_bind
          · rw [hcutoff]
            exact Checks.raisesOnly_ok ()
          · intro _ _
            rw [if_neg (by simpa using hupdated)]
            exact Checks.raisesOnly_ok marketRef

theorem candidateSeries_noLookAhead (hown : OwnTimes times row pageObservedAt)
    (hobserved : ∀ cutoff' ∈ cutoff, pageObservedAt ≤ cutoff') :
    NoLookAhead (candidateSeries times venue row pageObservedAt cutoff) := by
  apply Checks.raisesOnly_bind seriesOf_noLookAhead
  intro found _
  apply Checks.raisesOnly_bind metadata_noLookAhead
  intro series _
  apply Checks.raisesOnly_bind (eventSource_noLookAhead _)
  intro source _
  apply Checks.raisesOnly_bind (normalizeMarket_noLookAhead hown hobserved)
  intro marketRef _
  apply Checks.raisesOnly_bind eventFromMarket_noLookAhead
  intro _ _
  exact Checks.raisesOnly_ok series

/-- A series is refused as look-ahead exactly when it was updated after the observation of the
page. -/
theorem seriesFromMarket_noLookAhead_iff :
    NoLookAhead (seriesFromMarket times series pageObservedAt) ↔
      ∀ updated, seriesUpdatedAt times series = .ok (some updated) → updated ≤ pageObservedAt := by
  unfold seriesFromMarket
  cases hfound : seriesUpdatedAt times series with
  | error error =>
      refine ⟨fun _ _ h => (by cases h), fun _ => ?_⟩
      exact Checks.raisesOnly_error (seriesUpdatedAt_noLookAhead error hfound)
  | ok found =>
      constructor
      · rintro h updated hupdated
        cases hupdated
        by_contra hlate
        have hraised := h (.lookAheadError "series last_updated_ts is newer than local observation")
          (if_pos (by simpa using hlate))
        cases hraised
      · intro h
        have hseen : ¬ found.any (pageObservedAt < ·) = true := by
          cases found with
          | none => simp
          | some updated => simpa using h updated rfl
        dsimp only [bind, Except.bind]
        rw [if_neg hseen]
        apply Checks.raisesOnly_bind seriesTags_noLookAhead
        intro tags _
        exact Checks.raisesOnly_ok _

/-- A listed market is refused as look-ahead exactly when its series was updated after the
observation of the page. -/
theorem materializeCandidate_noLookAhead_iff (hown : OwnTimes times row pageObservedAt)
    (hobserved : ∀ cutoff' ∈ cutoff, pageObservedAt ≤ cutoff') :
    NoLookAhead (materializeCandidate times venue row pageObservedAt cutoff) ↔
      ∀ series updated, candidateSeries times venue row pageObservedAt cutoff = .ok series →
        seriesUpdatedAt times series = .ok (some updated) → updated ≤ pageObservedAt := by
  unfold materializeCandidate
  cases hseries : candidateSeries times venue row pageObservedAt cutoff with
  | error error =>
      refine ⟨fun _ _ _ h => (by cases h), fun _ => ?_⟩
      exact Checks.raisesOnly_error (candidateSeries_noLookAhead hown hobserved error hseries)
  | ok series =>
      have hiff : NoLookAhead (seriesFromMarket times series pageObservedAt) ↔ _ :=
        seriesFromMarket_noLookAhead_iff
      constructor
      · rintro h _ updated ⟨⟩
        exact hiff.mp h updated
      · intro h
        exact hiff.mpr fun updated => h series updated rfl

/-- An answer is timely if its payload is and it is not observed after the cutoff. -/
structure TimelyAnswer (times : PayloadTimes) (answer : VenueAnswer) (key : String)
    (cutoff : Option Instant) : Prop where
  own : ∀ top payload, root answer.payload "response" = .ok top →
    nestedOrRoot top key = .ok payload → OwnTimes times payload answer.observedAt
  observed : ∀ cutoff' ∈ cutoff, answer.observedAt ≤ cutoff'

/-- The market that is asked for is not refused as look-ahead. -/
theorem fetchMarket_noLookAhead {key : MarketKey} {cutoff : Instant}
    (h : TimelyAnswer times (venue.market key) "market" (some cutoff)) :
    NoLookAhead (fetchMarket times venue key cutoff) := by
  apply Checks.raisesOnly_bind (root_noLookAhead _)
  intro top htop
  apply Checks.raisesOnly_bind nestedOrRoot_noLookAhead
  intro payload hpayload
  apply Checks.raisesOnly_bind seriesOf_noLookAhead
  intro found _
  apply Checks.raisesOnly_bind (eventSource_noLookAhead _)
  intro source _
  apply Checks.raisesOnly_bind (normalizeMarket_noLookAhead (h.own top payload htop hpayload)
    h.observed)
  intro marketRef _
  exact Checks.raisesOnly_ite (Checks.raisesOnly_error rfl) (Checks.raisesOnly_ok marketRef)

end OwnTimes

/-! ## Resolutions -/

/-- The payload of a resolution of a market, up to its times. -/
def resolutionOf (key : MarketKey) (response : ResolutionResponse) :
    Except KalshiError JsonObject := do
  let payload ← marketPayload response
  let returned ← firstString payload ["ticker", "market_ticker"] "resolution ticker"
  if returned.1 ≠ key.marketRef then
    .error (.payloadError "resolution response ticker does not match request")
  else do
    let _ ← resolutionStatus ((Json.get payload "status").getD .null)
    let _ ← resolutionResult ((Json.get payload "result").getD .null)
    .ok payload

/-- A resolution says neither when it was settled nor when it was updated, and its market closes
after the cutoff. -/
structure ClosesLater (read : TimestampReading) (payload : JsonObject) (cutoff : Instant) :
    Prop where
  untimed : ∀ field ∈ ["settlement_ts", "updated_time", "updated_ts"],
    hasField payload field = false
  later : ∃ closes, fieldTimestamp read payload "close_time" "resolution close_time" =
    .ok (some closes) ∧ cutoff < closes.1.instant

section Resolutions

variable {times : PayloadTimes} {venue : Venue} {payload : JsonObject} {key : MarketKey}
  {cutoff observedAt : Instant} {response : ResolutionResponse} {time : AwareDatetime}

theorem root_payload_noLookAhead : NoLookAhead (marketPayload response) := by
  apply Checks.raisesOnly_bind (root_noLookAhead _)
  intro top _
  exact nestedOrRoot_noLookAhead

theorem resolutionStatus_noLookAhead (value : Json) : NoLookAhead (resolutionStatus value) := by
  unfold resolutionStatus
  split
  · exact status_noLookAhead _
  all_goals exact Checks.raisesOnly_error rfl

theorem resolutionResult_noLookAhead (value : Json) : NoLookAhead (resolutionResult value) := by
  unfold resolutionResult
  split
  all_goals first
    | exact Checks.raisesOnly_ok _
    | exact Checks.raisesOnly_error rfl

theorem fieldTimestamp_noLookAhead {field label : String} :
    NoLookAhead (fieldTimestamp times.read payload field label) := by
  unfold fieldTimestamp
  split
  · exact Checks.raisesOnly_ok none
  · exact map_noLookAhead (read_noLookAhead _)

theorem resolutionTimestamp_noLookAhead :
    NoLookAhead (resolutionTimestamp times.read payload) := by
  unfold resolutionTimestamp
  split
  · exact Checks.raisesOnly_ok none
  · exact fieldTimestamp_noLookAhead

theorem fieldTimestamp_of_not_hasField {field label : String} (h : hasField payload field = false) :
    fieldTimestamp times.read payload field label = .ok none := by
  unfold hasField at h
  unfold fieldTimestamp
  cases hvalue : Json.get payload field with
  | none => rfl
  | some value =>
      rw [hvalue] at h
      have hmissing : (!isMissing value) = false := by simpa using h
      simp only [Option.filter_some, hmissing]
      rfl

/-- The time of a field is the reading of its value. -/
theorem fieldTimestamp_eq_some {field label : String}
    (h : fieldTimestamp times.read payload field label = .ok (some time)) :
    ∃ value ∈ Json.get payload field, isMissing value = false ∧
      times.read value label = .ok time := by
  unfold fieldTimestamp at h
  split at h
  · cases h
  next value hvalue =>
    obtain ⟨hget, hpresent⟩ := Option.filter_eq_some_iff.mp hvalue
    obtain ⟨_, hread, hsame⟩ := Checks.map_eq_ok.mp h
    cases hsame
    exact ⟨value, hget, by simpa using hpresent, hread⟩

/-- The time that is held against the cutoff is one of the payload's own, or the time at which the
market closes. -/
theorem OwnTimes.resolutionTimestamp_le (hown : OwnTimes times payload observedAt)
    (h : resolutionTimestamp times.read payload = .ok (some time)) :
    time.1.instant ≤ observedAt ∨
      (∀ field ∈ ["settlement_ts", "updated_time", "updated_ts"],
        hasField payload field = false) ∧
      fieldTimestamp times.read payload "close_time" "resolution close_time" = .ok (some time) := by
  have hfield {field : String} (hmem : field ∈ ownTimeFields)
      (htime : fieldTimestamp times.read payload field ("resolution " ++ field) =
        .ok (some time)) : time.1.instant ≤ observedAt := by
    obtain ⟨value, hvalue, hpresent, hread⟩ := fieldTimestamp_eq_some htime
    exact hown field hmem value hvalue hpresent _ time hread
  unfold resolutionTimestamp at h
  by_cases hsettled : hasField payload "settlement_ts" = true
  · rw [List.find?_cons_of_pos hsettled] at h
    exact .inl (hfield (by decide) h)
  rw [List.find?_cons_of_neg hsettled] at h
  by_cases hupdated : hasField payload "updated_time" = true
  · rw [List.find?_cons_of_pos hupdated] at h
    exact .inl (hfield (by decide) h)
  rw [List.find?_cons_of_neg hupdated] at h
  by_cases hstamped : hasField payload "updated_ts" = true
  · rw [List.find?_cons_of_pos hstamped] at h
    exact .inl (hfield (by decide) h)
  rw [List.find?_cons_of_neg hstamped] at h
  by_cases hcloses : hasField payload "close_time" = true
  · rw [List.find?_cons_of_pos hcloses] at h
    refine .inr ⟨?_, h⟩
    simp [hsettled, hupdated, hstamped]
  · rw [List.find?_cons_of_neg hcloses] at h
    cases h

theorem ClosesLater.resolutionTimestamp (h : ClosesLater times.read payload cutoff) :
    ∃ closes, resolutionTimestamp times.read payload = .ok (some closes) ∧
      cutoff < closes.1.instant := by
  obtain ⟨closes, hcloses, hlater⟩ := h.later
  refine ⟨closes, ?_, hlater⟩
  have huntimed {field : String} (hmem : field ∈ ["settlement_ts", "updated_time", "updated_ts"]) :
      ¬ hasField payload field = true := by
    rw [h.untimed field hmem]
    exact Bool.false_ne_true
  have hfield : hasField payload "close_time" = true := by
    obtain ⟨value, hvalue, hpresent, -⟩ := fieldTimestamp_eq_some hcloses
    unfold hasField
    rw [hvalue]
    simpa using hpresent
  unfold Kalshi.resolutionTimestamp
  rw [List.find?_cons_of_neg (huntimed (by decide)), List.find?_cons_of_neg (huntimed (by decide)),
    List.find?_cons_of_neg (huntimed (by decide)), List.find?_cons_of_pos hfield]
  exact hcloses

/-- A resolution that is read up to its times and closes later is refused as look-ahead. -/
theorem readResolution_of_closesLater (hread : resolutionOf key response = .ok payload)
    (h : ClosesLater times.read payload cutoff) :
    readResolution times.read key cutoff response = .error (.lookAheadError
      "resolution source timestamp is newer than the requested cutoff") := by
  obtain ⟨found, hpayload, hread⟩ := Checks.bind_eq_ok.mp hread
  obtain ⟨returned, hreturned, hread⟩ := Checks.bind_eq_ok.mp hread
  obtain ⟨hsame, hread⟩ := Checks.ite_error_eq_ok.mp hread
  obtain ⟨status, hstatus, hread⟩ := Checks.bind_eq_ok.mp hread
  obtain ⟨result, hresult, hread⟩ := Checks.bind_eq_ok.mp hread
  cases hread
  obtain ⟨closes, hsource, hlater⟩ := h.resolutionTimestamp
  have hsettlement : fieldTimestamp times.read payload "settlement_ts" "settlement_ts" =
      .ok none := fieldTimestamp_of_not_hasField (h.untimed _ (by decide))
  have hcutoff : checkCutoff (some closes.1.instant) (some cutoff) "resolution source timestamp" =
      .error (.lookAheadError "resolution source timestamp is newer than the requested cutoff") :=
    if_pos hlater
  refine Checks.bind_eq_error.mpr (.inr ⟨payload, hpayload, ?_⟩)
  refine Checks.bind_eq_error.mpr (.inr ⟨returned, hreturned, ?_⟩)
  rw [if_neg hsame]
  refine Checks.bind_eq_error.mpr (.inr ⟨status, hstatus, ?_⟩)
  refine Checks.bind_eq_error.mpr (.inr ⟨result, hresult, ?_⟩)
  refine Checks.bind_eq_error.mpr (.inr ⟨some closes, hsource, ?_⟩)
  refine Checks.bind_eq_error.mpr (.inr ⟨none, hsettlement, ?_⟩)
  exact Checks.bind_eq_error.mpr (.inl hcutoff)

/-- A timely resolution is refused as look-ahead exactly when its market closes after the cutoff
and it has no time of its own. -/
theorem readResolution_noLookAhead_iff
    (htimely : TimelyAnswer times ⟨response.payload, response.observedAt⟩ "market" (some cutoff)) :
    NoLookAhead (readResolution times.read key cutoff response) ↔
      ∀ payload, resolutionOf key response = .ok payload →
        ¬ ClosesLater times.read payload cutoff := by
  constructor
  · intro h payload hread hlater
    have hraised := h _ (readResolution_of_closesLater hread hlater)
    cases hraised
  · intro h
    apply Checks.raisesOnly_bind root_payload_noLookAhead
    intro payload hpayload
    obtain ⟨top, htop, hnested⟩ := Checks.bind_eq_ok.mp hpayload
    have hown := htimely.own top payload htop hnested
    apply Checks.raisesOnly_bind firstString_noLookAhead
    intro returned hreturned
    by_cases hsame : returned.1 ≠ key.marketRef
    · rw [if_pos hsame]
      exact Checks.raisesOnly_error rfl
    rw [if_neg hsame]
    apply Checks.raisesOnly_bind (resolutionStatus_noLookAhead _)
    intro status hstatus
    apply Checks.raisesOnly_bind (resolutionResult_noLookAhead _)
    intro result hresult
    have hread : resolutionOf key response = .ok payload :=
      Checks.bind_eq_ok.mpr ⟨payload, hpayload, Checks.bind_eq_ok.mpr ⟨returned, hreturned,
        Checks.ite_error_eq_ok.mpr ⟨hsame, Checks.bind_eq_ok.mpr ⟨status, hstatus,
          Checks.bind_eq_ok.mpr ⟨result, hresult, rfl⟩⟩⟩⟩⟩
    apply Checks.raisesOnly_bind resolutionTimestamp_noLookAhead
    intro source hsource
    apply Checks.raisesOnly_bind fieldTimestamp_noLookAhead
    intro settlement _
    have hcutoff : checkCutoff (source.map fun value => value.1.instant) (some cutoff)
        "resolution source timestamp" = .ok () := by
      cases source with
      | none => rfl
      | some time =>
          apply if_neg
          intro hlater
          rcases hown.resolutionTimestamp_le hsource with hseen | ⟨huntimed, hcloses⟩
          · exact absurd (hseen.trans (htimely.observed cutoff rfl)) (not_le.mpr hlater)
          · exact h payload hread ⟨huntimed, time, hcloses, hlater⟩
    apply Checks.raisesOnly_bind
    · rw [hcutoff]
      exact Checks.raisesOnly_ok ()
    · intro _ _
      exact Checks.raisesOnly_ok _

end Resolutions

/-! ## Timely answers -/

section Timely

variable (times : PayloadTimes) (venue : Venue) (row : JsonObject) (pageObservedAt : Instant)
  (scanCutoff : Option Instant) (key : MarketKey) (cached : Bool) (cutoff : Instant)

/-- What the venue answers, of a listed row and of a market whose resolution is read: no payload
has a time of its own that is later than the observation of its response, and no response is
observed after the cutoff. -/
structure Timely : Prop where
  row : OwnTimes times row pageObservedAt
  page : ∀ cutoff' ∈ scanCutoff, pageObservedAt ≤ cutoff'
  event : ∀ eventRef, TimelyAnswer times (venue.event eventRef) "event" scanCutoff
  series : ∀ seriesRef, TimelyAnswer times (venue.series seriesRef) "series" scanCutoff
  market : TimelyAnswer times (venue.market key) "market" (some cutoff)
  resolution : TimelyAnswer times
    ⟨(venue.resolution key).payload, (venue.resolution key).observedAt⟩ "market" (some cutoff)

/-- The series was not updated after the observation of the page that lists the market. -/
def SeriesOlderThanPage : Prop :=
  ∀ series updated, candidateSeries times venue row pageObservedAt scanCutoff = .ok series →
    seriesUpdatedAt times series = .ok (some updated) → updated ≤ pageObservedAt

/-- A resolution that is read has a time of its own, or its market does not close after the
cutoff. -/
def ResolutionTimed : Prop :=
  (cached = true ∨ ∃ marketRef, fetchMarket times venue key cutoff = .ok marketRef) →
    ∀ payload, resolutionOf key (venue.resolution key) = .ok payload →
      ¬ ClosesLater times.read payload cutoff

variable {times venue row pageObservedAt scanCutoff key cached cutoff}

theorem resolveMarket_noLookAhead_iff
    (htimely : Timely times venue row pageObservedAt scanCutoff key cutoff) :
    NoLookAhead (resolveMarket times venue key cached cutoff) ↔
      ResolutionTimed times venue key cached cutoff := by
  have hiff : NoLookAhead (readResolution times.read key cutoff (venue.resolution key)) ↔ _ :=
    readResolution_noLookAhead_iff htimely.resolution
  unfold resolveMarket ResolutionTimed
  by_cases hcached : cached = true
  · rw [if_pos hcached]
    exact hiff.trans ⟨fun h _ => h, fun h => h (.inl hcached)⟩
  · rw [if_neg hcached]
    cases hfetched : fetchMarket times venue key cutoff with
    | error error =>
        constructor
        · rintro - (hknown | ⟨marketRef, hmarket⟩)
          · exact absurd hknown hcached
          · cases hmarket
        · intro _
          exact Checks.raisesOnly_error (fetchMarket_noLookAhead htimely.market error hfetched)
    | ok marketRef => exact hiff.trans ⟨fun h _ => h, fun h => h (.inr ⟨marketRef, rfl⟩)⟩

end Timely

end Kalshi

namespace Sample

/-! ## A series that is updated while the catalogue is read -/

/-- The instant that a number of seconds or milliseconds since 1970 names. -/
def epochInstant (epoch : ℤ) : Instant :=
  62135596800000000 + if 100000000000 < epoch then epoch * 1000 else epoch * 1000000

def epochTime (epoch : ℤ) : Option AwareDatetime :=
  (Datetime.utc (epochInstant epoch)).attach.map fun time =>
    ⟨time.1, Datetime.isAware_utc time.2⟩

theorem epochTime_eq_some {epoch : ℤ} {time : AwareDatetime} (h : epochTime epoch = some time) :
    Datetime.utc (epochInstant epoch) = some time.1 := by
  obtain ⟨found, -, rfl⟩ := Option.map_eq_some_iff.mp h
  exact found.2

/-- What is read from a number. -/
def readEpoch (label : String) (epoch : ℤ) : Except KalshiError AwareDatetime :=
  match epochTime epoch with
  | some time => .ok time
  | none => .error (.payloadError (label ++ " is outside the supported timestamp range"))

theorem epochTime_of_readEpoch {label : String} {epoch : ℤ} {time : AwareDatetime}
    (h : readEpoch label epoch = .ok time) : epochTime epoch = some time := by
  unfold readEpoch at h
  split at h
  next found hfound =>
    cases h
    exact hfound
  · cases h

/-- Times that are numbers. -/
def readEpochs : TimestampReading
  | .int epoch, label => readEpoch label epoch
  | _, label => .error (.payloadError (label ++ " is not a valid timestamp"))

theorem readEpochs_error (value : Json) (label : String) (error : KalshiError)
    (h : readEpochs value label = .error error) : error.isLookAhead = false := by
  unfold readEpochs readEpoch at h
  split at h
  · split at h
    · cases h
    · cases h
      rfl
  · cases h
    rfl

def epochs : Kalshi.PayloadTimes where
  read := readEpochs
  same first second :=
    match first, second with
    | .int first, .int second => first = second
    | _, _ => false
  read_error := readEpochs_error

/-- A payload without times of its own. -/
theorem ownTimes_of_none {payload : JsonObject} {observedAt : Instant}
    (hnone : Kalshi.ownTimeFields.filterMap (Json.get payload) = []) :
    Kalshi.OwnTimes epochs payload observedAt := by
  intro field hfield value hvalue
  rw [List.filterMap_eq_nil_iff.mp hnone field hfield] at hvalue
  cases hvalue

def listedRow : JsonObject :=
  [("ticker", .text "KXRAIN-26"), ("event_ticker", .text "KXRAIN-26JAN"),
    ("series_ticker", .text "KXRAIN"), ("status", .text "active"), ("title", .text "Rain?"),
    ("rules_primary", .text "It rains."), ("open_time", .int 1767139200)]

def seriesUpdated (epoch : ℤ) : JsonObject :=
  [("ticker", .text "KXRAIN"), ("last_updated_ts", .int epoch)]

/-- A venue that answers at midnight, and a second later for the series. -/
def venueOf (updated : ℤ) : Kalshi.Venue where
  event _ := ⟨.null, moment.instant⟩
  series _ := ⟨.object (seriesUpdated updated), moment.instant + 1000000⟩
  market _ := ⟨.object listedRow, moment.instant⟩
  resolution _ := marketIn "active"

theorem midnight_within : ∀ cutoff ∈ some (moment.instant + 1000000), moment.instant ≤ cutoff := by
  intro cutoff hcutoff
  rw [← Option.mem_some_iff.mp hcutoff]
  exact le_add_of_nonneg_right (by decide)

theorem second_within :
    ∀ cutoff ∈ some (moment.instant + 1000000), moment.instant + 1000000 ≤ cutoff := by
  intro cutoff hcutoff
  rw [← Option.mem_some_iff.mp hcutoff]

theorem seriesUpdated_ownTimes {updated : ℤ} {observedAt : Instant}
    (hle : ∀ time ∈ Datetime.utc (epochInstant updated), time.instant ≤ observedAt) :
    Kalshi.OwnTimes epochs (seriesUpdated updated) observedAt := by
  intro field hfield value hvalue _ label time htime
  have hvalue : value = .int updated := by
    have hmem : value ∈ Kalshi.ownTimeFields.filterMap (Json.get (seriesUpdated updated)) :=
      List.mem_filterMap.mpr ⟨field, hfield, hvalue⟩
    exact List.mem_singleton.mp hmem
  rw [hvalue] at htime
  exact hle time.1 (epochTime_eq_some (epochTime_of_readEpoch htime))

/-- Up to a second after midnight the answers are timely. -/
theorem timely_venueOf {updated : ℤ}
    (hle : ∀ time ∈ Datetime.utc (epochInstant updated),
      time.instant ≤ moment.instant + 1000000) :
    Kalshi.Timely epochs (venueOf updated) listedRow moment.instant
      (some (moment.instant + 1000000)) market (moment.instant + 1000000) where
  row := ownTimes_of_none rfl
  page := midnight_within
  event := fun _ => ⟨by rintro _ _ ⟨⟩, midnight_within⟩
  series := by
    refine fun _ => ⟨?_, second_within⟩
    rintro _ _ ⟨⟩ ⟨⟩
    exact seriesUpdated_ownTimes hle
  market := by
    refine ⟨?_, midnight_within⟩
    rintro _ _ ⟨⟩ ⟨⟩
    exact ownTimes_of_none rfl
  resolution := by
    refine ⟨?_, midnight_within⟩
    rintro _ _ ⟨⟩ ⟨⟩
    exact ownTimes_of_none rfl

theorem midnight_seen : ∀ time ∈ Datetime.utc (epochInstant 1767225600),
    time.instant ≤ moment.instant + 1000000 := by decide +kernel

theorem second_seen : ∀ time ∈ Datetime.utc (epochInstant 1767225601),
    time.instant ≤ moment.instant + 1000000 := by decide +kernel

theorem candidateSeries_venueOf (updated : ℤ) :
    Kalshi.candidateSeries epochs (venueOf updated) listedRow moment.instant
      (some (moment.instant + 1000000)) = .ok (seriesUpdated updated) := by
  with_unfolding_all rfl

theorem midnight_older : Kalshi.SeriesOlderThanPage epochs (venueOf 1767225600) listedRow
    moment.instant (some (moment.instant + 1000000)) := by
  intro series updated hseries hupdated
  rw [candidateSeries_venueOf] at hseries
  cases hseries
  have hread : Kalshi.seriesUpdatedAt epochs (seriesUpdated 1767225600) =
      .ok (some moment.instant) := by with_unfolding_all rfl
  rw [hread] at hupdated
  exact le_of_eq (Option.some.inj (Except.ok.inj hupdated)).symm

theorem active_timed (updated : ℤ) : Kalshi.ResolutionTimed epochs (venueOf updated) market false
    (moment.instant + 1000000) := by
  rintro - payload hread ⟨-, closes, hcloses, -⟩
  have hpayload : Kalshi.resolutionOf market (marketIn "active") = .ok (marketFields "active") := by
    with_unfolding_all rfl
  cases hpayload.symm.trans hread
  cases hcloses

theorem newer_refused : Kalshi.materializeCandidate epochs (venueOf 1767225601) listedRow
    moment.instant (some (moment.instant + 1000000)) =
      .error (.lookAheadError "series last_updated_ts is newer than local observation") := by
  have hread : Kalshi.seriesUpdatedAt epochs (seriesUpdated 1767225601) =
      .ok (epochTime 1767225601 |>.map fun time => time.1.instant) := by with_unfolding_all rfl
  have hlater : ((epochTime 1767225601).map fun time => time.1.instant).any
      (moment.instant < ·) = true := by decide +kernel
  unfold Kalshi.materializeCandidate
  rw [candidateSeries_venueOf]
  refine Checks.bind_eq_error.mpr (.inr ⟨_, rfl, ?_⟩)
  refine Checks.bind_eq_error.mpr (.inr ⟨_, hread, ?_⟩)
  exact if_pos hlater

end Sample

end VTrade
