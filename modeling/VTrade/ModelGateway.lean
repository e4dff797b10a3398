/-
# Calls of a model

Before a model is called, its configuration is checked against the active policy of the model,
and what is to be reserved for the call is checked against the highest price that a provider may
ask.  What comes back is read for what the call has cost and for the tokens it has used.

Prices and costs are decimals in a context of 28 digits.
-/

import VTrade.Budget
import VTrade.Harness
import VTrade.Lib.DecimalContext
import VTrade.Lib.JsonParser
import VTrade.Lib.Text

namespace VTrade

/-- What the calls of a provider raise. -/
inductive GatewayFailure
  /-- `ProviderConfigurationError`. -/
  | configuration (message : String)
  /-- `ProviderPayloadError`. -/
  | payload (message : String)
  /-- `ProviderDisabled`. -/
  | disabled
  | budget (failure : BudgetFailure)
  /-- The client raises: no answer has been received. -/
  | transport
  /-- `raise_for_status`. -/
  | status (code : ℕ)
  /-- `UnicodeDecodeError`. -/
  | undecodable
  /-- `decimal.InvalidOperation`. -/
  | invalidOperation
  /-- `ValueError`, raised by sleeping for no number of seconds. -/
  | notASleep
  /-- The artifact store raises. -/
  | storage
  deriving DecidableEq

/-! ## Decimals -/

namespace DecimalText

open JsonParser

/-- `(\d+(\.\d*)?|\.\d+)`, as a number without its exponent, and what comes after it. -/
def readDigits (chars : List Char) : Option ((ℕ × ℕ) × List Char) :=
  let whole := chars.takeWhile isDigit
  let (fraction, rest) := match chars.dropWhile isDigit with
    | '.' :: rest => (rest.takeWhile isDigit, rest.dropWhile isDigit)
    | rest => ([], rest)
  if whole = [] ∧ fraction = [] then none
  else some ((digitsValue (whole ++ fraction), fraction.length), rest)

/-- `([eE][-+]?\d+)?` up to the end. -/
def readExponent : List Char → Option ℤ
  | [] => some 0
  | c :: rest =>
      let (negative, digits) := match rest with
        | '-' :: digits => (true, digits)
        | '+' :: digits => (false, digits)
        | digits => (false, digits)
      if (c = 'e' ∨ c = 'E') ∧ digits ≠ [] ∧ digits.all isDigit then
        some (if negative then -digitsValue digits else digitsValue digits)
      else none

/-- A number without its sign. -/
def readMagnitude (negative : Bool) (chars : List Char) : Option DecimalValue :=
  let lowered := chars.map Char.toLower
  if lowered = "inf".toList ∨ lowered = "infinity".toList then some (.infinity negative)
  else if lowered.take 3 = "nan".toList ∧ (lowered.drop 3).all isDigit then some .nan
  else if lowered.take 4 = "snan".toList ∧ (lowered.drop 4).all isDigit then some .nan
  else do
    let ((digits, places), rest) ← readDigits chars
    let exponent ← readExponent rest
    let magnitude : ℚ := digits * 10 ^ (exponent - places)
    some (.finite (if negative then -magnitude else magnitude))

/-- `Decimal(text)`, unless it raises `InvalidOperation`. -/
def read (text : String) : Option DecimalValue :=
  let trimmed := ((text.toList.dropWhile Text.isSpace).reverse.dropWhile Text.isSpace).reverse
  match trimmed.filter (· ≠ '_') with
  | '-' :: rest => readMagnitude true rest
  | '+' :: rest => readMagnitude false rest
  | rest => readMagnitude false rest

/-- `Decimal(str(value))`, unless it raises. -/
def ofJson : Json → Option DecimalValue
  | .int value => some (.finite value)
  | .float value =>
      let magnitude : ℚ := value.digits * 10 ^ value.exponent
      some (.finite (if value.negative then -magnitude else magnitude))
  | .text value => read value
  | .null | .bool _ | .array _ | .object _ => none

end DecimalText

open DecimalContext (Fraction)

/-- A decimal that is neither negative nor infinite. -/
def DecimalValue.nonnegative? : DecimalValue → Option Fraction
  | .finite value => if value < 0 then none else some ⟨value.num.toNat, value.den⟩
  | .infinity _ | .nan => none

namespace Gateway

/-- Raise if a check is violated. -/
def refuse (violated : Bool) (failure : GatewayFailure) : Except GatewayFailure Unit :=
  if violated then .error failure else .ok ()

@[simp]
theorem refuse_eq_ok {violated : Bool} {failure : GatewayFailure} :
    refuse violated failure = .ok () ↔ violated = false := by
  cases violated <;> simp [refuse]

/-- The digits of the default context. -/
def contextPrecision : ℕ := 28

/-! ## Reading a configuration -/

/-- `_required_nonnegative_int`. -/
def requiredNonnegativeInt (values : JsonObject) (key : String) : Except GatewayFailure ℕ :=
  match Json.get values key with
  | some (.int value) =>
      if value < 0 then .error (.configuration s!"{key} is required and must be non-negative")
      else .ok value.toNat
  | _ => .error (.configuration s!"{key} is required and must be non-negative")

/-- `_required_positive_int`. -/
def requiredPositiveInt (values : JsonObject) (key : String) : Except GatewayFailure ℕ := do
  let value ← requiredNonnegativeInt values key
  refuse (value = 0) (.configuration s!"{key} must be positive")
  .ok value

/-- `_object`. -/
def object (value : Option Json) (label : String) : Except GatewayFailure JsonObject :=
  match value with
  | some (.object fields) => .ok fields
  | _ => .error (.payload s!"{label} must be an object")

/-- `config.get(key)` is this text. -/
def isText (config : JsonObject) (key expected : String) : Bool :=
  ((Json.get config key).getD .null).isText expected

/-- `config.get(key) is None`. -/
def isNone (config : JsonObject) (key : String) : Bool :=
  match Json.get config key with
  | none | some .null => true
  | some _ => false

/-- `config.get(key) is value`, for a truth value. -/
def isBool (config : JsonObject) (key : String) (value : Bool) : Bool :=
  match Json.get config key with
  | some (.bool found) => found == value
  | _ => false

/-- The texts of a list that holds nothing else. -/
def texts? : List Json → Option (List String)
  | [] => some []
  | .text value :: rest => (texts? rest).map (value :: ·)
  | _ :: _ => none

/-! ## The policy of a model -/

/-- An entry of `_ACTIVE_MODEL_POLICIES`. -/
structure ModelPolicy where
  slug : String
  quantizations : Option (List String)
  reasoningEffort : String
  providerOrder : Option (List String)

/-- `_ACTIVE_MODEL_POLICIES`. -/
def activeModelPolicies : List ModelPolicy := [
  ⟨"deepseek/deepseek-v4-flash-0731", some ["fp8"], "max", none⟩,
  ⟨"openai/gpt-5.6-luna", none, "xhigh", none⟩,
  ⟨"z-ai/glm-5.3-flash", some ["fp8"], "max", some ["z-ai"]⟩]

structure OpenRouterRoute where
  model : String
  quantizations : Option (List String)
  reasoningEffort : String
  providerOrder : Option (List String)
  allowProviderFallbacks : Bool

/-- The list of texts under a key. -/
def textList? (config : JsonObject) (key : String) : Option (List String) :=
  match Json.get config key with
  | some (.array values) => texts? values
  | _ => none

/-- The checks of the quantizations. -/
def checkQuantizations (config : JsonObject) : Option (List String) → Except GatewayFailure Unit
  | none =>
      if isNone config "allowed_quantizations" then .ok ()
      else .error (.configuration "model quantization policy must be unrestricted")
  | some expected =>
      match textList? config "allowed_quantizations" with
      | none => .error (.configuration "allowed quantizations are required")
      | some found =>
          if found = expected then .ok ()
          else .error (.configuration "model quantizations differ from active policy")

/-- The checks of the order of the providers. -/
def checkProviderOrder (config : JsonObject) : Option (List String) → Except GatewayFailure Unit
  | none =>
      if isNone config "provider_order" then .ok ()
      else .error (.configuration "active policy must not define a provider order")
  | some expected =>
      if textList? config "provider_order" = some expected ∧ "" ∉ expected then .ok ()
      else .error (.configuration "provider order differs from active policy")

/-- The policy of the model that a configuration names. -/
def policyOf (config : JsonObject) : Option ModelPolicy :=
  match Json.get config "slug" with
  | some (.text slug) => activeModelPolicies.find? fun policy => policy.slug = slug
  | _ => none

/-- `OpenRouterRoute.from_config`. -/
def OpenRouterRoute.fromConfig (config : JsonObject) : Except GatewayFailure OpenRouterRoute :=
  match policyOf config with
  | none => .error (.configuration "model slug is outside the active model set")
  | some policy => do
      checkQuantizations config policy.quantizations
      refuse (!isNone config "provider_allowlist")
        (.configuration "active policy must allow all compatible providers")
      refuse (!isText config "provider_selection" "all_compatible_sorted_by_price")
        (.configuration "active providers must be sorted by price")
      refuse (!isBool config "allow_provider_fallbacks" true)
        (.configuration "same-model provider fallback must be enabled")
      refuse (!isBool config "cross_model_fallback" false)
        (.configuration "cross-model fallback is forbidden")
      checkProviderOrder config policy.providerOrder
      refuse (!isText config "reasoning_effort" policy.reasoningEffort)
        (.configuration "model reasoning effort differs from active policy")
      refuse ((Json.get config "reasoning_effort_policy").isSome &&
          !isText config "reasoning_effort_policy" "owner_fixed")
        (.configuration "active reasoning effort policy must be owner-fixed")
      .ok {
        model := policy.slug
        quantizations := policy.quantizations
        reasoningEffort := policy.reasoningEffort
        providerOrder := policy.providerOrder
        allowProviderFallbacks := true }

/-! ## Prices -/

/-- What `_maximum_prices` normalizes, in dollars: for a million tokens of the prompt and of the
completion, and for the request. -/
structure MaximumPrices where
  prompt : Fraction
  completion : Fraction
  request : Fraction

/-- One price. -/
def readPrice (prices : JsonObject) (key : String) : Except GatewayFailure Fraction :=
  match (Json.get prices key).bind DecimalText.ofJson with
  | none => .error (.configuration "provider max prices must be decimals")
  | some price =>
      match price.nonnegative? with
      | none => .error (.configuration "provider max prices must be non-negative")
      | some price => .ok price

/-- `_maximum_prices`.  The prices are read in the order of their names. -/
def maximumPrices (value : Option Json) : Except GatewayFailure MaximumPrices := do
  let prices ← object value "provider_max_price"
  let keys := prices.map Prod.fst
  let required := ["completion", "prompt", "request"]
  refuse (!(keys.all (· ∈ required) && required.all (· ∈ keys)))
    (.configuration "provider_max_price requires prompt, completion, and request bounds")
  let completion ← readPrice prices "completion"
  let prompt ← readPrice prices "prompt"
  let request ← readPrice prices "request"
  .ok ⟨prompt, completion, request⟩

/-- The sum of two decimals under the context. -/
def add (x y : Fraction) : Fraction :=
  DecimalContext.round contextPrecision ⟨x.num * y.den + y.num * x.den, x.den * y.den⟩

/-- The dollars of so many tokens. -/
def priceOf (price : Fraction) (tokens : ℕ) : Fraction :=
  DecimalContext.div contextPrecision
    (DecimalContext.mul contextPrecision price (.ofNat tokens)) (.ofNat 1000000)

/-- Dollars in micros, to the nearest one. -/
def toMicros (dollars : Fraction) : ℕ :=
  DecimalContext.toIntegralHalfUp
    (DecimalContext.mul contextPrecision dollars (.ofNat 1000000))

/-- `_request_upper_bound_micros`. -/
def requestUpperBoundMicros (maximumPromptTokens maximumOutputTokens : ℕ)
    (prices : MaximumPrices) : ℕ :=
  toMicros (add (add (priceOf prices.prompt maximumPromptTokens)
    (priceOf prices.completion maximumOutputTokens)) prices.request)

/-- `_rough_tokens`. -/
def roughTokens (values : List Json) : ℕ := max 1 ((JsonText.size false (.array values) + 3) / 4)

/-! ## What is asked of a model -/

/-- What is posted for a completion. -/
structure CompletionPayload where
  model : String
  messages : List Json
  tools : List Json
  maxTokens : ℕ
  reasoningEffort : String
  requireParameters : Bool
  maxPrice : MaximumPrices
  allowFallbacks : Bool
  quantizations : Option (List String)
  order : Option (List String)

/-- A completion that is ready to be reserved. -/
structure PreparedCompletion where
  estimate : ℕ
  maximumPromptTokens : ℕ
  payload : CompletionPayload
  /-- `"models" in model_config`. -/
  namesModels : Bool

/-- The most that a provider may ask for a completion. -/
def PreparedCompletion.upperBound (prepared : PreparedCompletion) : ℕ :=
  requestUpperBoundMicros prepared.maximumPromptTokens prepared.payload.maxTokens
    prepared.payload.maxPrice

/-- `complete`, up to its reservation. -/
def prepareCompletion (messages tools : List Json) (config : JsonObject) :
    Except GatewayFailure PreparedCompletion := do
  let route ← OpenRouterRoute.fromConfig config
  let estimate ← requiredNonnegativeInt config "estimated_max_cost_micros"
  let maximumOutputTokens ← requiredPositiveInt config "maximum_output_tokens"
  let maximumPromptTokens ← requiredPositiveInt config "maximum_prompt_tokens"
  let maximumContextTokens ← requiredPositiveInt config "maximum_context_tokens"
  refuse (maximumContextTokens < maximumPromptTokens + maximumOutputTokens)
    (.configuration "maximum prompt plus reserved output exceeds model context")
  let prices ← maximumPrices (Json.get config "provider_max_price")
  refuse (estimate < requestUpperBoundMicros maximumPromptTokens maximumOutputTokens prices)
    (.configuration "estimated_max_cost_micros is below the enforceable provider price bound")
  let assembledTokens := roughTokens (messages ++ tools)
  refuse (maximumPromptTokens < assembledTokens)
    (.configuration "request exceeds configured maximum prompt tokens")
  refuse (maximumContextTokens < assembledTokens + maximumOutputTokens)
    (.configuration "request plus reserved output exceeds model context")
  .ok {
    estimate := estimate
    maximumPromptTokens := maximumPromptTokens
    payload := {
      model := route.model
      messages := messages
      tools := tools
      maxTokens := maximumOutputTokens
      reasoningEffort := route.reasoningEffort
      requireParameters := !tools.isEmpty
      maxPrice := prices
      allowFallbacks := route.allowProviderFallbacks
      quantizations := route.quantizations
      order := route.providerOrder }
    namesModels := (Json.get config "models").isSome }

/-- What is prepared asks the model of its policy for no more than its configuration allows, and
its estimate covers what a provider may ask. -/
theorem prepareCompletion_eq_ok {messages tools : List Json} {config : JsonObject}
    {prepared : PreparedCompletion}
    (h : prepareCompletion messages tools config = .ok prepared) :
    prepared.upperBound ≤ prepared.estimate ∧
      roughTokens (messages ++ tools) ≤ prepared.maximumPromptTokens ∧
      ∃ policy ∈ activeModelPolicies, prepared.payload.model = policy.slug ∧
        prepared.payload.quantizations = policy.quantizations ∧
        prepared.payload.order = policy.providerOrder := by
  unfold prepareCompletion at h
  obtain ⟨route, hroute, h⟩ := Checks.bind_eq_ok.mp h
  obtain ⟨estimate, -, h⟩ := Checks.bind_eq_ok.mp h
  obtain ⟨output, -, h⟩ := Checks.bind_eq_ok.mp h
  obtain ⟨prompt, -, h⟩ := Checks.bind_eq_ok.mp h
  obtain ⟨context, -, h⟩ := Checks.bind_eq_ok.mp h
  obtain ⟨-, -, h⟩ := Checks.bind_eq_ok.mp h
  obtain ⟨prices, -, h⟩ := Checks.bind_eq_ok.mp h
  obtain ⟨_, hbound, h⟩ := Checks.bind_eq_ok.mp h
  obtain ⟨_, htokens, h⟩ := Checks.bind_eq_ok.mp h
  obtain ⟨-, -, h⟩ := Checks.bind_eq_ok.mp h
  cases h
  rw [refuse_eq_ok, decide_eq_false_iff_not, not_lt] at hbound htokens
  refine ⟨hbound, htokens, ?_⟩
  unfold OpenRouterRoute.fromConfig at hroute
  split at hroute
  · cases hroute
  next policy hpolicy =>
    have hmem : policy ∈ activeModelPolicies := by
      unfold policyOf at hpolicy
      split at hpolicy
      · exact List.mem_of_find?_eq_some hpolicy
      · cases hpolicy
    iterate 8 obtain ⟨-, -, hroute⟩ := Checks.bind_eq_ok.mp hroute
    cases hroute
    exact ⟨policy, hmem, rfl, rfl, rfl⟩

/-! ## What comes back -/

/-- The content of a response: it may be no text, or no JSON. -/
inductive ResponseContent
  | undecodable
  | notJson
  | value (document : Json)

/-- A response, with what `float` reads in its `Retry-After`, if it has one that `float` reads. -/
structure HttpResponse where
  statusCode : ℕ
  retryAfter : Option DecimalValue
  content : ResponseContent

namespace HttpResponse

/-- One of the two statuses that refuse a request before it is served. -/
def isRefusal (response : HttpResponse) : Bool :=
  response.statusCode = 429 || response.statusCode = 503

/-- `raise_for_status`. -/
def raiseForStatus (response : HttpResponse) : Except GatewayFailure Unit :=
  if 200 ≤ response.statusCode ∧ response.statusCode < 300 then .ok ()
  else .error (.status response.statusCode)

/-- `_openrouter_retry_delay`.  A delay that is not too long may still be no number. -/
def retryDelay (response : HttpResponse) (attempt : ℕ) : Option (Option ℚ) :=
  match response.retryAfter.getD (.finite (2 ^ attempt)) with
  | .finite delay => if 60 < delay then none else some (some (max delay 0))
  | .infinity false => none
  | .infinity true => some (some 0)
  | .nan => some none

/-- `_json_object`. -/
def jsonObject (response : HttpResponse) (label : String) : Except GatewayFailure JsonObject :=
  match response.content with
  | .undecodable => .error .undecodable
  | .notJson => .error (.payload s!"{label} is not JSON")
  | .value document => object (some document) label

end HttpResponse

/-- `_dollars_to_micros`. -/
def dollarsToMicros (value : Json) : Except GatewayFailure ℕ :=
  match DecimalText.ofJson value with
  | none => .error (.payload "provider cost must be decimal-compatible")
  | some dollars =>
      match dollars.nonnegative? with
      | none => .error (.payload "provider cost must be finite and non-negative")
      | some dollars => .ok (toMicros dollars)

/-- `_nonnegative_int`. -/
def nonnegativeInt : Json → Except GatewayFailure ℕ
  | .int value =>
      if value < 0 then .error (.payload "usage counter must be a non-negative integer")
      else .ok value.toNat
  | _ => .error (.payload "usage counter must be a non-negative integer")

/-- `_nested_nonnegative_int`. -/
def nestedNonnegativeInt (values : JsonObject) (parent child : String) :
    Except GatewayFailure ℕ := do
  if isNone values parent then .ok 0
  else
    let nested ← object (Json.get values parent) parent
    nonnegativeInt ((Json.get nested child).getD (.int 0))

/-- `_nonnegative_decimal`. -/
def nonnegativeDecimal (value : Json) (label : String) : Except GatewayFailure ℚ :=
  match (DecimalText.ofJson value).bind DecimalValue.nonnegative? with
  | none => .error (.payload s!"{label} must be a non-negative decimal")
  | some number => .ok number.value

/-- `_optional_string`. -/
def optionalString : Option Json → Option String
  | some (.text value) => some value
  | _ => none

/-- `_validate_openrouter_response`. -/
def validateOpenrouterResponse (payload : JsonObject) (expectedModel : String) :
    Except GatewayFailure Unit := do
  refuse (!isText payload "model" expectedModel)
    (.payload "OpenRouter returned a different model; cross-model blocked")
  match Json.get payload "choices" with
  | some (.array [choice]) => do
      let fields ← object (some choice) "OpenRouter choice"
      let _ ← object (Json.get fields "message") "OpenRouter message"
      .ok ()
  | _ => .error (.payload "OpenRouter response requires exactly one choice")

/-- The artifact that a store answers with. -/
structure StoredArtifact where
  uri : String
  sha256 : String
  byteLength : ℕ

/-- Telemetry with what the harness does not look at. -/
structure GatewayTelemetry extends ProviderTelemetry where
  route : Option String
  requestCount : ℕ
  creditCount : DecimalValue
  reasoningTokens : ℕ
  cachedTokens : ℕ
  billedCostMicros : ℕ
  nominalCostMicros : ℕ
  artifactByteLength : ℕ

/-- What a completion is read to have cost. -/
structure CompletionCost where
  parsed : JsonObject
  usage : JsonObject
  billed : ℕ
  nominal : ℕ

/-- `complete` from the content of its response to its costs.  A nominal cost that is not reported
is the float that dividing the billed cost by a million gives. -/
def readCost (micros : ℕ → JsonFloat) (expectedModel : String) (response : HttpResponse) :
    Except GatewayFailure CompletionCost := do
  let parsed ← response.jsonObject "OpenRouter response"
  validateOpenrouterResponse parsed expectedModel
  let usage ← object ((Json.get parsed "usage").getD (.object [])) "OpenRouter usage"
  let billed ← dollarsToMicros ((Json.get usage "cost").getD (.int 0))
  let costDetails ← object ((Json.get usage "cost_details").getD (.object []))
    "OpenRouter cost_details"
  let nominal ← dollarsToMicros
    ((Json.get costDetails "upstream_inference_cost").getD (.float (micros billed)))
  .ok ⟨parsed, usage, billed, nominal⟩

/-- The telemetry of a completion.  The artifact is stored before the counters are read. -/
def completionTelemetry (cost : CompletionCost) (stored : Option StoredArtifact) :
    Except GatewayFailure GatewayTelemetry :=
  match stored with
  | none => .error .storage
  | some artifact => do
      let promptTokens ← nonnegativeInt ((Json.get cost.usage "prompt_tokens").getD (.int 0))
      let completionTokens ←
        nonnegativeInt ((Json.get cost.usage "completion_tokens").getD (.int 0))
      let reasoningTokens ←
        nestedNonnegativeInt cost.usage "completion_tokens_details" "reasoning_tokens"
      let cachedTokens ← nestedNonnegativeInt cost.usage "prompt_tokens_details" "cached_tokens"
      .ok {
        provider := "openrouter"
        usageKind := "model"
        route := optionalString (Json.get cost.parsed "provider")
        requestCount := 1
        creditCount := .finite 0
        promptTokens := promptTokens
        completionTokens := completionTokens
        reasoningTokens := reasoningTokens
        cachedTokens := cachedTokens
        billedCostMicros := cost.billed
        nominalCostMicros := cost.nominal
        artifactUri := artifact.uri
        rawSha256 := artifact.sha256
        artifactByteLength := artifact.byteLength }

end Gateway

end VTrade
