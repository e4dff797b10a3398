/-
# Resolving a fee policy

The fees of a market come from several sources: the official schedule, the metadata of its
series, the changes of the fees of the series and of the event, and a waiver.  The resolver
selects from them what is in force at one moment, and makes an immutable policy of it that
also says what it rests on.  It closes a market whose sources are incomplete or invalid, and
it raises when two records disagree.
-/

import VTrade.Domain.Evidence
import VTrade.Lib.Checks
import VTrade.Lib.Json
import Mathlib.Data.List.MinMax
import Mathlib.Data.Prod.Lex
import Mathlib.Data.Rat.Defs
import Mathlib.Data.String.Basic

namespace VTrade

/-- An artifact with where and when it was read. -/
structure ArchivedArtifact extends RawArtifact where
  sourceEndpoint : Option String
  sourceTimestamp : Option Instant
  historicalCutoff : Option Instant
  schemaVersion : String
  schemaVersion_ne_empty : schemaVersion ≠ ""

inductive FeeEvidenceRole
  | officialSchedule
  | seriesMetadata
  | seriesFeeChange
  | eventFeeChange
  | marketWaiver
  deriving DecidableEq

def FeeEvidenceRole.value : FeeEvidenceRole → String
  | .officialSchedule => "official_schedule"
  | .seriesMetadata => "series_metadata"
  | .seriesFeeChange => "series_fee_change"
  | .eventFeeChange => "event_fee_change"
  | .marketWaiver => "market_waiver"

structure FeeEvidence where
  role : FeeEvidenceRole
  artifact : ArchivedArtifact

/-- The reasons a market is closed for. -/
inductive FeePolicyReason
  | unsupportedFeeType
  | unsupportedParticipantRole
  | feePolicyInvalid
  | feePolicyUnavailable
  | feeSourceIncomplete
  deriving DecidableEq

/-- What the resolver raises.  A `ValueError` closes the market, and its text is dropped. -/
inductive FeeRaised
  | valueError
  | policyError (message : String)
  | sourceConflict (message : String)
  deriving DecidableEq

/-- Why the resolver stops before it has a policy. -/
inductive FeeHalt
  | raised (error : FeeRaised)
  | closed (status : FeePolicyStatus) (reason : FeePolicyReason) (evidence : List FeeEvidence)

/-- The text of an instant in UTC. -/
def isoUtc (instant : Instant) : String := ((Datetime.utc instant).map Datetime.isoformat).getD ""

/-- `FEE_SETTLEMENT_CONTRACT_VERSION`. -/
def feeSettlementContractVersion : String := "vtrade-binary-fee-settlement-v1"

/-- `FEE_FORMULA_VERSION`. -/
def feeFormulaVersion : String := "kalshi-quadratic-v1"

/-- The official schedule. -/
structure FeeSchedule where
  scheduleVersion : String
  officialUrl : Option String
  effectiveAt : Instant
  pdfSha256 : Option Sha256
  takerRate : ℤ × ℤ
  makerRate : ℤ × ℤ
  settlementFeeMicros : ℤ
  artifact : Option ArchivedArtifact
  version_nonblank : Text.isBlank scheduleVersion = false
  takerRate_pos : 0 < takerRate.1 ∧ 0 < takerRate.2
  makerRate_pos : 0 < makerRate.1 ∧ 0 < makerRate.2
  settlementFee_nonneg : 0 ≤ settlementFeeMicros

def FeeSchedule.rate (schedule : FeeSchedule) : FeeParticipantRole → ℤ × ℤ
  | .maker => schedule.makerRate
  | .taker => schedule.takerRate

theorem FeeSchedule.rate_pos (schedule : FeeSchedule) (role : FeeParticipantRole) :
    0 < (schedule.rate role).1 ∧ 0 < (schedule.rate role).2 := by
  cases role with
  | maker => exact schedule.makerRate_pos
  | taker => exact schedule.takerRate_pos

/-- A change of the fees of a series or an event. -/
structure FeeChange where
  identity : String
  scopeRef : String
  scheduledTs : Instant
  feeType : Option String
  multiplier : Option (ℤ × ℤ)
  feeTypeOverride : Option String
  multiplierOverride : Option (ℤ × ℤ)
  explicitClear : Bool
  artifact : Option ArchivedArtifact
  identity_nonblank : Text.isBlank identity = false
  scopeRef_nonblank : Text.isBlank scopeRef = false
  multiplier_valid : ∀ ratio ∈ multiplier, 0 ≤ ratio.1 ∧ 0 < ratio.2
  override_valid : ∀ ratio ∈ multiplierOverride, 0 ≤ ratio.1 ∧ 0 < ratio.2
  cleared : explicitClear = true →
    feeType = none ∧ multiplier = none ∧ feeTypeOverride = none ∧ multiplierOverride = none
  feeType_nonblank : ∀ feeType' ∈ feeType, Text.isBlank feeType' = false
  feeTypeOverride_nonblank : ∀ feeType' ∈ feeTypeOverride, Text.isBlank feeType' = false

/-- What a change says, apart from its identity and its artifact. -/
structure FeeChangeMeaning where
  scopeRef : String
  scheduledTs : Instant
  feeType : Option String
  multiplier : Option (ℤ × ℤ)
  feeTypeOverride : Option String
  multiplierOverride : Option (ℤ × ℤ)
  explicitClear : Bool
  deriving DecidableEq

/-- `semantic_key`. -/
def FeeChange.semanticKey (change : FeeChange) : FeeChangeMeaning where
  scopeRef := change.scopeRef
  scheduledTs := change.scheduledTs
  feeType := change.feeType
  multiplier := change.multiplier
  feeTypeOverride := change.feeTypeOverride
  multiplierOverride := change.multiplierOverride
  explicitClear := change.explicitClear

/-- Whether a change is of the scope and scheduled by the moment. -/
def FeeChange.applies (asOf : Instant) (scopeRef : String) (change : FeeChange) : Bool :=
  decide (change.scopeRef = scopeRef) && decide (change.scheduledTs ≤ asOf)

/-- The earlier moment first, then the text. -/
local instance momentOrder : LinearOrder (Instant ×ₗ String) :=
  @Prod.Lex.instLinearOrder Instant String Int.instLinearOrder inferInstance

local instance momentPreorder : Preorder (Instant ×ₗ String) := momentOrder.toPreorder

/-- `_select_change`. -/
def selectChange (values : List FeeChange) (asOf : Instant) (scopeRef : String) :
    Except FeeHalt (Option FeeChange) :=
  let applicable := values.filter fun change => change.applies asOf scopeRef
  match applicable.find? fun change => applicable.any fun other =>
      decide (other.scheduledTs = change.scheduledTs) &&
      decide (other.semanticKey ≠ change.semanticKey) with
  | some change =>
      .error (.raised (.sourceConflict ("fee changes conflict at " ++ isoUtc change.scheduledTs ++
        " for " ++ scopeRef)))
  | none => .ok (applicable.argmax fun change =>
      (toLex (change.scheduledTs, change.identity) : Instant ×ₗ String))

/-! ## The policy -/

/-- The fields of a `FeePolicySnapshot`. -/
structure FeePolicyFields where
  contractVersion : String
  scheduleVersion : String
  formulaVersion : String
  participantRole : FeeParticipantRole
  feeType : String
  seriesMultiplier : ℤ × ℤ
  eventOverride : Option (ℤ × ℤ)
  eventOverrideFeeType : Option String
  eventOverrideCleared : Bool
  rateOverride : Option (ℤ × ℤ)
  waiver : Bool
  waiverEvidence : Option JsonObject
  asOf : Option Instant
  effectiveFrom : Option Instant
  scheduledTs : Option Instant
  sourceObservedAt : Option Instant
  cutoff : Option Instant
  sourceTier : String
  rawArtifact : Option ArchivedArtifact
  sourceArtifacts : List ArchivedArtifact
  evidenceReferences : List (String × String)
  scheduleSha256 : Option Sha256
  settlementFeeMicros : ℤ
  exactInputs : JsonObject

/-- The flag that waiver evidence reports. -/
def reportedWaiver (evidence : JsonObject) : Json := (Json.get evidence "waived").getD .null

/-- Whether the reported flag is malformed, or denies a waiver that the policy has. -/
def waiverConflicts (evidence : JsonObject) (waiver : Bool) : Bool :=
  match reportedWaiver evidence with
  | .null => false
  | .bool reported => !reported && waiver
  | _ => true

namespace FeePolicyFields

/-- What `FeePolicySnapshot` refuses. -/
def violations (policy : FeePolicyFields) : List Bool := [
  decide (policy.contractVersion ≠ feeSettlementContractVersion),
  Text.isBlank policy.scheduleVersion,
  decide (policy.formulaVersion ≠ feeFormulaVersion),
  Text.isBlank policy.feeType,
  policy.eventOverrideFeeType.any Text.isBlank,
  decide (policy.seriesMultiplier.1 < 0),
  decide (policy.seriesMultiplier.2 ≤ 0),
  policy.eventOverrideCleared && (policy.eventOverride.isSome ||
    policy.eventOverrideFeeType.isSome),
  policy.eventOverride.any fun ratio => decide (ratio.1 < 0 ∨ ratio.2 ≤ 0),
  !policy.eventOverrideCleared && policy.eventOverrideFeeType.isSome &&
    policy.eventOverride.isNone,
  policy.rateOverride.any fun rate => decide (rate.1 ≤ 0 ∨ rate.2 ≤ 0),
  policy.asOf.any fun asOf => policy.cutoff.any (decide <| · < asOf),
  policy.effectiveFrom.any fun effective => policy.asOf.any (decide <| · < effective),
  policy.scheduledTs.any fun scheduled => policy.cutoff.any (decide <| · < scheduled),
  policy.scheduledTs.any fun scheduled => policy.asOf.any (decide <| · < scheduled),
  policy.sourceObservedAt.any fun observed => policy.cutoff.any (decide <| · < observed),
  policy.waiverEvidence.any fun evidence => waiverConflicts evidence policy.waiver,
  decide (policy.settlementFeeMicros < 0)]

def postInit (policy : FeePolicyFields) : Except FeeHalt Unit :=
  Checks.raiseFirst (policy.violations.map fun violated => (violated, .raised .valueError))

theorem postInit_eq_ok_iff {policy : FeePolicyFields} :
    policy.postInit = .ok () ↔ ∀ violated ∈ policy.violations, violated = false := by
  unfold postInit
  rw [Checks.raiseFirst_eq_ok_iff]
  constructor
  · intro h violated hmem
    exact h (violated, .raised .valueError) (List.mem_map.mpr ⟨violated, hmem, rfl⟩)
  · intro h check hmem
    obtain ⟨violated, hviolated, hcheck⟩ := List.mem_map.mp hmem
    rw [← hcheck]
    exact h violated hviolated

/-- Whether the waiver evidence reports a waiver. -/
def reportsWaiver (policy : FeePolicyFields) : Bool :=
  policy.waiverEvidence.any fun evidence => match reportedWaiver evidence with
    | .bool reported => reported
    | _ => false

/-- The fields with their sources in order, and the waiver that the evidence reports. -/
def normalized (policy : FeePolicyFields) : FeePolicyFields :=
  { policy with
    waiver := policy.waiver || policy.reportsWaiver
    sourceArtifacts := policy.sourceArtifacts.mergeSort
      fun first second => first.sha256.hex ≤ second.sha256.hex
    evidenceReferences := policy.evidenceReferences.mergeSort
      fun first second => (toLex first : String ×ₗ String) ≤ toLex second }

/-- A waiver that the evidence reports is not one that it denies. -/
theorem waiverConflicts_normalized {policy : FeePolicyFields} {evidence : JsonObject}
    (hevidence : policy.waiverEvidence = some evidence)
    (h : waiverConflicts evidence policy.waiver = false) :
    waiverConflicts evidence policy.normalized.waiver = false := by
  unfold normalized reportsWaiver
  unfold waiverConflicts at *
  simp only [hevidence, Option.any_some]
  cases hreported : reportedWaiver evidence with
  | null => rfl
  | bool reported =>
      simp only [hreported] at h ⊢
      cases reported with
      | true => rfl
      | false => simpa using h
  | int value => simp [hreported] at h
  | float value => simp [hreported] at h
  | text value => simp [hreported] at h
  | array values => simp [hreported] at h
  | object fields => simp [hreported] at h

/-- Only the check of the waiver reads what is normalized. -/
theorem violations_normalized (policy : FeePolicyFields) :
    policy.normalized.violations = policy.violations.set 16 (policy.waiverEvidence.any
      fun evidence => waiverConflicts evidence policy.normalized.waiver) := rfl

theorem postInit_normalized {policy : FeePolicyFields} (h : policy.postInit = .ok ()) :
    policy.normalized.postInit = .ok () := by
  rw [postInit_eq_ok_iff] at h ⊢
  have hwaiver : (policy.waiverEvidence.any fun evidence =>
      waiverConflicts evidence policy.normalized.waiver) = false := by
    have hbefore := h (policy.waiverEvidence.any fun evidence =>
      waiverConflicts evidence policy.waiver) (by simp [violations])
    cases hevidence : policy.waiverEvidence with
    | none => rfl
    | some evidence =>
        rw [hevidence] at hbefore
        exact waiverConflicts_normalized hevidence hbefore
  intro violated hmem
  rw [violations_normalized] at hmem
  cases List.mem_or_eq_of_mem_set hmem with
  | inl hmem => exact h violated hmem
  | inr heq => exact heq.trans hwaiver

end FeePolicyFields

/-- A policy that `FeePolicySnapshot` accepted. -/
structure ResolvedFeePolicy extends FeePolicyFields where
  valid : toFeePolicyFields.postInit = .ok ()

/-- `FeePolicySnapshot(...)`. -/
def FeePolicyFields.make (policy : FeePolicyFields) : Except FeeHalt ResolvedFeePolicy :=
  Checks.build policy.postInit fun valid =>
    { toFeePolicyFields := policy.normalized, valid := postInit_normalized valid }

/-! ## Resolving -/

/-- A multiplier as its source gives it. -/
inductive FeeMultiplier
  /-- A boolean or a float. -/
  | inexact
  | integer (value : ℤ)
  /-- A `Decimal`; infinities and NaNs have no value. -/
  | decimal (value : Option ℚ)
  | text (value : String)
  | other

inductive WaiverExpiration
  | at (time : Datetime)
  | text (value : String)

/-- How texts are read: `Decimal`, if the result is finite, and `datetime.fromisoformat`. -/
structure FeeReadings where
  decimal : String → Option ℚ
  fromisoformat : String → Option Datetime

variable (readings : FeeReadings)

/-- `_exact_decimal`. -/
def exactDecimal : FeeMultiplier → Except FeeHalt ℚ
  | .inexact | .other | .decimal none => .error (.raised .valueError)
  | .integer value => .ok value
  | .decimal (some value) => .ok value
  | .text value => match readings.decimal value with
      | some parsed => .ok parsed
      | none => .error (.raised .valueError)

/-- `exact_rational`, where zero is allowed. -/
def exactRational (value : FeeMultiplier) : Except FeeHalt (ℤ × ℤ) := do
  let parsed ← exactDecimal readings value
  if parsed < 0 then .error (.raised .valueError) else .ok (parsed.num, parsed.den)

/-- What a resolution is asked for, besides the changes. -/
structure FeeRequest where
  marketRef : String
  seriesRef : String
  eventRef : String
  seriesFeeType : Option String
  seriesMultiplier : Option FeeMultiplier
  seriesMultiplierNumerator : Option ℤ
  seriesMultiplierDenominator : Option ℤ
  waiverExpirationTime : Option WaiverExpiration
  asOf : Datetime
  cutoff : Datetime
  evidence : List FeeEvidence

structure FeePolicyResolver where
  schedule : FeeSchedule
  participantRole : FeeParticipantRole

/-- What the resolver has before it reads the changes. -/
structure FeeOpening where
  asOf : Instant
  cutoff : Instant
  evidence : List FeeEvidence
  scheduleArtifact : ArchivedArtifact
  feeType : String
  multiplier : ℤ × ℤ

/-- What the changes in force make of the fees. -/
structure FeeSelection where
  feeType : String
  multiplier : ℤ × ℤ
  effectiveFrom : Instant
  scheduledTs : Option Instant
  override : Option (ℤ × ℤ)
  overrideType : Option String
  overrideCleared : Bool
  series : Option FeeChange
  event : Option FeeChange

/-- `_aware`. -/
def requireAwareFee (value : Datetime) : Except FeeHalt Instant :=
  if value.isAware then .ok value.instant else .error (.raised .valueError)

/-- Whether an artifact was observed by the cutoff, and is of a time by the cutoff. -/
def ArchivedArtifact.timely (artifact : ArchivedArtifact) (cutoff : Instant) : Bool :=
  artifact.observedAt.any (decide <| · ≤ cutoff) &&
    !artifact.sourceTimestamp.any (decide <| cutoff < ·) &&
    !artifact.historicalCutoff.any (decide <| cutoff < ·)

/-- One round of `_validate_evidence_cutoff`. -/
def validateCutoff (cutoff : Instant) (item : FeeEvidence) : Except FeeHalt Unit :=
  if item.artifact.timely cutoff then .ok ()
  else if item.role = .officialSchedule then
    .error (.raised (.policyError (if item.artifact.observedAt.isNone
      then "official fee schedule evidence has no observation time"
      else "official fee schedule evidence is newer than its cutoff")))
  else .error (.raised .valueError)

/-- `_validate_evidence_cutoff`. -/
def validateEvidenceCutoff (evidence : List FeeEvidence) (cutoff : Instant) :
    Except FeeHalt Unit :=
  evidence.forM (validateCutoff cutoff)

/-- Whether an artifact is among the evidence of a role. -/
def cites (evidence : List FeeEvidence) (role : FeeEvidenceRole) (artifact : ArchivedArtifact) :
    Bool :=
  evidence.any fun item => decide (item.role = role ∧ item.artifact.sha256 = artifact.sha256)

/-- The evidence, with the official schedule in front unless it is there. -/
def FeeSchedule.evidence (schedule : FeeSchedule) (evidence : List FeeEvidence) :
    List FeeEvidence :=
  match schedule.artifact with
  | none => evidence
  | some artifact =>
      if cites evidence .officialSchedule artifact then evidence
      else ⟨.officialSchedule, artifact⟩ :: evidence

/-- The evidence with the artifact of a change. -/
def addChange (role : FeeEvidenceRole) (evidence : List FeeEvidence) (change : FeeChange) :
    List FeeEvidence :=
  match change.artifact with
  | none => evidence
  | some artifact => if cites evidence role artifact then evidence else evidence ++ [⟨role, artifact⟩]

/-- The multiplier of the series metadata. -/
def FeeRequest.metadataMultiplier (request : FeeRequest) : Except FeeHalt (ℤ × ℤ) := do
  let ratio ← match request.seriesMultiplierNumerator, request.seriesMultiplierDenominator,
      request.seriesMultiplier with
    | some numerator, some denominator, none => .ok (numerator, denominator)
    | some numerator, some denominator, some multiplier => do
        let parsed ← exactRational readings multiplier
        if parsed ≠ (numerator, denominator) then .error (.raised .valueError)
        else .ok (numerator, denominator)
    | _, _, some multiplier => exactRational readings multiplier
    | _, _, none => .error (.raised .valueError)
  if ratio.1 < 0 ∨ ratio.2 ≤ 0 then .error (.raised .valueError) else .ok ratio

/-- The checks before the changes are read. -/
def FeePolicyResolver.opening (resolver : FeePolicyResolver) (request : FeeRequest) :
    Except FeeHalt FeeOpening := do
  let asOf ← requireAwareFee request.asOf
  let cutoff ← requireAwareFee request.cutoff
  if cutoff < asOf then .error (.raised .valueError) else
  let evidence := resolver.schedule.evidence request.evidence
  validateEvidenceCutoff evidence cutoff
  match resolver.schedule.artifact with
  | none => .error (.raised (.policyError "local JSON fee schedule lacks archived evidence"))
  | some scheduleArtifact =>
      if asOf < resolver.schedule.effectiveAt then
        .error (.closed .unavailable .feePolicyUnavailable evidence)
      else match request.seriesFeeType with
        | none => .error (.closed .unavailable .feeSourceIncomplete evidence)
        | some feeType =>
            if request.seriesMultiplier.isNone && (request.seriesMultiplierNumerator.isNone ||
                request.seriesMultiplierDenominator.isNone) then
              .error (.closed .unavailable .feeSourceIncomplete evidence)
            else if Text.isBlank feeType then .error (.raised .valueError)
            else do
              let multiplier ← request.metadataMultiplier readings
              .ok ⟨asOf, cutoff, evidence, scheduleArtifact, feeType, multiplier⟩

/-- The fees after the change of the series in force. -/
def selectSeries (opening : FeeOpening) (effectiveAt : Instant) :
    Option FeeChange → Except FeeHalt FeeSelection
  | none => .ok {
      feeType := opening.feeType
      multiplier := opening.multiplier
      effectiveFrom := effectiveAt
      scheduledTs := none
      override := none
      overrideType := none
      overrideCleared := false
      series := none
      event := none }
  | some change => match change.feeType, change.multiplier with
      | some feeType, some multiplier => .ok {
          feeType := feeType
          multiplier := multiplier
          effectiveFrom := change.scheduledTs
          scheduledTs := some change.scheduledTs
          override := none
          overrideType := none
          overrideCleared := false
          series := some change
          event := none }
      | _, _ => .error (.raised .valueError)

/-- The fees after the override of the event in force. -/
def selectEvent (selection : FeeSelection) : Option FeeChange → Except FeeHalt FeeSelection
  | none => .ok selection
  | some change =>
      let scheduled := max (selection.scheduledTs.getD change.scheduledTs) change.scheduledTs
      let effective := max selection.effectiveFrom change.scheduledTs
      if change.explicitClear then .ok { selection with
        effectiveFrom := effective
        scheduledTs := some scheduled
        overrideCleared := true
        event := some change }
      else match change.multiplierOverride with
        | none => .error (.raised .valueError)
        | some ratio => .ok { selection with
            feeType := change.feeTypeOverride.getD selection.feeType
            effectiveFrom := effective
            scheduledTs := some scheduled
            override := some ratio
            overrideType := change.feeTypeOverride
            event := some change }

/-- The selection from the two histories: first of the series, then of the event. -/
def FeePolicyResolver.select (resolver : FeePolicyResolver) (request : FeeRequest)
    (opening : FeeOpening) (series event : List FeeChange) : Except FeeHalt FeeSelection := do
  let seriesChange ← selectChange series opening.asOf request.seriesRef
  let selection ← selectSeries opening resolver.schedule.effectiveAt seriesChange
  let eventChange ← selectChange event opening.asOf request.eventRef
  selectEvent selection eventChange

/-- The end of a waiver. -/
def waiverEnd : WaiverExpiration → Except FeeHalt Instant
  | .at time => requireAwareFee time
  | .text value =>
      match readings.fromisoformat (String.ofList (value.toList.flatMap fun c =>
        if c = 'Z' then "+00:00".toList else [c])) with
      | some time => requireAwareFee time
      | none => .error (.raised .valueError)

/-- Whether the fees are waived, and by what evidence. -/
def FeeRequest.waiver (request : FeeRequest) (asOf : Instant) :
    Except FeeHalt (Bool × Option JsonObject) :=
  match request.waiverExpirationTime with
  | none => .ok (false, none)
  | some expirationTime => do
      let expiration ← waiverEnd readings expirationTime
      let waiver := decide (asOf < expiration)
      .ok (waiver, some [("expiration_time", .text (isoUtc expiration)), ("waived", .bool waiver),
        ("as_of", .text (isoUtc asOf))])

def optionalText (value : Option String) : Json := (value.map Json.text).getD .null

def optionalInt (value : Option ℤ) : Json := (value.map Json.int).getD .null

/-- `exact_inputs`. -/
def FeePolicyResolver.exactInputs (resolver : FeePolicyResolver) (request : FeeRequest)
    (opening : FeeOpening) (selection : FeeSelection) (waiverEvidence : Option JsonObject) :
    JsonObject := [
  ("schedule", .object [
    ("schedule_version", .text resolver.schedule.scheduleVersion),
    ("official_url", optionalText resolver.schedule.officialUrl),
    ("effective_at", .text (isoUtc resolver.schedule.effectiveAt)),
    ("artifact_sha256", .text opening.scheduleArtifact.sha256.hex),
    ("pdf_sha256", optionalText (resolver.schedule.pdfSha256.map Sha256.hex)),
    ("formula_version", .text feeFormulaVersion)]),
  ("series", .object [
    ("series_ref", .text request.seriesRef),
    ("fee_type", .text opening.feeType),
    ("metadata_multiplier_numerator", .int opening.multiplier.1),
    ("metadata_multiplier_denominator", .int opening.multiplier.2),
    ("selected_change_id", optionalText (selection.series.map FeeChange.identity)),
    ("selected_scheduled_ts", optionalText (selection.series.map (isoUtc ·.scheduledTs))),
    ("selected_fee_type", .text selection.feeType),
    ("selected_multiplier_numerator", .int selection.multiplier.1),
    ("selected_multiplier_denominator", .int selection.multiplier.2)]),
  ("event", .object [
    ("event_ref", .text request.eventRef),
    ("selected_change_id", optionalText (selection.event.map FeeChange.identity)),
    ("selected_scheduled_ts", optionalText (selection.event.map (isoUtc ·.scheduledTs))),
    ("fee_type_override", optionalText selection.overrideType),
    ("fee_multiplier_override_numerator", optionalInt (selection.override.map Prod.fst)),
    ("fee_multiplier_override_denominator", optionalInt (selection.override.map Prod.snd)),
    ("cleared", .bool selection.overrideCleared)]),
  ("waiver", (waiverEvidence.map Json.object).getD .null)]

/-- The fields of the policy. -/
def FeePolicyResolver.policyFields (resolver : FeePolicyResolver) (request : FeeRequest)
    (opening : FeeOpening) (evidence : List FeeEvidence) (selection : FeeSelection)
    (waiver : Bool) (waiverEvidence : Option JsonObject) : FeePolicyFields where
  contractVersion := feeSettlementContractVersion
  scheduleVersion := resolver.schedule.scheduleVersion
  formulaVersion := feeFormulaVersion
  participantRole := resolver.participantRole
  feeType := selection.feeType
  seriesMultiplier := selection.multiplier
  eventOverride := selection.override
  eventOverrideFeeType := selection.overrideType
  eventOverrideCleared := selection.overrideCleared
  rateOverride := some (resolver.schedule.rate resolver.participantRole)
  waiver := waiver
  waiverEvidence := waiverEvidence
  asOf := some opening.asOf
  effectiveFrom := some selection.effectiveFrom
  scheduledTs := selection.scheduledTs
  sourceObservedAt :=
    some ((evidence.filterMap fun item => item.artifact.observedAt).max?.getD opening.asOf)
  cutoff := some opening.cutoff
  sourceTier := "official"
  rawArtifact := some ((evidence.head?.map FeeEvidence.artifact).getD opening.scheduleArtifact)
  sourceArtifacts := evidence.map FeeEvidence.artifact
  evidenceReferences := evidence.map fun item => (item.role.value, item.artifact.sha256.hex)
  scheduleSha256 := some opening.scheduleArtifact.sha256
  settlementFeeMicros := resolver.schedule.settlementFeeMicros
  exactInputs := resolver.exactInputs request opening selection waiverEvidence

/-- The evidence with what the changes rest on. -/
def FeeOpening.gathered (opening : FeeOpening) (series event : List FeeChange) :
    List FeeEvidence :=
  event.foldl (addChange .eventFeeChange)
    (series.foldl (addChange .seriesFeeChange) opening.evidence)

/-- The rest of `resolve`, once the evidence is valid. -/
def FeePolicyResolver.conclude (resolver : FeePolicyResolver) (request : FeeRequest)
    (opening : FeeOpening) (evidence : List FeeEvidence) (series event : List FeeChange) :
    Except FeeHalt (ResolvedFeePolicy × List FeeEvidence) := do
  let selection ← resolver.select request opening series event
  let waiver ← request.waiver readings opening.asOf
  if selection.feeType ≠ "quadratic" then
    .error (.closed .unsupported .unsupportedFeeType evidence)
  else if resolver.participantRole ≠ .taker then
    .error (.closed .unsupported .unsupportedParticipantRole evidence)
  else do
    let policy ←
      (resolver.policyFields request opening evidence selection waiver.1 waiver.2).make
    .ok (policy, evidence)

/-- The body of `resolve`: the policy and the evidence, or why there is none. -/
def FeePolicyResolver.attempt (resolver : FeePolicyResolver) (request : FeeRequest)
    (series event : List FeeChange) : Except FeeHalt (ResolvedFeePolicy × List FeeEvidence) := do
  let opening ← resolver.opening readings request
  validateEvidenceCutoff (opening.gathered series event) opening.cutoff
  resolver.conclude readings request opening (opening.gathered series event) series event

/-- What `resolve` returns.  A market has a policy exactly when it is available, and a reason
exactly when it is closed. -/
structure FeePolicyResolution where
  marketRef : String
  status : FeePolicyStatus
  reason : Option FeePolicyReason
  policy : Option ResolvedFeePolicy
  evidence : List FeeEvidence
  marketRef_nonblank : Text.isBlank marketRef = false
  policy_iff : policy.isSome = true ↔ status = .available
  reason_iff : reason.isNone = true ↔ status = .available

/-- `FeePolicyResolution(...)`. -/
def FeePolicyResolution.make (marketRef : String) (status : FeePolicyStatus)
    (reason : Option FeePolicyReason) (policy : Option ResolvedFeePolicy)
    (evidence : List FeeEvidence) : Except FeeRaised FeePolicyResolution :=
  if h : Text.isBlank marketRef = false ∧ (policy.isSome = true ↔ status = .available) ∧
      (reason.isNone = true ↔ status = .available) then
    .ok ⟨marketRef, status, reason, policy, evidence, h.1, h.2.1, h.2.2⟩
  else .error .valueError

/-- `resolve`.  A `ValueError` of its body closes the market. -/
def FeePolicyResolver.resolve (resolver : FeePolicyResolver) (request : FeeRequest)
    (series event : List FeeChange) : Except FeeRaised FeePolicyResolution :=
  let answer := match resolver.attempt readings request series event with
    | .ok (policy, evidence) =>
        FeePolicyResolution.make request.marketRef .available none (some policy) evidence
    | .error (.closed status reason evidence) =>
        FeePolicyResolution.make request.marketRef status (some reason) none evidence
    | .error (.raised error) => .error error
  match answer with
  | .error .valueError =>
      FeePolicyResolution.make request.marketRef .invalid (some .feePolicyInvalid) none []
  | _ => answer

end VTrade
