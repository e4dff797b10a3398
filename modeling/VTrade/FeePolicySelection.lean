/-
# What a fee policy depends on

Of the histories of the fees, the economics of a policy depend only on the changes of the scope
that are scheduled by the moment, and not on their order.  Two of these that disagree at one
time are never resolved: there is no policy, and the resolver raises if it gets to read them.
-/

import VTrade.Accounting
import VTrade.FeePolicy

namespace VTrade

open scoped List

/-! ## Two runs that stop alike -/

/-- The results of two runs are related, or both runs stop for the same reason. -/
inductive Alike {α β : Type} (related : α → β → Prop) : Except FeeHalt α → Except FeeHalt β → Prop
  | ok {a : α} {b : β} (h : related a b) : Alike related (.ok a) (.ok b)
  | raised (error : FeeRaised) : Alike related (.error (.raised error)) (.error (.raised error))
  | conflict (message message' : String) : Alike related
      (.error (.raised (.sourceConflict message))) (.error (.raised (.sourceConflict message')))
  | closed (status : FeePolicyStatus) (reason : FeePolicyReason)
      (evidence evidence' : List FeeEvidence) : Alike related
      (.error (.closed status reason evidence)) (.error (.closed status reason evidence'))

namespace Alike

variable {α β γ δ : Type} {related : α → β → Prop} {related' : γ → δ → Prop}

theorem error (halt : FeeHalt) : Alike related (.error halt) (.error halt) := by
  cases halt with
  | raised error => exact .raised error
  | closed status reason evidence => exact .closed status reason evidence evidence


/-- Two computations are alike if they start alike and go on alike from related results. -/
theorem bind {x : Except FeeHalt α} {y : Except FeeHalt β} {f : α → Except FeeHalt γ}
    {g : β → Except FeeHalt δ} (hxy : Alike related x y)
    (hfg : ∀ a b, related a b → Alike related' (f a) (g b)) :
    Alike related' (x >>= f) (y >>= g) := by
  cases hxy with
  | ok h => exact hfg _ _ h
  | raised error => exact .raised error
  | conflict message message' => exact .conflict message message'
  | closed status reason evidence evidence' => exact .closed status reason evidence evidence'

/-- The same start, and alike from there on. -/
theorem bind_left (x : Except FeeHalt α) {f : α → Except FeeHalt γ} {g : α → Except FeeHalt δ}
    (hfg : ∀ a, x = .ok a → Alike related' (f a) (g a)) : Alike related' (x >>= f) (x >>= g) := by
  cases x with
  | ok a => exact hfg a rfl
  | error halt => exact error halt

end Alike

/-! ## Selecting a change -/

/-- Changes are ranked as they are where they are selected. -/
local instance changeOrder : LinearOrder (Instant ×ₗ String) := momentOrder

local instance changePreorder : Preorder (Instant ×ₗ String) := momentPreorder

/-- Two changes that apply disagree at one time. -/
def Conflicted (values : List FeeChange) (asOf : Instant) (scopeRef : String) : Prop :=
  ∃ first ∈ values, ∃ second ∈ values, first.applies asOf scopeRef = true ∧
    second.applies asOf scopeRef = true ∧ second.scheduledTs = first.scheduledTs ∧
    second.semanticKey ≠ first.semanticKey

section selection

variable {values values' : List FeeChange} {asOf : Instant} {scopeRef : String}

theorem selectChange_of_conflicted (h : Conflicted values asOf scopeRef) :
    ∃ message, selectChange values asOf scopeRef = .error (.raised (.sourceConflict message)) := by
  obtain ⟨first, hfirst, second, hsecond, happlies, happlies', htime, hkey⟩ := h
  unfold selectChange
  dsimp only
  split
  · exact ⟨_, rfl⟩
  · rename_i hnone
    rw [List.find?_eq_none] at hnone
    have hany := hnone first (List.mem_filter.mpr ⟨hfirst, happlies⟩)
    refine absurd ?_ hany
    exact List.any_eq_true.mpr ⟨second, List.mem_filter.mpr ⟨hsecond, happlies'⟩, by
      simp [htime, hkey]⟩

theorem selectChange_of_agreeing (h : ¬ Conflicted values asOf scopeRef) :
    selectChange values asOf scopeRef = .ok ((values.filter
      fun change => change.applies asOf scopeRef).argmax fun change =>
        (toLex (change.scheduledTs, change.identity) : Instant ×ₗ String)) := by
  unfold selectChange
  dsimp only
  split
  · rename_i change hfound
    refine absurd ?_ h
    obtain ⟨hmem, happlies⟩ := List.mem_filter.mp (List.mem_of_find?_eq_some hfound)
    have hany := List.find?_some hfound
    obtain ⟨other, hother, hdisagree⟩ := List.any_eq_true.mp hany
    obtain ⟨hmem', happlies'⟩ := List.mem_filter.mp hother
    simp only [Bool.and_eq_true, decide_eq_true_eq] at hdisagree
    exact ⟨change, hmem, other, hmem', happlies, happlies', hdisagree.1, hdisagree.2⟩
  · rfl

/-- The histories have the same changes that apply, in any order. -/
theorem conflicted_of_perm
    (hperm : (values.filter fun change => change.applies asOf scopeRef) ~
      values'.filter fun change => change.applies asOf scopeRef)
    (h : Conflicted values asOf scopeRef) : Conflicted values' asOf scopeRef := by
  obtain ⟨first, hfirst, second, hsecond, happlies, happlies', htime, hkey⟩ := h
  have hfirst' := List.mem_filter.mp (hperm.mem_iff.mp (List.mem_filter.mpr ⟨hfirst, happlies⟩))
  have hsecond' :=
    List.mem_filter.mp (hperm.mem_iff.mp (List.mem_filter.mpr ⟨hsecond, happlies'⟩))
  exact ⟨first, hfirst'.1, second, hsecond'.1, happlies, happlies', htime, hkey⟩

/-- The change in force says the same in any order of the changes that apply. -/
theorem selectChange_alike
    (hperm : (values.filter fun change => change.applies asOf scopeRef) ~
      values'.filter fun change => change.applies asOf scopeRef) :
    Alike (fun first second : Option FeeChange =>
        first.map FeeChange.semanticKey = second.map FeeChange.semanticKey)
      (selectChange values asOf scopeRef) (selectChange values' asOf scopeRef) := by
  by_cases hconflict : Conflicted values asOf scopeRef
  · obtain ⟨message, herror⟩ := selectChange_of_conflicted hconflict
    obtain ⟨message', herror'⟩ := selectChange_of_conflicted (conflicted_of_perm hperm hconflict)
    rw [herror, herror']
    exact .conflict message message'
  · have hconflict' : ¬ Conflicted values' asOf scopeRef :=
      fun h => hconflict (conflicted_of_perm hperm.symm h)
    rw [selectChange_of_agreeing hconflict, selectChange_of_agreeing hconflict']
    refine .ok ?_
    cases hfirst : (values.filter fun change => change.applies asOf scopeRef).argmax
        fun change => (toLex (change.scheduledTs, change.identity) : Instant ×ₗ String) with
    | none =>
        rw [List.argmax_eq_none] at hfirst
        rw [hfirst] at hperm
        rw [hperm.symm.eq_nil]
        rfl
    | some first =>
        cases hsecond : (values'.filter fun change => change.applies asOf scopeRef).argmax
            fun change => (toLex (change.scheduledTs, change.identity) : Instant ×ₗ String) with
        | none =>
            rw [List.argmax_eq_none] at hsecond
            rw [hsecond] at hperm
            rw [hperm.eq_nil] at hfirst
            cases hfirst
        | some second =>
            have hmem := List.argmax_mem hfirst
            have hmem' := hperm.mem_iff.mpr (List.argmax_mem hsecond)
            have hle := List.le_of_mem_argmax (hperm.mem_iff.mp hmem) hsecond
            have hge := List.le_of_mem_argmax hmem' hfirst
            have hrank := le_antisymm hle hge
            have htime : first.scheduledTs = second.scheduledTs :=
              congrArg (fun rank : Instant ×ₗ String => (ofLex rank).1) hrank
            have hfirst' := List.mem_filter.mp hmem
            have hsecond' := List.mem_filter.mp hmem'
            have hkey : second.semanticKey = first.semanticKey := by
              by_contra hne
              exact hconflict ⟨first, hfirst'.1, second, hsecond'.1, hfirst'.2, hsecond'.2,
                htime.symm, hne⟩
            simp [hkey]

end selection

/-! ## The fees that are selected -/

/-- A selection without the identities of the changes. -/
def FeeSelection.plain (selection : FeeSelection) : FeeSelection :=
  { selection with series := none, event := none }

theorem selectSeries_alike (opening : FeeOpening) (effectiveAt : Instant)
    {first second : Option FeeChange}
    (h : first.map FeeChange.semanticKey = second.map FeeChange.semanticKey) :
    Alike (fun one other => one.plain = other.plain)
      (selectSeries opening effectiveAt first) (selectSeries opening effectiveAt second) := by
  cases first with
  | none =>
      cases second with
      | none => exact .ok rfl
      | some change' => simp at h
  | some change =>
      cases second with
      | none => simp at h
      | some change' =>
          have hkey : change.semanticKey = change'.semanticKey := by simpa using h
          have htype : change.feeType = change'.feeType :=
            congrArg FeeChangeMeaning.feeType hkey
          have hmultiplier : change.multiplier = change'.multiplier :=
            congrArg FeeChangeMeaning.multiplier hkey
          have htime : change.scheduledTs = change'.scheduledTs :=
            congrArg FeeChangeMeaning.scheduledTs hkey
          unfold selectSeries
          dsimp only
          rw [htype, hmultiplier, htime]
          cases change'.feeType with
          | none => exact Alike.error _
          | some feeType =>
              cases change'.multiplier with
              | none => exact Alike.error _
              | some multiplier => exact .ok rfl

theorem selectEvent_alike {selection selection' : FeeSelection} {first second : Option FeeChange}
    (hselection : selection.plain = selection'.plain)
    (h : first.map FeeChange.semanticKey = second.map FeeChange.semanticKey) :
    Alike (fun one other => one.plain = other.plain)
      (selectEvent selection first) (selectEvent selection' second) := by
  cases first with
  | none =>
      cases second with
      | none => exact .ok hselection
      | some change' => simp at h
  | some change =>
      cases second with
      | none => simp at h
      | some change' =>
          have hkey : change.semanticKey = change'.semanticKey := by simpa using h
          have htype : change.feeTypeOverride = change'.feeTypeOverride :=
            congrArg FeeChangeMeaning.feeTypeOverride hkey
          have hmultiplier : change.multiplierOverride = change'.multiplierOverride :=
            congrArg FeeChangeMeaning.multiplierOverride hkey
          have htime : change.scheduledTs = change'.scheduledTs :=
            congrArg FeeChangeMeaning.scheduledTs hkey
          have hclear : change.explicitClear = change'.explicitClear :=
            congrArg FeeChangeMeaning.explicitClear hkey
          simp only [FeeSelection.plain, FeeSelection.mk.injEq, and_true] at hselection
          obtain ⟨hfee, hmetadata, heffective, hscheduled, hoverride, hoverrideType, hcleared⟩ :=
            hselection
          unfold selectEvent
          dsimp only
          rw [htype, hmultiplier, htime, hclear]
          cases change'.explicitClear with
          | true =>
              refine .ok ?_
              simp [FeeSelection.plain, hfee, hmetadata, heffective, hscheduled, hoverride,
                hoverrideType]
          | false =>
              cases change'.multiplierOverride with
              | none => exact Alike.error _
              | some ratio =>
                  refine .ok ?_
                  simp [FeeSelection.plain, hfee, hmetadata, heffective, hscheduled, hcleared]

variable {readings : FeeReadings} {resolver : FeePolicyResolver} {request : FeeRequest}
  {opening : FeeOpening} {series series' event event' : List FeeChange}

/-- The selection reads, of each history, only the changes that apply. -/
theorem select_alike
    (hseries : (series.filter fun change => change.applies opening.asOf request.seriesRef) ~
      series'.filter fun change => change.applies opening.asOf request.seriesRef)
    (hevent : (event.filter fun change => change.applies opening.asOf request.eventRef) ~
      event'.filter fun change => change.applies opening.asOf request.eventRef) :
    Alike (fun one other => one.plain = other.plain)
      (resolver.select request opening series event)
      (resolver.select request opening series' event') := by
  unfold FeePolicyResolver.select
  apply Alike.bind (selectChange_alike hseries)
  intro first second hkey
  apply Alike.bind (selectSeries_alike opening resolver.schedule.effectiveAt hkey)
  intro selection selection' hplain
  apply Alike.bind (selectChange_alike hevent)
  intro first second hkey
  exact selectEvent_alike hplain hkey

/-! ## The evidence -/

theorem validateCutoff_eq_ok {item : FeeEvidence} {cutoff : Instant} :
    validateCutoff cutoff item = .ok () ↔ item.artifact.timely cutoff = true := by
  unfold validateCutoff
  by_cases htimely : item.artifact.timely cutoff = true
  · simp [htimely]
  · by_cases hrole : item.role = .officialSchedule <;> simp [htimely, hrole]

theorem validateEvidenceCutoff_eq_ok {evidence : List FeeEvidence} {cutoff : Instant} :
    validateEvidenceCutoff evidence cutoff = .ok () ↔
      ∀ item ∈ evidence, item.artifact.timely cutoff = true := by
  induction evidence with
  | nil => exact ⟨fun _ _ hmem => absurd hmem List.not_mem_nil, fun _ => rfl⟩
  | cons item rest ih =>
      rw [List.forall_mem_cons, ← ih, ← validateCutoff_eq_ok]
      change (validateCutoff cutoff item >>= fun _ => validateEvidenceCutoff rest cutoff) = _ ↔ _
      rw [Checks.bind_eq_ok]
      exact ⟨fun ⟨_, hitem, hrest⟩ => ⟨hitem, hrest⟩, fun ⟨hitem, hrest⟩ => ⟨(), hitem, hrest⟩⟩

/-- What is gathered from a history are artifacts of its changes. -/
theorem mem_foldl_addChange {role : FeeEvidenceRole} {changes : List FeeChange}
    {evidence : List FeeEvidence} {item : FeeEvidence}
    (h : item ∈ changes.foldl (addChange role) evidence) :
    item ∈ evidence ∨ ∃ change ∈ changes, item.artifact ∈ change.artifact := by
  induction changes generalizing evidence with
  | nil => exact .inl h
  | cons change rest ih =>
      rw [List.foldl_cons] at h
      cases ih h with
      | inr hlater =>
          obtain ⟨later, hlater, hartifact⟩ := hlater
          exact .inr ⟨later, List.mem_cons_of_mem _ hlater, hartifact⟩
      | inl hmem =>
          unfold addChange at hmem
          cases hartifact : change.artifact with
          | none =>
              rw [hartifact] at hmem
              exact .inl hmem
          | some artifact =>
              rw [hartifact] at hmem
              dsimp only at hmem
              split at hmem
              · exact .inl hmem
              · cases List.mem_append.mp hmem with
                | inl hbefore => exact .inl hbefore
                | inr hadded =>
                    rw [List.mem_singleton] at hadded
                    exact .inr ⟨change, List.mem_cons_self, by rw [hadded, hartifact]; rfl⟩

/-- Histories that rest on timely artifacts leave the evidence valid. -/
theorem gathered_valid
    (hopening : validateEvidenceCutoff opening.evidence opening.cutoff = .ok ())
    (htimely : ∀ change ∈ series ++ event, ∀ artifact ∈ change.artifact,
      artifact.timely opening.cutoff = true) :
    validateEvidenceCutoff (opening.gathered series event) opening.cutoff = .ok () := by
  rw [validateEvidenceCutoff_eq_ok] at hopening ⊢
  intro item hitem
  cases mem_foldl_addChange hitem with
  | inr hevent =>
      obtain ⟨change, hmem, hartifact⟩ := hevent
      exact htimely change (List.mem_append_right _ hmem) _ hartifact
  | inl hitem =>
      cases mem_foldl_addChange hitem with
      | inr hseries =>
          obtain ⟨change, hmem, hartifact⟩ := hseries
          exact htimely change (List.mem_append_left _ hmem) _ hartifact
      | inl hitem => exact hopening item hitem

theorem requireAwareFee_eq_ok {value : Datetime} {instant : Instant} :
    requireAwareFee value = .ok instant ↔ value.isAware = true ∧ value.instant = instant := by
  unfold requireAwareFee
  cases value.isAware with
  | true => simp
  | false => simp

/-- What the checks before the changes establish. -/
theorem opening_spec (h : resolver.opening readings request = .ok opening) :
    opening.asOf = request.asOf.instant ∧ opening.cutoff = request.cutoff.instant ∧
      opening.asOf ≤ opening.cutoff ∧
      validateEvidenceCutoff opening.evidence opening.cutoff = .ok () := by
  unfold FeePolicyResolver.opening at h
  obtain ⟨asOf, hasOf, h⟩ := Checks.bind_eq_ok.mp h
  obtain ⟨cutoff, hcutoff, h⟩ := Checks.bind_eq_ok.mp h
  have hinstant := (requireAwareFee_eq_ok.mp hasOf).2
  have hinstant' := (requireAwareFee_eq_ok.mp hcutoff).2
  by_cases horder : cutoff < asOf
  · simp [horder] at h
  rw [if_neg horder] at h
  obtain ⟨⟨⟩, hvalid, h⟩ := Checks.bind_eq_ok.mp h
  cases hartifact : resolver.schedule.artifact with
  | none => simp [hartifact] at h
  | some artifact =>
      simp only [hartifact] at h
      by_cases heffective : asOf < resolver.schedule.effectiveAt
      · simp [heffective] at h
      rw [if_neg heffective] at h
      cases hfeeType : request.seriesFeeType with
      | none => simp [hfeeType] at h
      | some feeType =>
          simp only [hfeeType] at h
          split at h
          · cases h
          · split at h
            · cases h
            · obtain ⟨multiplier, hmultiplier, h⟩ := Checks.bind_eq_ok.mp h
              cases h
              exact ⟨hinstant.symm, hinstant'.symm, not_lt.mp horder, hvalid⟩

/-- A valid body of evidence was observed by the cutoff. -/
theorem observed_le_cutoff {evidence : List FeeEvidence} (hle : opening.asOf ≤ opening.cutoff)
    (hvalid : validateEvidenceCutoff evidence opening.cutoff = .ok ()) :
    (evidence.filterMap fun item => item.artifact.observedAt).max?.getD opening.asOf ≤
      opening.cutoff := by
  cases hmax : (evidence.filterMap fun item => item.artifact.observedAt).max? with
  | none => exact hle
  | some latest =>
      obtain ⟨item, hitem, hobserved⟩ := List.mem_filterMap.mp (List.max?_mem hmax)
      have htimely := validateEvidenceCutoff_eq_ok.mp hvalid item hitem
      simp only [ArchivedArtifact.timely, hobserved, Option.any_some, Bool.and_eq_true,
        decide_eq_true_eq] at htimely
      exact htimely.1.1

/-! ## The economics of a policy -/

structure FeeEconomics where
  feeType : String
  multiplier : ℤ × ℤ
  override : Option (ℤ × ℤ)
  overrideType : Option String
  overrideCleared : Bool
  waiver : Bool
  rate : Option (ℤ × ℤ)
  deriving DecidableEq

def FeePolicyFields.economics (policy : FeePolicyFields) : FeeEconomics where
  feeType := policy.feeType
  multiplier := policy.seriesMultiplier
  override := policy.eventOverride
  overrideType := policy.eventOverrideFeeType
  overrideCleared := policy.eventOverrideCleared
  waiver := policy.waiver
  rate := policy.rateOverride

/-- The evidence and the identities of the changes make no difference to a policy's checks. -/
theorem violations_policyFields {evidence evidence' : List FeeEvidence}
    {selection selection' : FeeSelection} (hle : opening.asOf ≤ opening.cutoff)
    (hvalid : validateEvidenceCutoff evidence opening.cutoff = .ok ())
    (hvalid' : validateEvidenceCutoff evidence' opening.cutoff = .ok ())
    (hplain : selection.plain = selection'.plain) (waiver : Bool)
    (waiverEvidence : Option JsonObject) :
    (resolver.policyFields request opening evidence selection waiver waiverEvidence).violations =
      (resolver.policyFields request opening evidence' selection' waiver
        waiverEvidence).violations := by
  have hobserved := not_lt.mpr (observed_le_cutoff hle hvalid)
  have hobserved' := not_lt.mpr (observed_le_cutoff hle hvalid')
  simp only [FeeSelection.plain, FeeSelection.mk.injEq, and_true] at hplain
  obtain ⟨hfee, hmetadata, heffective, hscheduled, hoverride, hoverrideType, hcleared⟩ := hplain
  simp only [FeePolicyFields.violations, FeePolicyResolver.policyFields, hfee, hmetadata,
    heffective, hscheduled, hoverride, hoverrideType, hcleared, Option.any_some]
  rw [decide_eq_false hobserved, decide_eq_false hobserved']
  rfl

theorem economics_policyFields {evidence evidence' : List FeeEvidence}
    {selection selection' : FeeSelection} (hplain : selection.plain = selection'.plain)
    (waiver : Bool) (waiverEvidence : Option JsonObject) :
    (resolver.policyFields request opening evidence selection waiver
        waiverEvidence).normalized.economics =
      (resolver.policyFields request opening evidence' selection' waiver
        waiverEvidence).normalized.economics := by
  simp only [FeeSelection.plain, FeeSelection.mk.injEq, and_true] at hplain
  obtain ⟨hfee, hmetadata, heffective, hscheduled, hoverride, hoverrideType, hcleared⟩ := hplain
  simp only [FeePolicyFields.economics, FeePolicyFields.normalized,
    FeePolicyFields.reportsWaiver, FeePolicyResolver.policyFields, hfee, hmetadata, hoverride,
    hoverrideType, hcleared]

theorem make_of_ok {policy : FeePolicyFields} (h : policy.postInit = .ok ()) :
    ∃ made, policy.make = .ok made ∧ made.toFeePolicyFields = policy.normalized :=
  ⟨_, Checks.build_eq_ok h _, rfl⟩

theorem make_of_error {policy : FeePolicyFields} {halt : FeeHalt}
    (h : policy.postInit = .error halt) : policy.make = .error halt :=
  Checks.build_eq_error_iff.mpr h

theorem make_alike {policy policy' : FeePolicyFields}
    (hviolations : policy.violations = policy'.violations)
    (heconomics : policy.normalized.economics = policy'.normalized.economics) :
    Alike (fun one other : ResolvedFeePolicy => one.economics = other.economics)
      policy.make policy'.make := by
  have hpost : policy'.postInit = policy.postInit := by
    unfold FeePolicyFields.postInit
    rw [hviolations]
  cases hcheck : policy.postInit with
  | error halt =>
      rw [make_of_error hcheck, make_of_error (hpost.trans hcheck)]
      exact Alike.error halt
  | ok done =>
      obtain ⟨made, hmade, hfields⟩ := make_of_ok hcheck
      obtain ⟨made', hmade', hfields'⟩ := make_of_ok (hpost.trans hcheck)
      rw [hmade, hmade']
      exact .ok (by rw [hfields, hfields', heconomics])

/-- Once the evidence is valid, the economics depend only on the changes that apply. -/
theorem conclude_alike {evidence evidence' : List FeeEvidence}
    (hle : opening.asOf ≤ opening.cutoff)
    (hvalid : validateEvidenceCutoff evidence opening.cutoff = .ok ())
    (hvalid' : validateEvidenceCutoff evidence' opening.cutoff = .ok ())
    (hseries : (series.filter fun change => change.applies opening.asOf request.seriesRef) ~
      series'.filter fun change => change.applies opening.asOf request.seriesRef)
    (hevent : (event.filter fun change => change.applies opening.asOf request.eventRef) ~
      event'.filter fun change => change.applies opening.asOf request.eventRef) :
    Alike (fun one other => one.1.economics = other.1.economics)
      (resolver.conclude readings request opening evidence series event)
      (resolver.conclude readings request opening evidence' series' event') := by
  unfold FeePolicyResolver.conclude
  apply Alike.bind (select_alike hseries hevent)
  intro selection selection' hplain
  apply Alike.bind_left
  intro waiver hwaiver
  have hfee := congrArg FeeSelection.feeType hplain
  change selection.feeType = selection'.feeType at hfee
  rw [hfee]
  split
  · exact .closed _ _ evidence evidence'
  · split
    · exact .closed _ _ evidence evidence'
    · apply Alike.bind (make_alike
        (violations_policyFields hle hvalid hvalid' hplain waiver.1 waiver.2)
        (economics_policyFields hplain waiver.1 waiver.2))
      intro policy policy' heconomics
      exact .ok heconomics

/-! ## The verdict on a market -/

/-- What a caller gets to know of a market, apart from the evidence. -/
inductive FeeVerdict
  | raised (error : FeeRaised)
  | conflict
  | closed (status : FeePolicyStatus) (reason : Option FeePolicyReason)
  | priced (economics : FeeEconomics)
  deriving DecidableEq

def feeVerdict : Except FeeRaised FeePolicyResolution → FeeVerdict
  | .error (.sourceConflict _) => .conflict
  | .error .valueError => .raised .valueError
  | .error (.policyError message) => .raised (.policyError message)
  | .ok resolution => match resolution.policy with
      | some policy => .priced policy.economics
      | none => .closed resolution.status resolution.reason

/-- The verdict that the body of `resolve` leads to. -/
def verdictOf (marketRef : String) : Except FeeHalt (ResolvedFeePolicy × List FeeEvidence) →
    FeeVerdict
  | .error (.raised (.sourceConflict _)) => .conflict
  | .error (.raised (.policyError message)) => .raised (.policyError message)
  | .error (.raised .valueError) =>
      if Text.isBlank marketRef then .raised .valueError
      else .closed .invalid (some .feePolicyInvalid)
  | .error (.closed status reason _) =>
      if Text.isBlank marketRef then .raised .valueError
      else if status = .available then .closed .invalid (some .feePolicyInvalid)
      else .closed status (some reason)
  | .ok (policy, _) =>
      if Text.isBlank marketRef then .raised .valueError else .priced policy.economics

theorem feeVerdict_resolve : feeVerdict (resolver.resolve readings request series event) =
    verdictOf request.marketRef (resolver.attempt readings request series event) := by
  unfold FeePolicyResolver.resolve
  cases hattempt : resolver.attempt readings request series event with
  | ok made =>
      cases hblank : Text.isBlank request.marketRef with
      | true => simp [FeePolicyResolution.make, verdictOf, feeVerdict, hblank]
      | false => simp [FeePolicyResolution.make, verdictOf, feeVerdict, hblank]
  | error halt =>
      cases halt with
      | raised error =>
          cases error with
          | valueError =>
              cases hblank : Text.isBlank request.marketRef with
              | true => simp [FeePolicyResolution.make, verdictOf, feeVerdict, hblank]
              | false => simp [FeePolicyResolution.make, verdictOf, feeVerdict, hblank]
          | policyError message => rfl
          | sourceConflict message => rfl
      | closed status reason evidence =>
          cases hblank : Text.isBlank request.marketRef with
          | true => simp [FeePolicyResolution.make, verdictOf, feeVerdict, hblank]
          | false =>
              cases status with
              | available => simp [FeePolicyResolution.make, verdictOf, feeVerdict, hblank]
              | unsupported => simp [FeePolicyResolution.make, verdictOf, feeVerdict, hblank]
              | invalid => simp [FeePolicyResolution.make, verdictOf, feeVerdict, hblank]
              | unavailable => simp [FeePolicyResolution.make, verdictOf, feeVerdict, hblank]

theorem verdictOf_alike (marketRef : String)
    {one other : Except FeeHalt (ResolvedFeePolicy × List FeeEvidence)}
    (h : Alike (fun first second => first.1.economics = second.1.economics) one other) :
    verdictOf marketRef one = verdictOf marketRef other := by
  cases h with
  | ok heconomics => simp only [verdictOf, heconomics]
  | raised error => rfl
  | conflict message message' => rfl
  | closed status reason evidence evidence' => rfl

/-- A verdict has economics only if the body of `resolve` made a policy. -/
theorem attempt_of_priced {economics : FeeEconomics}
    (h : feeVerdict (resolver.resolve readings request series event) = .priced economics) :
    ∃ made, resolver.attempt readings request series event = .ok made := by
  rw [feeVerdict_resolve] at h
  cases hattempt : resolver.attempt readings request series event with
  | ok made => exact ⟨made, rfl⟩
  | error halt =>
      rw [hattempt] at h
      cases halt with
      | raised error =>
          cases error with
          | valueError =>
              simp only [verdictOf] at h
              split at h <;> cases h
          | policyError message => cases h
          | sourceConflict message => cases h
      | closed status reason evidence =>
          simp only [verdictOf] at h
          split at h
          · cases h
          · split at h <;> cases h

/-! ## Reaching the changes -/

/-- The resolver gets to read the changes: its moments are in order, its evidence is timely, the
schedule is verified and in force, and the metadata of the series are complete and well formed. -/
structure FeePolicyResolver.Reads (readings : FeeReadings) (resolver : FeePolicyResolver)
    (request : FeeRequest) : Prop where
  asOf_aware : request.asOf.isAware = true
  cutoff_aware : request.cutoff.isAware = true
  asOf_le : request.asOf.instant ≤ request.cutoff.instant
  timely : ∀ item ∈ resolver.schedule.evidence request.evidence,
    item.artifact.timely request.cutoff.instant = true
  verified : resolver.schedule.artifact.isSome = true
  effective : resolver.schedule.effectiveAt ≤ request.asOf.instant
  feeType : request.seriesFeeType.any (fun feeType => !Text.isBlank feeType) = true
  multiplier : (request.metadataMultiplier readings).toOption.isSome = true

theorem metadataMultiplier_missing (hmultiplier : request.seriesMultiplier = none)
    (h : (request.seriesMultiplierNumerator.isNone ||
      request.seriesMultiplierDenominator.isNone) = true) :
    request.metadataMultiplier readings = .error (.raised .valueError) := by
  unfold FeeRequest.metadataMultiplier
  rw [hmultiplier]
  cases hnumerator : request.seriesMultiplierNumerator with
  | none => rfl
  | some numerator =>
      cases hdenominator : request.seriesMultiplierDenominator with
      | none => rfl
      | some denominator => simp [hnumerator, hdenominator] at h

theorem FeePolicyResolver.Reads.opens (h : resolver.Reads readings request) :
    ∃ opening, resolver.opening readings request = .ok opening := by
  obtain ⟨artifact, hartifact⟩ := Option.isSome_iff_exists.mp h.verified
  have hvalid := validateEvidenceCutoff_eq_ok.mpr h.timely
  have hfeeType := h.feeType
  have hmultiplier := h.multiplier
  unfold FeePolicyResolver.opening
  rw [requireAwareFee_eq_ok.mpr ⟨h.asOf_aware, rfl⟩, requireAwareFee_eq_ok.mpr ⟨h.cutoff_aware, rfl⟩]
  simp only [bind, Except.bind, if_neg (not_lt.mpr h.asOf_le), hvalid, hartifact,
    if_neg (not_lt.mpr h.effective)]
  cases hseries : request.seriesFeeType with
  | none => simp [hseries] at hfeeType
  | some feeType =>
      rw [hseries] at hfeeType
      have hblank : Text.isBlank feeType = false := by simpa using hfeeType
      cases hratio : request.metadataMultiplier readings with
      | error halt =>
          rw [hratio] at hmultiplier
          cases hmultiplier
      | ok ratio =>
          have hcomplete : (request.seriesMultiplier.isNone &&
              (request.seriesMultiplierNumerator.isNone ||
                request.seriesMultiplierDenominator.isNone)) = false := by
            by_contra hmissing
            rw [Bool.not_eq_false, Bool.and_eq_true] at hmissing
            have herror : request.metadataMultiplier readings = .error (.raised .valueError) :=
              metadataMultiplier_missing (Option.isNone_iff_eq_none.mp hmissing.1) hmissing.2
            rw [hratio] at herror
            cases herror
          simp [hcomplete, hblank]

/-- What the resolver does with the evidence of its histories once it reads them. -/
theorem attempt_eq_conclude (hopening : resolver.opening readings request = .ok opening)
    (htimely : ∀ change ∈ series ++ event, ∀ artifact ∈ change.artifact,
      artifact.timely request.cutoff.instant = true) :
    resolver.attempt readings request series event =
      resolver.conclude readings request opening (opening.gathered series event) series event := by
  obtain ⟨hasOf, hcutoff, hle, hvalid⟩ := opening_spec hopening
  rw [← hcutoff] at htimely
  unfold FeePolicyResolver.attempt
  rw [hopening]
  change (validateEvidenceCutoff (opening.gathered series event) opening.cutoff >>= fun _ => _) = _
  rw [gathered_valid hvalid htimely]
  rfl

/-- A conflict in the history of the series raises. -/
theorem select_of_series_conflicted (h : Conflicted series opening.asOf request.seriesRef) :
    ∃ message, resolver.select request opening series event =
      .error (.raised (.sourceConflict message)) := by
  obtain ⟨message, herror⟩ := selectChange_of_conflicted h
  refine ⟨message, ?_⟩
  unfold FeePolicyResolver.select
  rw [herror]
  rfl

/-- A conflict in the history of the event raises, once the changes of the series are complete. -/
theorem select_of_event_conflicted (h : Conflicted event opening.asOf request.eventRef)
    (hcomplete : ∀ change ∈ series, change.applies opening.asOf request.seriesRef = true →
      change.feeType.isSome = true ∧ change.multiplier.isSome = true) :
    ∃ message, resolver.select request opening series event =
      .error (.raised (.sourceConflict message)) := by
  by_cases hseries : Conflicted series opening.asOf request.seriesRef
  · exact select_of_series_conflicted hseries
  · obtain ⟨message, herror⟩ := selectChange_of_conflicted h
    refine ⟨message, ?_⟩
    unfold FeePolicyResolver.select
    rw [selectChange_of_agreeing hseries]
    have hselected : ∃ selection, selectSeries opening resolver.schedule.effectiveAt
        ((series.filter fun change => change.applies opening.asOf request.seriesRef).argmax
          fun change => (toLex (change.scheduledTs, change.identity) : Instant ×ₗ String)) =
        .ok selection := by
      cases hlast : (series.filter fun change =>
          change.applies opening.asOf request.seriesRef).argmax
          fun change => (toLex (change.scheduledTs, change.identity) : Instant ×ₗ String) with
      | none => exact ⟨_, rfl⟩
      | some change =>
          obtain ⟨hmem, happlies⟩ := List.mem_filter.mp (List.argmax_mem hlast)
          obtain ⟨htype, hratio⟩ := hcomplete change hmem happlies
          obtain ⟨feeType, htype⟩ := Option.isSome_iff_exists.mp htype
          obtain ⟨ratio, hratio⟩ := Option.isSome_iff_exists.mp hratio
          unfold selectSeries
          simp [htype, hratio]
    obtain ⟨selection, hselection⟩ := hselected
    simp only [bind, Except.bind, hselection, herror]

theorem conclude_of_select_error {evidence : List FeeEvidence} {halt : FeeHalt}
    (h : resolver.select request opening series event = .error halt) :
    resolver.conclude readings request opening evidence series event = .error halt := by
  unfold FeePolicyResolver.conclude
  rw [h]
  rfl

/-- A policy is only made of histories without conflicts. -/
theorem not_conflicted_of_attempt {made : ResolvedFeePolicy × List FeeEvidence}
    (h : resolver.attempt readings request series event = .ok made) :
    ¬ Conflicted series request.asOf.instant request.seriesRef ∧
      ¬ Conflicted event request.asOf.instant request.eventRef := by
  unfold FeePolicyResolver.attempt at h
  obtain ⟨opening, hopening, h⟩ := Checks.bind_eq_ok.mp h
  obtain ⟨⟨⟩, hvalid, h⟩ := Checks.bind_eq_ok.mp h
  unfold FeePolicyResolver.conclude at h
  obtain ⟨selection, hselection, h⟩ := Checks.bind_eq_ok.mp h
  unfold FeePolicyResolver.select at hselection
  obtain ⟨seriesChange, hseries, hselection⟩ := Checks.bind_eq_ok.mp hselection
  obtain ⟨first, hfirst, hselection⟩ := Checks.bind_eq_ok.mp hselection
  obtain ⟨eventChange, hevent, hselection⟩ := Checks.bind_eq_ok.mp hselection
  rw [← (opening_spec hopening).1]
  constructor
  · intro hconflict
    obtain ⟨message, herror⟩ := selectChange_of_conflicted hconflict
    rw [herror] at hseries
    cases hseries
  · intro hconflict
    obtain ⟨message, herror⟩ := selectChange_of_conflicted hconflict
    rw [herror] at hevent
    cases hevent

/-! ## What the resolver reads of the histories -/

/-- Two pairs of histories with the same changes of the scopes by the moment. -/
structure SameApplicable (request : FeeRequest) (series series' event event' : List FeeChange) :
    Prop where
  series : (series.filter fun change =>
      change.applies request.asOf.instant request.seriesRef) ~
    series'.filter fun change => change.applies request.asOf.instant request.seriesRef
  event : (event.filter fun change =>
      change.applies request.asOf.instant request.eventRef) ~
    event'.filter fun change => change.applies request.asOf.instant request.eventRef

/-- Timely histories with the same applicable changes lead to the same verdict. -/
theorem verdict_of_sameApplicable (hsame : SameApplicable request series series' event event')
    (htimely : ∀ change ∈ (series ++ event) ++ (series' ++ event'),
      ∀ artifact ∈ change.artifact, artifact.timely request.cutoff.instant = true) :
    feeVerdict (resolver.resolve readings request series event) =
      feeVerdict (resolver.resolve readings request series' event') := by
  rw [feeVerdict_resolve, feeVerdict_resolve]
  cases hopening : resolver.opening readings request with
  | error halt =>
      unfold FeePolicyResolver.attempt
      rw [hopening]
      rfl
  | ok opening =>
      obtain ⟨hasOf, hcutoff, hle, hvalid⟩ := opening_spec hopening
      have hfirst : ∀ change ∈ series ++ event, ∀ artifact ∈ change.artifact,
          artifact.timely request.cutoff.instant = true :=
        fun change hmem => htimely change (List.mem_append_left _ hmem)
      have hsecond : ∀ change ∈ series' ++ event', ∀ artifact ∈ change.artifact,
          artifact.timely request.cutoff.instant = true :=
        fun change hmem => htimely change (List.mem_append_right _ hmem)
      rw [attempt_eq_conclude hopening hfirst, attempt_eq_conclude hopening hsecond]
      rw [← hcutoff] at hfirst hsecond
      apply verdictOf_alike
      apply conclude_alike hle (gathered_valid hvalid hfirst) (gathered_valid hvalid hsecond)
      · rw [hasOf]
        exact hsame.series
      · rw [hasOf]
        exact hsame.event

/-- Any two policies made of the same applicable changes have the same economics. -/
theorem economics_of_sameApplicable (hsame : SameApplicable request series series' event event')
    {economics economics' : FeeEconomics}
    (h : feeVerdict (resolver.resolve readings request series event) = .priced economics)
    (h' : feeVerdict (resolver.resolve readings request series' event') = .priced economics') :
    economics = economics' := by
  obtain ⟨made, hmade⟩ := attempt_of_priced h
  obtain ⟨made', hmade'⟩ := attempt_of_priced h'
  have hfirst := hmade
  have hsecond := hmade'
  unfold FeePolicyResolver.attempt at hfirst hsecond
  obtain ⟨opening, hopening, hfirst⟩ := Checks.bind_eq_ok.mp hfirst
  obtain ⟨opening', hopening', hsecond⟩ := Checks.bind_eq_ok.mp hsecond
  rw [hopening] at hopening'
  cases hopening'
  obtain ⟨⟨⟩, hvalid, hfirst⟩ := Checks.bind_eq_ok.mp hfirst
  obtain ⟨⟨⟩, hvalid', hsecond⟩ := Checks.bind_eq_ok.mp hsecond
  obtain ⟨hasOf, hcutoff, hle, hbefore⟩ := opening_spec hopening
  have hseries := hsame.series
  have hevent := hsame.event
  rw [← hasOf] at hseries hevent
  have halike : verdictOf request.marketRef (.ok made) = verdictOf request.marketRef (.ok made') := by
    rw [← hfirst, ← hsecond]
    exact verdictOf_alike _ (conclude_alike hle hvalid hvalid' hseries hevent)
  rw [feeVerdict_resolve, hmade] at h
  rw [feeVerdict_resolve, hmade'] at h'
  have hpriced : FeeVerdict.priced economics = .priced economics' := h.symm.trans (halike.trans h')
  exact FeeVerdict.priced.inj hpriced

/-- Two changes of the series that disagree make the resolver raise once it reads them. -/
theorem verdict_of_series_conflicted (hreads : resolver.Reads readings request)
    (htimely : ∀ change ∈ series ++ event, ∀ artifact ∈ change.artifact,
      artifact.timely request.cutoff.instant = true)
    (h : Conflicted series request.asOf.instant request.seriesRef) :
    feeVerdict (resolver.resolve readings request series event) = .conflict := by
  obtain ⟨opening, hopening⟩ := hreads.opens
  rw [← (opening_spec hopening).1] at h
  obtain ⟨message, herror⟩ := select_of_series_conflicted h
  rw [feeVerdict_resolve, attempt_eq_conclude hopening htimely, conclude_of_select_error herror]
  rfl

/-- So do two changes of the event, once those of the series are complete. -/
theorem verdict_of_event_conflicted (hreads : resolver.Reads readings request)
    (htimely : ∀ change ∈ series ++ event, ∀ artifact ∈ change.artifact,
      artifact.timely request.cutoff.instant = true)
    (hcomplete : ∀ change ∈ series,
      change.applies request.asOf.instant request.seriesRef = true →
      change.feeType.isSome = true ∧ change.multiplier.isSome = true)
    (h : Conflicted event request.asOf.instant request.eventRef) :
    feeVerdict (resolver.resolve readings request series event) = .conflict := by
  obtain ⟨opening, hopening⟩ := hreads.opens
  rw [← (opening_spec hopening).1] at h hcomplete
  obtain ⟨message, herror⟩ := select_of_event_conflicted h hcomplete
  rw [feeVerdict_resolve, attempt_eq_conclude hopening htimely, conclude_of_select_error herror]
  rfl

/-- What a resolution reads of its histories.  Policies of histories with the same applicable
changes have the same economics, and if all of their artifacts are timely then the verdicts are
the same.  Two applicable changes that disagree at one time leave no policy, and they raise
whenever the resolver gets to read them. -/
theorem FeePolicyResolver.resolve_reads_applicable (readings : FeeReadings)
    (resolver : FeePolicyResolver) (request : FeeRequest)
    (series series' event event' : List FeeChange)
    (hsame : SameApplicable request series series' event event') :
    (∀ economics economics',
      feeVerdict (resolver.resolve readings request series event) = .priced economics →
      feeVerdict (resolver.resolve readings request series' event') = .priced economics' →
      economics = economics') ∧
    ((∀ change ∈ (series ++ event) ++ (series' ++ event'), ∀ artifact ∈ change.artifact,
        artifact.timely request.cutoff.instant = true) →
      feeVerdict (resolver.resolve readings request series event) =
        feeVerdict (resolver.resolve readings request series' event')) ∧
    (Conflicted series request.asOf.instant request.seriesRef ∨
        Conflicted event request.asOf.instant request.eventRef →
      ∀ economics,
        feeVerdict (resolver.resolve readings request series event) ≠ .priced economics) ∧
    (resolver.Reads readings request →
      (∀ change ∈ series ++ event, ∀ artifact ∈ change.artifact,
        artifact.timely request.cutoff.instant = true) →
      (Conflicted series request.asOf.instant request.seriesRef →
        feeVerdict (resolver.resolve readings request series event) = .conflict) ∧
      ((∀ change ∈ series, change.applies request.asOf.instant request.seriesRef = true →
          change.feeType.isSome = true ∧ change.multiplier.isSome = true) →
        Conflicted event request.asOf.instant request.eventRef →
        feeVerdict (resolver.resolve readings request series event) = .conflict)) := by
  refine ⟨?_, ?_, ?_, ?_⟩
  · intro economics economics' h h'
    exact economics_of_sameApplicable hsame h h'
  · intro htimely
    exact verdict_of_sameApplicable hsame htimely
  · intro hconflict economics hpriced
    obtain ⟨made, hmade⟩ := attempt_of_priced hpriced
    obtain ⟨hseries, hevent⟩ := not_conflicted_of_attempt hmade
    cases hconflict with
    | inl hconflict => exact hseries hconflict
    | inr hconflict => exact hevent hconflict
  · intro hreads htimely
    exact ⟨verdict_of_series_conflicted hreads htimely,
      verdict_of_event_conflicted hreads htimely⟩

namespace Sample

/-- Something that was read at `moment`, and is of the given time. -/
def archived (sourceTimestamp : Option Instant) : ArchivedArtifact where
  sha256 := digest
  byteLength := 2
  uri := "https://example.invalid/fees"
  requestIdentity := none
  observedAt := some moment.instant
  sourceEndpoint := none
  sourceTimestamp := sourceTimestamp
  historicalCutoff := none
  schemaVersion := "fees"
  byteLength_nonneg := by decide
  uri_ne_empty := by decide
  schemaVersion_ne_empty := by decide

def feeSchedule (effectiveAt : Instant) : FeeSchedule where
  scheduleVersion := "schedule"
  officialUrl := none
  effectiveAt := effectiveAt
  pdfSha256 := none
  takerRate := (7, 100)
  makerRate := (175, 10000)
  settlementFeeMicros := 0
  artifact := some (archived none)
  version_nonblank := by decide
  takerRate_pos := by decide
  makerRate_pos := by decide
  settlementFee_nonneg := by decide

def feeResolver (effectiveAt : Instant) : FeePolicyResolver := ⟨feeSchedule effectiveAt, .taker⟩

def feeRequest : FeeRequest where
  marketRef := "KXRAIN-26"
  seriesRef := "KXRAIN"
  eventRef := "KXRAIN-EVENT"
  seriesFeeType := some "quadratic"
  seriesMultiplier := none
  seriesMultiplierNumerator := some 1
  seriesMultiplierDenominator := some 1
  waiverExpirationTime := none
  asOf := moment
  cutoff := moment
  evidence := []

def feeReadings : FeeReadings := ⟨fun _ => none, fun _ => none⟩

theorem no_override : ∀ ratio ∈ (none : Option (ℤ × ℤ)), 0 ≤ ratio.1 ∧ 0 < ratio.2 := by simp

/-- A change of a series to a multiplier. -/
def seriesChange (scopeRef : String) (hscope : Text.isBlank scopeRef = false) (multiplier : ℕ)
    (artifact : Option ArchivedArtifact) : FeeChange where
  identity := "change"
  scopeRef := scopeRef
  scheduledTs := moment.instant
  feeType := some "quadratic"
  multiplier := some (multiplier, 1)
  feeTypeOverride := none
  multiplierOverride := none
  explicitClear := false
  artifact := artifact
  identity_nonblank := by decide
  scopeRef_nonblank := hscope
  multiplier_valid := by simp
  override_valid := no_override
  cleared := by simp
  feeType_nonblank := by decide
  feeTypeOverride_nonblank := by simp

/-- A change of the series of the market. -/
def ownChange (multiplier : ℕ) : FeeChange := seriesChange "KXRAIN" (by decide) multiplier none

/-- A change of another series, read in time but of a later time. -/
def foreignChange : FeeChange :=
  seriesChange "KXSNOW" (by decide) 2 (some (archived (some (moment.instant + 1))))

theorem sameApplicable : SameApplicable feeRequest [ownChange 2] [ownChange 2, foreignChange] [] [] :=
  ⟨.of_eq rfl, .of_eq rfl⟩

/-- The resolver with the change of another series, and without it. -/
theorem feeResolver_reads_applicable :
    feeVerdict ((feeResolver 0).resolve feeReadings feeRequest [ownChange 2] []) = .priced
      ⟨"quadratic", (2, 1), none, none, false, false, some (7, 100)⟩ ∧
    ∀ economics economics',
      feeVerdict ((feeResolver 0).resolve feeReadings feeRequest [ownChange 2] []) =
        .priced economics →
      feeVerdict ((feeResolver 0).resolve feeReadings feeRequest [ownChange 2, foreignChange] []) =
        .priced economics' →
      economics = economics' :=
  ⟨by decide +kernel, (FeePolicyResolver.resolve_reads_applicable feeReadings (feeResolver 0)
    feeRequest [ownChange 2] [ownChange 2, foreignChange] [] [] sameApplicable).1⟩

/-- Two changes of the series of the market that disagree do not raise before the schedule is in
force; and a change of another series that was observed by the cutoff closes the market. -/
theorem feeChanges_unread :
    (Conflicted [ownChange 1, ownChange 2] feeRequest.asOf.instant feeRequest.seriesRef ∧
      feeVerdict ((feeResolver (moment.instant + 1)).resolve feeReadings feeRequest
        [ownChange 1, ownChange 2] []) = .closed .unavailable (some .feePolicyUnavailable)) ∧
    foreignChange.artifact.all (fun artifact =>
      artifact.observedAt.any (decide <| · ≤ feeRequest.cutoff.instant)) = true ∧
    foreignChange.applies feeRequest.asOf.instant feeRequest.seriesRef = false ∧
    feeVerdict ((feeResolver 0).resolve feeReadings feeRequest [ownChange 2] []) = .priced
      ⟨"quadratic", (2, 1), none, none, false, false, some (7, 100)⟩ ∧
    feeVerdict ((feeResolver 0).resolve feeReadings feeRequest [ownChange 2, foreignChange] []) =
      .closed .invalid (some .feePolicyInvalid) := by
  refine ⟨⟨⟨ownChange 1, by simp, ownChange 2, by simp, ?_⟩, ?_⟩, ?_, ?_, ?_, ?_⟩
  · decide +kernel
  · decide +kernel
  · decide +kernel
  · decide +kernel
  · decide +kernel
  · decide +kernel

end Sample

end VTrade
