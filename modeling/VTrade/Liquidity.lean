/-
# The best-level haircut

An order is executed against the five levels after the best one, and only when
these hold at least half of what the six hold together.  The levels, what was
ignored of them and what fills consumed is kept as an audit that checks its own
totals.
-/

import Mathlib.Algebra.Order.BigOperators.Group.List
import VTrade.Domain.Market
import VTrade.Lib.KeyedList

namespace VTrade

def liquidityHaircutContractVersion : String := "best-level-haircut-v1"

structure HaircutLevelAuditFields where
  levelIndex : ℤ
  priceMicros : ℤ
  rawQuantityUnits : ℤ
  ignoredQuantityUnits : ℤ
  effectiveQuantityUnits : ℤ
  consumedQuantityUnits : ℤ := 0
  cancelledQuantityUnits : ℤ := 0
  deriving DecidableEq

def HaircutLevelAuditFields.postInit (level : HaircutLevelAuditFields) : Except Raised Unit :=
  Checks.raiseFirst [
    (level.levelIndex < 0, .valueError "haircut level index cannot be negative"),
    (level.rawQuantityUnits < 0 ∨ level.ignoredQuantityUnits < 0 ∨
        level.effectiveQuantityUnits < 0 ∨ level.consumedQuantityUnits < 0 ∨
        level.cancelledQuantityUnits < 0,
      .valueError "haircut quantities must be non-negative integers"),
    (level.rawQuantityUnits ≤ 0, .valueError "raw haircut levels must be positive"),
    (level.ignoredQuantityUnits > level.rawQuantityUnits,
      .valueError "ignored quantity exceeds raw quantity"),
    (level.effectiveQuantityUnits ≠ level.rawQuantityUnits - level.ignoredQuantityUnits,
      .valueError "effective quantity does not match raw less ignored"),
    (level.consumedQuantityUnits > level.effectiveQuantityUnits,
      .valueError "consumed quantity exceeds effective quantity")]

structure HaircutLevelAudit extends HaircutLevelAuditFields where
  valid : toHaircutLevelAuditFields.postInit = .ok ()
  deriving DecidableEq

namespace HaircutLevelAudit

def make (fields : HaircutLevelAuditFields) : Except Raised HaircutLevelAudit :=
  Checks.build fields.postInit fun h => ⟨fields, h⟩

/-- What fills have left of the effective quantity. -/
def remainingQuantityUnits (level : HaircutLevelAudit) : ℤ :=
  level.effectiveQuantityUnits - level.consumedQuantityUnits

theorem make_eq_ok_iff {fields : HaircutLevelAuditFields} {level : HaircutLevelAudit} :
    make fields = .ok level ↔ level.toHaircutLevelAuditFields = fields :=
  Checks.build_fields_eq_ok_iff HaircutLevelAuditFields.postInit mk toHaircutLevelAuditFields (fun _ _ => rfl)
    fun level => ⟨level.valid, rfl⟩

theorem make_eq_ok {fields : HaircutLevelAuditFields} (h : fields.postInit = .ok ()) :
    make fields = .ok ⟨fields, h⟩ := Checks.build_eq_ok h _

theorem postInit_eq_ok_iff {fields : HaircutLevelAuditFields} :
    fields.postInit = .ok () ↔ 0 ≤ fields.levelIndex ∧ 0 < fields.rawQuantityUnits ∧
      0 ≤ fields.ignoredQuantityUnits ∧ fields.ignoredQuantityUnits ≤ fields.rawQuantityUnits ∧
      fields.effectiveQuantityUnits = fields.rawQuantityUnits - fields.ignoredQuantityUnits ∧
      0 ≤ fields.consumedQuantityUnits ∧
      fields.consumedQuantityUnits ≤ fields.effectiveQuantityUnits ∧
      0 ≤ fields.cancelledQuantityUnits := by
  simp only [HaircutLevelAuditFields.postInit, Checks.raiseFirst_cons_eq_ok,
    Checks.raiseFirst_nil, decide_eq_false_iff_not, not_or, not_lt, not_le, not_not, and_true,
    ne_eq, gt_iff_lt]
  omega

end HaircutLevelAudit

structure HaircutAuditFields where
  marketRef : String
  outcome : OutcomeSide
  action : Side
  ruleVersion : String
  rawQuantityUnits : ℤ
  ignoredQuantityUnits : ℤ
  effectiveQuantityUnits : ℤ
  consumedQuantityUnits : ℤ
  cancelledQuantityUnits : ℤ
  remainingQuantityUnits : ℤ
  levels : List HaircutLevelAudit
  capturedLevelCount : ℕ
  effectiveLevelCount : ℕ
  deriving DecidableEq

def HaircutAuditFields.postInit (audit : HaircutAuditFields) : Except Raised Unit :=
  Checks.raiseFirst [
    (audit.ruleVersion ≠ liquidityHaircutContractVersion,
      .valueError "unsupported liquidity haircut rule"),
    (audit.marketRef = "", .valueError "haircut market_ref is required"),
    (audit.rawQuantityUnits < 0 ∨ audit.ignoredQuantityUnits < 0 ∨
        audit.effectiveQuantityUnits < 0 ∨ audit.consumedQuantityUnits < 0 ∨
        audit.cancelledQuantityUnits < 0 ∨ audit.remainingQuantityUnits < 0,
      .valueError "haircut totals cannot be negative"),
    (audit.ignoredQuantityUnits + audit.effectiveQuantityUnits ≠ audit.rawQuantityUnits,
      .valueError "haircut raw/ignored/effective totals are inconsistent"),
    (audit.consumedQuantityUnits + audit.remainingQuantityUnits ≠ audit.effectiveQuantityUnits,
      .valueError "haircut consumed/remaining totals are inconsistent"),
    ((audit.levels.map fun level => level.rawQuantityUnits).sum ≠ audit.rawQuantityUnits,
      .valueError "haircut raw levels do not match the raw total"),
    ((audit.levels.map fun level => level.ignoredQuantityUnits).sum ≠ audit.ignoredQuantityUnits,
      .valueError "haircut ignored levels do not match the ignored total"),
    ((audit.levels.map fun level => level.effectiveQuantityUnits).sum ≠
        audit.effectiveQuantityUnits,
      .valueError "haircut effective levels do not match the effective total"),
    ((audit.levels.map fun level => level.consumedQuantityUnits).sum ≠
        audit.consumedQuantityUnits,
      .valueError "haircut consumed levels do not match the consumed total")]

structure HaircutAudit extends HaircutAuditFields where
  valid : toHaircutAuditFields.postInit = .ok ()
  deriving DecidableEq

namespace HaircutAudit

def make (fields : HaircutAuditFields) : Except Raised HaircutAudit :=
  Checks.build fields.postInit fun h => ⟨fields, h⟩

theorem make_eq_ok_iff {fields : HaircutAuditFields} {audit : HaircutAudit} :
    make fields = .ok audit ↔ audit.toHaircutAuditFields = fields :=
  Checks.build_fields_eq_ok_iff HaircutAuditFields.postInit mk toHaircutAuditFields (fun _ _ => rfl)
    fun audit => ⟨audit.valid, rfl⟩

theorem make_eq_ok {fields : HaircutAuditFields} (h : fields.postInit = .ok ()) :
    make fields = .ok ⟨fields, h⟩ := Checks.build_eq_ok h _

theorem postInit_eq_ok_iff {fields : HaircutAuditFields} :
    fields.postInit = .ok () ↔ fields.ruleVersion = liquidityHaircutContractVersion ∧
      fields.marketRef ≠ "" ∧ 0 ≤ fields.ignoredQuantityUnits ∧
      0 ≤ fields.effectiveQuantityUnits ∧ 0 ≤ fields.consumedQuantityUnits ∧
      0 ≤ fields.cancelledQuantityUnits ∧ 0 ≤ fields.remainingQuantityUnits ∧
      fields.ignoredQuantityUnits + fields.effectiveQuantityUnits = fields.rawQuantityUnits ∧
      fields.consumedQuantityUnits + fields.remainingQuantityUnits =
        fields.effectiveQuantityUnits ∧
      (fields.levels.map fun level => level.rawQuantityUnits).sum = fields.rawQuantityUnits ∧
      (fields.levels.map fun level => level.ignoredQuantityUnits).sum =
        fields.ignoredQuantityUnits ∧
      (fields.levels.map fun level => level.effectiveQuantityUnits).sum =
        fields.effectiveQuantityUnits ∧
      (fields.levels.map fun level => level.consumedQuantityUnits).sum =
        fields.consumedQuantityUnits := by
  simp only [HaircutAuditFields.postInit, Checks.raiseFirst_cons_eq_ok, Checks.raiseFirst_nil,
    decide_eq_false_iff_not, not_or, not_lt, not_not, and_true, ne_eq]
  refine and_congr_right fun _ => and_congr_right fun _ => ?_
  omega

/-- What fills consume of the level of an index: `consumed_by_level.get(index, 0)`. -/
def consumedAt (consumedByLevel : List (ℤ × ℤ)) (levelIndex : ℤ) : ℤ :=
  ((KeyedList.lookup Prod.fst levelIndex consumedByLevel).map Prod.snd).getD 0

/-- The level with what fills consumed of it. -/
def filledLevel (consumedByLevel : List (ℤ × ℤ)) (level : HaircutLevelAudit) :
    HaircutLevelAuditFields where
  levelIndex := level.levelIndex
  priceMicros := level.priceMicros
  rawQuantityUnits := level.rawQuantityUnits
  ignoredQuantityUnits := level.ignoredQuantityUnits
  effectiveQuantityUnits := level.effectiveQuantityUnits
  consumedQuantityUnits := consumedAt consumedByLevel level.levelIndex

def levelAfterFills (consumedByLevel : List (ℤ × ℤ)) (level : HaircutLevelAudit) :
    Except Raised HaircutLevelAudit :=
  let consumed := consumedAt consumedByLevel level.levelIndex
  if consumed < 0 ∨ consumed > level.effectiveQuantityUnits then
    .error (.liquidityEvidenceError "fill exceeds effective haircut depth")
  else HaircutLevelAudit.make (filledLevel consumedByLevel level)

def afterFills (audit : HaircutAudit) (consumedByLevel : List (ℤ × ℤ))
    (requestedQuantityUnits : ℤ) : Except Raised HaircutAudit :=
  if requestedQuantityUnits < 0 then
    .error (.valueError "requested haircut quantity cannot be negative")
  else do
    let updated ← audit.levels.mapM (levelAfterFills consumedByLevel)
    let consumedTotal := (updated.map fun item => item.consumedQuantityUnits).sum
    if consumedTotal > requestedQuantityUnits then
      .error (.liquidityEvidenceError "fills exceed requested quantity")
    else
      make {
        marketRef := audit.marketRef
        outcome := audit.outcome
        action := audit.action
        ruleVersion := audit.ruleVersion
        rawQuantityUnits := audit.rawQuantityUnits
        ignoredQuantityUnits := audit.ignoredQuantityUnits
        effectiveQuantityUnits := audit.effectiveQuantityUnits
        consumedQuantityUnits := consumedTotal
        cancelledQuantityUnits := requestedQuantityUnits - consumedTotal
        remainingQuantityUnits := audit.effectiveQuantityUnits - consumedTotal
        levels := updated
        capturedLevelCount := audit.capturedLevelCount
        effectiveLevelCount := audit.effectiveLevelCount }

/-- A level takes fills that consume no more than its effective quantity. -/
theorem levelAfterFills_eq_ok_iff {consumedByLevel : List (ℤ × ℤ)}
    {level updated : HaircutLevelAudit} :
    levelAfterFills consumedByLevel level = .ok updated ↔
      (0 ≤ consumedAt consumedByLevel level.levelIndex ∧
        consumedAt consumedByLevel level.levelIndex ≤ level.effectiveQuantityUnits) ∧
      updated.toHaircutLevelAuditFields = filledLevel consumedByLevel level := by
  unfold levelAfterFills
  simp only
  split
  next hbad =>
    constructor
    · intro h
      cases h
    · omega
  next hfits =>
    rw [HaircutLevelAudit.make_eq_ok_iff, iff_and_self]
    omega

theorem filledLevel_valid {consumedByLevel : List (ℤ × ℤ)} {level : HaircutLevelAudit}
    (hnonneg : 0 ≤ consumedAt consumedByLevel level.levelIndex)
    (hle : consumedAt consumedByLevel level.levelIndex ≤ level.effectiveQuantityUnits) :
    (filledLevel consumedByLevel level).postInit = .ok () := by
  have hlevel := HaircutLevelAudit.postInit_eq_ok_iff.mp level.valid
  rw [HaircutLevelAudit.postInit_eq_ok_iff]
  simp only [filledLevel]
  omega

/-- The audit takes fills that consume of every level no more than its effective
quantity, and in total no more than the order is for and the levels have. -/
theorem afterFills_isOk {audit : HaircutAudit} {consumedByLevel : List (ℤ × ℤ)}
    {requestedQuantityUnits : ℤ}
    (hlevels : ∀ level ∈ audit.levels, 0 ≤ consumedAt consumedByLevel level.levelIndex ∧
      consumedAt consumedByLevel level.levelIndex ≤ level.effectiveQuantityUnits)
    (hrequested : (audit.levels.map fun level =>
      consumedAt consumedByLevel level.levelIndex).sum ≤ requestedQuantityUnits)
    (heffective : (audit.levels.map fun level =>
      consumedAt consumedByLevel level.levelIndex).sum ≤ audit.effectiveQuantityUnits) :
    ∃ updated, audit.afterFills consumedByLevel requestedQuantityUnits = .ok updated := by
  obtain ⟨updated, hupdated⟩ := Checks.mapM_isOk_iff.mpr fun level hmem =>
    ⟨_, levelAfterFills_eq_ok_iff.mpr ⟨hlevels level hmem,
      HaircutLevelAudit.make_eq_ok_iff.mp (HaircutLevelAudit.make_eq_ok
        (filledLevel_valid (hlevels level hmem).1 (hlevels level hmem).2))⟩⟩
  have hfilled : updated.map HaircutLevelAudit.toHaircutLevelAuditFields =
      audit.levels.map (filledLevel consumedByLevel) := by
    rw [← List.forall₂_eq_eq_eq, List.forall₂_map_left_iff, List.forall₂_map_right_iff]
    exact ((Checks.mapM_eq_ok_iff.mp hupdated).imp fun _ _ h =>
      (levelAfterFills_eq_ok_iff.mp h).2).flip
  have hfield (field : HaircutLevelAuditFields → ℤ) :
      (updated.map fun level => field level.toHaircutLevelAuditFields).sum =
        (audit.levels.map fun level => field (filledLevel consumedByLevel level)).sum := by
    have := congrArg (fun fields => (fields.map field).sum) hfilled
    simpa only [List.map_map, Function.comp_def] using this
  have hconsumed := hfield fun fields => fields.consumedQuantityUnits
  have hnonneg : 0 ≤ (audit.levels.map fun level =>
      consumedAt consumedByLevel level.levelIndex).sum :=
    List.sum_nonneg fun units hmem => by
      obtain ⟨level, hlevel, rfl⟩ := List.mem_map.mp hmem
      exact (hlevels level hlevel).1
  obtain ⟨hversion, hmarket, hignored, -, -, -, -, htotal, -, hraw, hignored', heffective', -⟩ :=
    postInit_eq_ok_iff.mp audit.valid
  unfold afterFills
  rw [if_neg (by omega)]
  simp only [bind, Except.bind, hupdated]
  rw [if_neg (by rw [hconsumed]; exact not_lt.mpr hrequested)]
  have hvalid : ({
      marketRef := audit.marketRef
      outcome := audit.outcome
      action := audit.action
      ruleVersion := audit.ruleVersion
      rawQuantityUnits := audit.rawQuantityUnits
      ignoredQuantityUnits := audit.ignoredQuantityUnits
      effectiveQuantityUnits := audit.effectiveQuantityUnits
      consumedQuantityUnits := (updated.map fun item => item.consumedQuantityUnits).sum
      cancelledQuantityUnits := requestedQuantityUnits -
        (updated.map fun item => item.consumedQuantityUnits).sum
      remainingQuantityUnits := audit.effectiveQuantityUnits -
        (updated.map fun item => item.consumedQuantityUnits).sum
      levels := updated
      capturedLevelCount := audit.capturedLevelCount
      effectiveLevelCount := audit.effectiveLevelCount } : HaircutAuditFields).postInit = .ok () := by
    rw [hconsumed]
    exact postInit_eq_ok_iff.mpr ⟨hversion, hmarket, hignored, hnonneg.trans heffective, hnonneg,
      sub_nonneg.mpr hrequested, sub_nonneg.mpr heffective, htotal, add_sub_cancel _ _,
      (hfield fun fields => fields.rawQuantityUnits).trans hraw,
      (hfield fun fields => fields.ignoredQuantityUnits).trans hignored',
      (hfield fun fields => fields.effectiveQuantityUnits).trans heffective', hconsumed⟩
  exact ⟨_, make_eq_ok hvalid⟩

end HaircutAudit

/-- The audit of a captured level: the best one is ignored, every other one is
effective. -/
def capturedLevelAudit (level : CanonicalLevel) (index : ℕ) : HaircutLevelAuditFields where
  levelIndex := index
  priceMicros := level.price
  rawQuantityUnits := level.quantity
  ignoredQuantityUnits := if index = 0 then level.quantity else 0
  effectiveQuantityUnits := if index = 0 then 0 else level.quantity

/-- Expose the next five levels after ignoring the best captured level. -/
def applyBestLevelHaircut (orderBook : CanonicalOrderBook) (outcome : OutcomeSide)
    (action : Side) : Except Raised (List CanonicalLevel × HaircutAudit) :=
  let source := if action = .buy then orderBook.asks outcome else orderBook.bids outcome
  match source.take 6 with
  | [] => .error (.liquidityEvidenceError "order book side has no captured liquidity")
  | best :: effective =>
      let rawTotal := ((best :: effective).map fun level => level.quantity).sum
      let ignored := best.quantity
      let effectiveTotal := (effective.map fun level => level.quantity).sum
      if ignored * 2 > rawTotal then
        .error (.liquidityEvidenceError
          "ignored best-level depth would violate the 50% retained floor")
      else if effectiveTotal * 2 < rawTotal then
        .error (.liquidityEvidenceError "captured tail does not retain at least 50% of raw depth")
      else do
        let levels ← (best :: effective).zipIdx.mapM fun captured =>
          HaircutLevelAudit.make (capturedLevelAudit captured.1 captured.2)
        let audit ← HaircutAudit.make {
          marketRef := orderBook.marketKey.marketRef
          outcome := outcome
          action := action
          ruleVersion := liquidityHaircutContractVersion
          rawQuantityUnits := rawTotal
          ignoredQuantityUnits := ignored
          effectiveQuantityUnits := effectiveTotal
          consumedQuantityUnits := 0
          cancelledQuantityUnits := 0
          remainingQuantityUnits := effectiveTotal
          levels := levels
          capturedLevelCount := (best :: effective).length
          effectiveLevelCount := effective.length }
        .ok (effective, audit)

theorem capturedLevelAudit_valid (level : CanonicalLevel) (index : ℕ) :
    (capturedLevelAudit level index).postInit = .ok () := by
  have := level.quantity_pos
  rw [HaircutLevelAudit.postInit_eq_ok_iff]
  simp only [capturedLevelAudit]
  split <;> omega

/-- After the best level every level is effective. -/
theorem sum_capturedLevelAudit (levels : List CanonicalLevel) (index : ℕ) :
    ((levels.zipIdx (index + 1)).map fun captured =>
        (capturedLevelAudit captured.1 captured.2).ignoredQuantityUnits).sum = 0 ∧
      ((levels.zipIdx (index + 1)).map fun captured =>
        (capturedLevelAudit captured.1 captured.2).effectiveQuantityUnits).sum =
          (levels.map fun level => level.quantity).sum := by
  induction levels generalizing index with
  | nil => exact ⟨rfl, rfl⟩
  | cons level rest ih =>
      obtain ⟨hignored, heffective⟩ := ih (index + 1)
      rw [List.zipIdx_cons, List.map_cons, List.sum_cons, List.map_cons, List.sum_cons, hignored,
        heffective]
      simp [capturedLevelAudit]

theorem sum_quantity_nonneg (levels : List CanonicalLevel) :
    0 ≤ (levels.map fun level => level.quantity).sum :=
  List.sum_nonneg fun quantity hmem => by
    obtain ⟨level, -, rfl⟩ := List.mem_map.mp hmem
    exact level.quantity_pos.le

/-- The totals of the audits of captured levels. -/
theorem sums_of_captured {best : CanonicalLevel} {effective : List CanonicalLevel}
    {levels : List HaircutLevelAudit}
    (h : levels.map HaircutLevelAudit.toHaircutLevelAuditFields =
      (best :: effective).zipIdx.map fun captured => capturedLevelAudit captured.1 captured.2) :
    (levels.map fun level => level.rawQuantityUnits).sum =
        ((best :: effective).map fun level => level.quantity).sum ∧
      (levels.map fun level => level.ignoredQuantityUnits).sum = best.quantity ∧
      (levels.map fun level => level.effectiveQuantityUnits).sum =
        (effective.map fun level => level.quantity).sum ∧
      (levels.map fun level => level.consumedQuantityUnits).sum = 0 := by
  have hfield (field : HaircutLevelAuditFields → ℤ) :
      (levels.map fun level => field level.toHaircutLevelAuditFields).sum =
        ((best :: effective).zipIdx.map fun captured =>
          field (capturedLevelAudit captured.1 captured.2)).sum := by
    have := congrArg (fun fields => (fields.map field).sum) h
    simpa only [List.map_map, Function.comp_def] using this
  obtain ⟨hignored, heffective⟩ := sum_capturedLevelAudit effective 0
  refine ⟨(hfield fun fields => fields.rawQuantityUnits).trans ?_,
    (hfield fun fields => fields.ignoredQuantityUnits).trans ?_,
    (hfield fun fields => fields.effectiveQuantityUnits).trans ?_,
    (hfield fun fields => fields.consumedQuantityUnits).trans ?_⟩
  · have hraw : (best :: effective).zipIdx.map (fun captured => captured.1.quantity) =
        (best :: effective).map fun level => level.quantity := by
      conv_rhs => rw [← List.zipIdx_map_fst 0 (best :: effective), List.map_map]
      rfl
    exact congrArg List.sum hraw
  · rw [List.zipIdx_cons, List.map_cons, List.sum_cons, hignored]
    simp [capturedLevelAudit]
  · rw [List.zipIdx_cons, List.map_cons, List.sum_cons, heffective]
    simp [capturedLevelAudit]
  · simp [capturedLevelAudit]

/-- What a haircut leaves: the audit has the best level and the levels that are
left, and nothing of them is consumed yet. -/
structure HaircutTaken (best : CanonicalLevel) (levels : List CanonicalLevel)
    (audit : HaircutAudit) : Prop where
  captured : audit.levels.map HaircutLevelAudit.toHaircutLevelAuditFields =
    (best :: levels).zipIdx.map fun captured => capturedLevelAudit captured.1 captured.2
  effective : audit.effectiveQuantityUnits = (levels.map fun level => level.quantity).sum

/-- The haircut raises a lack of evidence, or leaves levels with their audit. -/
theorem applyBestLevelHaircut_cases (orderBook : CanonicalOrderBook) (outcome : OutcomeSide)
    (action : Side) :
    (∃ message, applyBestLevelHaircut orderBook outcome action =
        .error (.liquidityEvidenceError message)) ∨
      ∃ best levels audit, applyBestLevelHaircut orderBook outcome action = .ok (levels, audit) ∧
        HaircutTaken best levels audit := by
  unfold applyBestLevelHaircut
  simp only
  split
  next => exact Or.inl ⟨_, rfl⟩
  next best effective hcaptured =>
    split
    · exact Or.inl ⟨_, rfl⟩
    · split
      · exact Or.inl ⟨_, rfl⟩
      · right
        obtain ⟨levels, hlevels⟩ : ∃ levels, (best :: effective).zipIdx.mapM (fun captured =>
            HaircutLevelAudit.make (capturedLevelAudit captured.1 captured.2)) = .ok levels :=
          Checks.mapM_isOk_iff.mpr fun captured _ =>
            ⟨_, HaircutLevelAudit.make_eq_ok (capturedLevelAudit_valid captured.1 captured.2)⟩
        have hcaptured : levels.map HaircutLevelAudit.toHaircutLevelAuditFields =
            (best :: effective).zipIdx.map fun captured =>
              capturedLevelAudit captured.1 captured.2 := by
          rw [← Checks.mapM_build_eq_ok_iff HaircutLevelAudit.make_eq_ok_iff, List.mapM_map]
          exact hlevels
        obtain ⟨hraw, hignored, heffective, hconsumed⟩ := sums_of_captured hcaptured
        obtain ⟨audit, haudit⟩ : ∃ audit, HaircutAudit.make {
            marketRef := orderBook.marketKey.marketRef
            outcome := outcome
            action := action
            ruleVersion := liquidityHaircutContractVersion
            rawQuantityUnits := ((best :: effective).map fun level => level.quantity).sum
            ignoredQuantityUnits := best.quantity
            effectiveQuantityUnits := (effective.map fun level => level.quantity).sum
            consumedQuantityUnits := 0
            cancelledQuantityUnits := 0
            remainingQuantityUnits := (effective.map fun level => level.quantity).sum
            levels := levels
            capturedLevelCount := (best :: effective).length
            effectiveLevelCount := effective.length } = .ok audit :=
          ⟨_, HaircutAudit.make_eq_ok (HaircutAudit.postInit_eq_ok_iff.mpr
            ⟨rfl, Text.ne_empty_of_not_isBlank orderBook.marketKey.nonblank,
              best.quantity_pos.le, sum_quantity_nonneg effective, le_refl 0, le_refl 0,
              sum_quantity_nonneg effective, rfl, zero_add _, hraw, hignored, heffective,
              hconsumed⟩)⟩
        refine ⟨best, effective, audit, Checks.bind_eq_ok.mpr ⟨levels, hlevels,
          Checks.bind_eq_ok.mpr ⟨audit, haudit, rfl⟩⟩, ?_, ?_⟩
        · rw [HaircutAudit.make_eq_ok_iff.mp haudit]
          exact hcaptured
        · rw [HaircutAudit.make_eq_ok_iff.mp haudit]

/-- The side of a book that an order is executed against. -/
def CanonicalOrderBook.executedSide (book : CanonicalOrderBook) (outcome : OutcomeSide)
    (action : Side) : List CanonicalLevel :=
  if action = .buy then book.asks outcome else book.bids outcome

/-- How an audit counts the levels of the side it is about, and how much of them it
ignores. -/
structure HaircutAuditFields.CountsLevels (audit : HaircutAuditFields)
    (side : List CanonicalLevel) : Prop where
  captured : audit.capturedLevelCount = min 6 side.length
  effective : audit.effectiveLevelCount + 1 = audit.capturedLevelCount
  retained : audit.ignoredQuantityUnits * 2 ≤ audit.rawQuantityUnits

/-- A haircut captures up to six levels and leaves all but the best of them. -/
theorem applyBestLevelHaircut_countsLevels {orderBook : CanonicalOrderBook}
    {outcome : OutcomeSide} {action : Side} {levels : List CanonicalLevel} {audit : HaircutAudit}
    (h : applyBestLevelHaircut orderBook outcome action = .ok (levels, audit)) :
    audit.CountsLevels (orderBook.executedSide outcome action) ∧
      audit.effectiveLevelCount = levels.length := by
  unfold applyBestLevelHaircut at h
  simp only at h
  split at h
  next => cases h
  next best effective hcaptured =>
    have hlength : (best :: effective).length =
        min 6 (orderBook.executedSide outcome action).length := by
      rw [← hcaptured, List.length_take]
      rfl
    obtain ⟨hretained, h⟩ := Checks.ite_error_eq_ok.mp h
    obtain ⟨-, h⟩ := Checks.ite_error_eq_ok.mp h
    obtain ⟨audits, -, h⟩ := Checks.bind_eq_ok.mp h
    obtain ⟨audit', haudit, h⟩ := Checks.bind_eq_ok.mp h
    cases h
    rw [HaircutAudit.make_eq_ok_iff.mp haudit]
    exact ⟨⟨hlength, rfl, not_lt.mp hretained⟩, rfl⟩

/-- Fills change nothing of what an audit counts. -/
theorem HaircutAudit.afterFills_countsLevels {audit updated : HaircutAudit}
    {consumedByLevel : List (ℤ × ℤ)} {requestedQuantityUnits : ℤ} {side : List CanonicalLevel}
    (h : audit.afterFills consumedByLevel requestedQuantityUnits = .ok updated)
    (hcounts : audit.CountsLevels side) : updated.CountsLevels side := by
  obtain ⟨-, h⟩ := Checks.ite_error_eq_ok.mp h
  obtain ⟨levels, -, h⟩ := Checks.bind_eq_ok.mp h
  obtain ⟨-, h⟩ := Checks.ite_error_eq_ok.mp h
  rw [HaircutAudit.make_eq_ok_iff.mp h]
  exact ⟨hcounts.captured, hcounts.effective, hcounts.retained⟩

end VTrade
