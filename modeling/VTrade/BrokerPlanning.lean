/-
# What the broker plans

A plan takes from some levels, in order, a positive number of units that the
level has.  Planning makes such a plan for no more units than asked for, trimming
keeps it one, and the haircut audit accepts what it consumes.  None of the steps
raises.
-/

import VTrade.Broker

namespace VTrade

/-- A plan takes positive quantities of levels in order, each at most once.  Levels
are counted from `index`. -/
inductive PlansFrom : ℕ → List PlannedFill → List CanonicalLevel → Prop
  | done {index : ℕ} {levels : List CanonicalLevel} : PlansFrom index [] levels
  | skip {index : ℕ} {planned : List PlannedFill} {level : CanonicalLevel}
      {rest : List CanonicalLevel} (h : PlansFrom (index + 1) planned rest) :
      PlansFrom index planned (level :: rest)
  | take {index : ℕ} {item : PlannedFill} {planned : List PlannedFill} {level : CanonicalLevel}
      {rest : List CanonicalLevel} (position : item.levelIndex = index + 1)
      (price : item.priceMicros = level.price) (positive : 0 < item.contractUnits)
      (available : item.contractUnits ≤ level.quantity) (h : PlansFrom (index + 1) planned rest) :
      PlansFrom index (item :: planned) (level :: rest)

namespace PlansFrom

variable {index : ℕ} {planned front kept : List PlannedFill} {original : PlannedFill}
  {levels : List CanonicalLevel}

/-- Every fill of a plan can be charged for. -/
theorem chargeable (h : PlansFrom index planned levels) :
    ∀ item ∈ planned, Chargeable (item.contractUnits, item.priceMicros) := by
  induction h with
  | done => simp
  | skip _ ih => exact ih
  | @take _ item _ level _ _ price positive _ _ ih =>
      rw [List.forall_mem_cons]
      refine ⟨⟨positive, ?_⟩, ih⟩
      simp only [price]
      exact level.price_range

/-- A plan stays one when a fill gets fewer units, or none. -/
theorem resize (h : PlansFrom index (front ++ original :: kept) levels) {contractUnits : ℤ}
    (hnonneg : 0 ≤ contractUnits) (hle : contractUnits ≤ original.contractUnits) :
    PlansFrom index (front ++ original.resized contractUnits ++ kept) levels := by
  generalize hall : front ++ original :: kept = all at h
  induction h generalizing front with
  | done => simp at hall
  | skip _ ih => exact .skip (ih hall)
  | @take index item planned level rest position price positive available hrest ih =>
      cases front with
      | nil =>
          rw [List.nil_append, List.cons.injEq] at hall
          obtain ⟨rfl, rfl⟩ := hall
          unfold PlannedFill.resized
          split
          · exact .take position price (by simp only; omega) (hle.trans available) hrest
          · exact .skip hrest
      | cons first front =>
          rw [List.cons_append, List.cons.injEq] at hall
          obtain ⟨rfl, hall⟩ := hall
          exact .take position price positive available (ih hall)

/-- The fills of a plan lie above the index. -/
theorem index_lt (h : PlansFrom index planned levels) :
    ∀ item ∈ planned, (index : ℤ) < item.levelIndex := by
  induction h with
  | done => simp
  | skip _ ih =>
      intro item hmem
      have := ih item hmem
      push_cast at this
      omega
  | take position _ _ _ _ ih =>
      rw [List.forall_mem_cons]
      refine ⟨by omega, fun item hmem => ?_⟩
      have := ih item hmem
      push_cast at this
      omega

/-- A plan takes every level at most once. -/
theorem nodup_levelIndex (h : PlansFrom index planned levels) :
    (planned.map fun item => item.levelIndex).Nodup := by
  induction h with
  | done => simp
  | skip _ ih => exact ih
  | take position _ _ _ hrest ih =>
      rw [List.map_cons, List.nodup_cons]
      refine ⟨fun hmem => ?_, ih⟩
      obtain ⟨other, hother, hsame⟩ := List.mem_map.mp hmem
      have := hrest.index_lt other hother
      push_cast at this
      omega

end PlansFrom

/-! ## Planning -/

theorem levelQuantity_le (request : OrderRequest) (remaining : Option ℤ) (cashRemaining : ℤ)
    (level : CanonicalLevel) :
    levelQuantity request remaining cashRemaining level ≤ level.quantity ∧
      ∀ units ∈ remaining, levelQuantity request remaining cashRemaining level ≤ units := by
  unfold levelQuantity
  cases remaining with
  | none => simp only [Option.elim_none, Option.not_mem_none]; split <;> simp
  | some units =>
      simp only [Option.elim_some, Option.mem_some_iff, forall_eq']
      split <;> omega

/-- Planning gives a plan of the levels for no more units than remain. -/
theorem planLevels_isOk (request : OrderRequest) (index : ℕ) (remaining : Option ℤ)
    (cashRemaining : ℤ) (levels : List CanonicalLevel) (hremaining : ∀ units ∈ remaining, 0 ≤ units) :
    ∃ planned, planLevels request index remaining cashRemaining levels = .ok planned ∧
      PlansFrom index planned levels ∧ ∀ units ∈ remaining, plannedUnits planned ≤ units := by
  induction levels generalizing index remaining cashRemaining with
  | nil => exact ⟨[], rfl, .done, by simpa [plannedUnits] using hremaining⟩
  | cons level rest ih =>
      unfold planLevels
      simp only
      split
      next =>
        obtain ⟨planned, hplanned, hplans, hunits⟩ := ih (index + 1) remaining cashRemaining hremaining
        exact ⟨planned, hplanned, .skip hplans, hunits⟩
      next htaken =>
        obtain ⟨hlevel, hmost⟩ := levelQuantity_le request remaining cashRemaining level
        generalize levelQuantity request remaining cashRemaining level = quantity at *
        have hpositive : 0 < quantity := by omega
        obtain ⟨spent, hspent⟩ : ∃ spent, spentOnLevel request quantity level = .ok spent := by
          unfold spentOnLevel
          split
          · obtain ⟨gross, hgross, -⟩ := grossCashMicros_isOk ⟨hpositive, level.price_range⟩
            exact ⟨gross, hgross⟩
          · exact ⟨0, rfl⟩
        have hleft : ∀ units ∈ remaining.map (· - quantity), 0 ≤ units := by
          intro units hmem
          obtain ⟨before, hbefore, rfl⟩ := Option.mem_map.mp hmem
          exact sub_nonneg.mpr (hmost before hbefore)
        -- The loop ends when nothing remains, and goes on otherwise.
        obtain ⟨later, hlater, hplans, hunits⟩ : ∃ later,
            (if remaining.map (· - quantity) = some 0 then .ok [⟨index + 1, level.price, quantity⟩]
              else do
                let later ← planLevels request (index + 1) (remaining.map (· - quantity))
                  (cashRemaining - spent) rest
                .ok (⟨index + 1, level.price, quantity⟩ :: later)) =
              (.ok (⟨index + 1, level.price, quantity⟩ :: later) :
                Except Raised (List PlannedFill)) ∧
            PlansFrom (index + 1) later rest ∧
            ∀ units ∈ remaining.map (· - quantity), plannedUnits later ≤ units := by
          split
          · exact ⟨[], rfl, .done, by simpa [plannedUnits] using hleft⟩
          · obtain ⟨later, hlater, hplans, hunits⟩ := ih (index + 1) _ (cashRemaining - spent) hleft
            exact ⟨later, Checks.bind_eq_ok.mpr ⟨later, hlater, rfl⟩, hplans, hunits⟩
        refine ⟨⟨index + 1, level.price, quantity⟩ :: later,
          Checks.bind_eq_ok.mpr ⟨spent, hspent, hlater⟩, .take rfl rfl hpositive hlevel hplans, ?_⟩
        intro units hmem
        have := hunits (units - quantity) (Option.mem_map_of_mem _ hmem)
        simp only [plannedUnits, List.map_cons, List.sum_cons] at this ⊢
        omega

/-- What an order is planned for is neither more than it asks for nor, of a sale,
more than is owned. -/
theorem planTarget_le (request : OrderRequest) (position : Option ContractPosition) :
    (∀ units ∈ planTarget request position, 0 ≤ units) ∧
      (∀ units ∈ request.contractUnits, ∃ target ∈ planTarget request position, target ≤ units) ∧
      (request.action = .sell → ∀ current ∈ position,
        ∃ target ∈ planTarget request position, target ≤ current.contractUnits) := by
  have hamount : ∀ units ∈ request.contractUnits, 0 ≤ units := by
    intro units hmem
    unfold OrderRequest.contractUnits at hmem
    split at hmem
    · cases hmem
      exact request.amount_pos.le
    · cases hmem
  unfold planTarget
  split
  next current haction =>
    have hnonneg := current.contractUnits_nonneg
    simp only [Option.mem_some_iff, forall_eq', exists_eq_left']
    cases hunits : request.contractUnits with
    | none => simp [hnonneg]
    | some units =>
        have := hamount units hunits
        simp only [Option.elim_some, Option.mem_some_iff, forall_eq']
        omega
  next hother =>
    refine ⟨hamount, fun units hmem => ⟨units, hmem, le_refl units⟩, fun haction current hmem => ?_⟩
    exact absurd hmem (hother current haction)

/-- An order is planned for no more than it asks for and, of a sale, no more than
is owned. -/
theorem plan_isOk (request : OrderRequest) (levels : List CanonicalLevel)
    (position : Option ContractPosition) :
    ∃ planned, plan request levels position = .ok planned ∧ PlansFrom 0 planned levels ∧
      (∀ units ∈ request.contractUnits, plannedUnits planned ≤ units) ∧
      (request.action = .sell → ∀ current ∈ position,
        plannedUnits planned ≤ current.contractUnits) := by
  obtain ⟨hnonneg, hasked, howned⟩ := planTarget_le request position
  obtain ⟨planned, hplanned, hplans, hmost⟩ := planLevels_isOk request 0
    (planTarget request position) (request.cashAmountMicros.getD 0) levels hnonneg
  refine ⟨planned, hplanned, hplans, fun units hmem => ?_, fun haction current hmem => ?_⟩
  · obtain ⟨target, htarget, hle⟩ := hasked units hmem
    exact (hmost target htarget).trans hle
  · obtain ⟨target, htarget, hle⟩ := howned haction current hmem
    exact (hmost target htarget).trans hle

/-! ## Trimming -/

/-- The search ends, with a number from its range or the one it started from. -/
theorem bisect_isOk {budget : ℤ} {cost : ℤ → Except Raised ℤ} {low high : ℤ} {best : Option ℤ}
    (hcost : ∀ middle, low ≤ middle → middle ≤ high → ∃ total, cost middle = .ok total) :
    ∃ found, bisect budget cost low high best = .ok found ∧
      ∀ middle ∈ found, middle ∈ best ∨ (low ≤ middle ∧ middle ≤ high) := by
  induction low, high, best using bisect.induct with
  | case1 low high best hrange middle ihUp ihDown =>
      obtain ⟨total, htotal⟩ := hcost middle (by omega) (by omega)
      unfold bisect
      rw [if_pos hrange]
      simp only [bind, Except.bind, show (low + high) / 2 = middle from rfl, htotal]
      split
      next =>
        obtain ⟨found, hfound, hin⟩ := ihUp fun other h1 h2 => hcost other (by omega) h2
        refine ⟨found, hfound, fun other hmem => ?_⟩
        rcases hin other hmem with hbest | hother
        · cases hbest
          exact Or.inr ⟨by omega, by omega⟩
        · exact Or.inr ⟨by omega, hother.2⟩
      next =>
        obtain ⟨found, hfound, hin⟩ := ihDown fun other h1 h2 => hcost other h1 (by omega)
        refine ⟨found, hfound, fun other hmem => ?_⟩
        rcases hin other hmem with hbest | hother
        · exact Or.inl hbest
        · exact Or.inr ⟨hother.1, by omega⟩
  | case2 low high best hrange =>
      unfold bisect
      rw [if_neg hrange]
      exact ⟨best, rfl, fun middle hmem => Or.inl hmem⟩

/-- The fees of a plan can be calculated. -/
theorem PlansFrom.calculatePlanned_isOk {index : ℕ} {planned : List PlannedFill}
    {levels : List CanonicalLevel} (h : PlansFrom index planned levels) (request : OrderRequest)
    (policy : FeePolicySnapshot) :
    ∃ calculations, calculatePlanned request policy planned = .ok calculations ∧
      List.Forall₂ (fun (item : PlannedFill) calculation =>
        FeeSound item.contractUnits item.priceMicros calculation) planned calculations := by
  obtain ⟨calculations, hcalculations, hsound⟩ := ExactFeeCalculator.calculateFills_isOk policy
    request.action (List.forall_mem_map.mpr h.chargeable)
  exact ⟨calculations, hcalculations, List.forall₂_map_left_iff.mp hsound⟩

theorem plannedUnits_append (first second : List PlannedFill) :
    plannedUnits (first ++ second) = plannedUnits first + plannedUnits second := by
  simp [plannedUnits]

theorem plannedUnits_resized (original : PlannedFill) (contractUnits : ℤ) :
    plannedUnits (original.resized contractUnits) = contractUnits := by
  unfold PlannedFill.resized plannedUnits
  split
  next => simp
  next h => simp [not_not.mp h]

/-- Trimming a plan gives a plan for no more units. -/
theorem trimFrom_isOk (request : OrderRequest) (policy : FeePolicySnapshot) (budget : ℤ)
    {front kept : List PlannedFill} {levels : List CanonicalLevel}
    (h : PlansFrom 0 (front.reverse ++ kept) levels) :
    ∃ items, trimFrom request policy budget front kept = .ok items ∧ PlansFrom 0 items levels ∧
      plannedUnits items ≤ plannedUnits (front.reverse ++ kept) := by
  induction front generalizing kept with
  | nil => exact ⟨kept, rfl, h, le_refl _⟩
  | cons original front ih =>
      rw [List.reverse_cons, List.append_assoc, List.singleton_append] at h ⊢
      have hpositive := (h.chargeable original (by simp)).1
      simp only at hpositive
      have hresized : ∀ units, 0 ≤ units → units ≤ original.contractUnits →
          PlansFrom 0 (front.reverse ++ (original.resized units ++ kept)) levels := by
        intro units hnonneg hle
        rw [← List.append_assoc]
        exact h.resize hnonneg hle
      obtain ⟨found, hfound, hrange⟩ := @bisect_isOk budget
        (fun middle => (calculatePlanned request policy
          (front.reverse ++ original.resized middle ++ kept)).map totalCost)
        0 original.contractUnits none fun middle hnonneg hle => by
          obtain ⟨calculations, hcalculations, -⟩ :=
            (h.resize hnonneg hle).calculatePlanned_isOk request policy
          exact ⟨totalCost calculations, by simp only [hcalculations, Except.map]⟩
      have hunits : plannedUnits (original :: kept) =
          original.contractUnits + plannedUnits kept := by simp [plannedUnits]
      -- The fill is resized to what was found, or dropped.
      obtain ⟨units, hnonneg, hle, hnext⟩ : ∃ units, 0 ≤ units ∧ units ≤ original.contractUnits ∧
          found.elim kept (original.resized · ++ kept) = original.resized units ++ kept := by
        cases found with
        | none => exact ⟨0, le_refl 0, hpositive.le, by simp [PlannedFill.resized]⟩
        | some units =>
            rcases hrange units rfl with hbest | ⟨hnonneg, hle⟩
            · cases hbest
            · exact ⟨units, hnonneg, hle, rfl⟩
      obtain ⟨items, hitems, hplans, hless⟩ := ih (hresized units hnonneg hle)
      refine ⟨items, Checks.bind_eq_ok.mpr ⟨found, hfound, by rw [hnext]; exact hitems⟩, hplans, ?_⟩
      rw [plannedUnits_append, plannedUnits_append, plannedUnits_resized] at hless
      rw [plannedUnits_append, hunits]
      omega

/-- A plan that is trimmed to the cash budget is a plan for no more units, with a
fee for each of its fills. -/
theorem fitCashBudget_isOk (request : OrderRequest) (portfolio : ContractPortfolio)
    (policy : FeePolicySnapshot) {planned : List PlannedFill} {levels : List CanonicalLevel}
    (h : PlansFrom 0 planned levels) :
    ∃ items calculations, fitCashBudget request portfolio planned policy =
        .ok (items, calculations) ∧ PlansFrom 0 items levels ∧
      plannedUnits items ≤ plannedUnits planned ∧
      List.Forall₂ (fun (item : PlannedFill) calculation =>
        FeeSound item.contractUnits item.priceMicros calculation) items calculations := by
  obtain ⟨calculations, hcalculations, hsound⟩ := h.calculatePlanned_isOk request policy
  unfold fitCashBudget
  simp only [bind, Except.bind, hcalculations]
  split
  · exact ⟨planned, calculations, rfl, h, le_refl _, hsound⟩
  · obtain ⟨items, hitems, hplans, hless⟩ := @trimFrom_isOk request policy portfolio.cashMicros
      planned.reverse [] levels (by simpa using h)
    have hnonzero : items.filter (fun item => item.contractUnits ≠ 0) = items := by
      rw [List.filter_eq_self]
      intro item hmem
      have := (hplans.chargeable item hmem).1
      simp only at this
      simp [this.ne']
    obtain ⟨calculations, hcalculations, hsound⟩ := hplans.calculatePlanned_isOk request policy
    simp only [hitems, hnonzero, hcalculations]
    exact ⟨items, calculations, rfl, hplans, by simpa using hless, hsound⟩

/-! ## The audit -/

theorem consumedAt_cons (row : ℤ × ℤ) (consumed : List (ℤ × ℤ)) (levelIndex : ℤ) :
    HaircutAudit.consumedAt (row :: consumed) levelIndex =
      if row.1 = levelIndex then row.2 else HaircutAudit.consumedAt consumed levelIndex := by
  unfold HaircutAudit.consumedAt
  rw [KeyedList.lookup_cons]
  split <;> simp

/-- The dictionary of a plan has the plan's items. -/
theorem PlansFrom.consumedByLevel_eq {index : ℕ} {planned : List PlannedFill}
    {levels : List CanonicalLevel} (h : PlansFrom index planned levels) :
    consumedByLevel planned = planned.map fun item => (item.levelIndex, item.contractUnits) := by
  have hunique : ((planned.map fun item => (item.levelIndex, item.contractUnits)).map
      Prod.fst).Nodup := by
    rw [List.map_map]
    exact h.nodup_levelIndex
  rw [← KeyedList.foldl_upsert_eq hunique, List.foldl_map]
  rfl

/-- A plan consumes of every level no more than it has, and in total its units. -/
theorem PlansFrom.consumed {index : ℕ} {planned : List PlannedFill}
    {levels : List CanonicalLevel} (h : PlansFrom index planned levels) :
    (∀ captured ∈ levels.zipIdx (index + 1),
      0 ≤ HaircutAudit.consumedAt (consumedByLevel planned) captured.2 ∧
        HaircutAudit.consumedAt (consumedByLevel planned) captured.2 ≤ captured.1.quantity) ∧
      ((levels.zipIdx (index + 1)).map fun captured =>
        HaircutAudit.consumedAt (consumedByLevel planned) captured.2).sum = plannedUnits planned := by
  rw [h.consumedByLevel_eq]
  induction h with
  | @done index levels =>
      have hzero : ∀ levelIndex, HaircutAudit.consumedAt [] levelIndex = 0 := fun _ => rfl
      simp only [List.map_nil, hzero, plannedUnits, List.sum_nil]
      exact ⟨fun captured _ => ⟨le_refl 0, captured.1.quantity_pos.le⟩, by simp⟩
  | @skip index planned level rest hrest ih =>
      have hnone : HaircutAudit.consumedAt (planned.map fun item => (item.levelIndex, item.contractUnits))
          ((index + 1 : ℕ) : ℤ) = 0 := by
        unfold HaircutAudit.consumedAt
        rw [KeyedList.lookup_eq_none_iff.mpr]
        · rfl
        · intro row hmem
          obtain ⟨item, hitem, rfl⟩ := List.mem_map.mp hmem
          exact (hrest.index_lt item hitem).ne'
      rw [List.zipIdx_cons, List.forall_mem_cons, List.map_cons, List.sum_cons]
      simp only [hnone]
      exact ⟨⟨⟨le_refl 0, level.quantity_pos.le⟩, ih.1⟩, by rw [zero_add]; exact ih.2⟩
  | @take index item planned level rest position price positive available hrest ih =>
      rw [List.map_cons]
      -- Above the level of the item, the item itself is not found.
      have hlater : ∀ captured ∈ rest.zipIdx (index + 1 + 1),
          HaircutAudit.consumedAt ((item.levelIndex, item.contractUnits) ::
            planned.map fun item => (item.levelIndex, item.contractUnits)) captured.2 =
          HaircutAudit.consumedAt (planned.map fun item => (item.levelIndex, item.contractUnits))
            captured.2 := by
        intro captured hmem
        have hindex := List.le_snd_of_mem_zipIdx hmem
        rw [consumedAt_cons, if_neg]
        simp only
        omega
      have hhead : HaircutAudit.consumedAt ((item.levelIndex, item.contractUnits) ::
          planned.map fun item => (item.levelIndex, item.contractUnits))
          ((index + 1 : ℕ) : ℤ) = item.contractUnits := by
        rw [consumedAt_cons, if_pos]
        simp only [position]
        push_cast
        rfl
      rw [List.zipIdx_cons, List.forall_mem_cons, List.map_cons, List.sum_cons, hhead]
      refine ⟨⟨⟨positive.le, available⟩, fun captured hmem => ?_⟩, ?_⟩
      · rw [hlater captured hmem]
        exact ih.1 captured hmem
      · rw [List.map_congr_left hlater, ih.2]
        simp [plannedUnits]

/-- A plan has no more units than its levels. -/
theorem PlansFrom.plannedUnits_le {index : ℕ} {planned : List PlannedFill}
    {levels : List CanonicalLevel} (h : PlansFrom index planned levels) :
    plannedUnits planned ≤ (levels.map fun level => level.quantity).sum := by
  induction h with
  | done => exact sum_quantity_nonneg _
  | @skip _ _ level _ _ ih =>
      have := level.quantity_pos
      rw [List.map_cons, List.sum_cons]
      omega
  | take _ _ _ available _ ih =>
      simp only [plannedUnits, List.map_cons, List.sum_cons] at ih ⊢
      omega

/-- A plan of the levels that a haircut leaves fits the haircut's audit. -/
theorem HaircutTaken.afterFills_isOk {best : CanonicalLevel} {levels : List CanonicalLevel}
    {audit : HaircutAudit} (h : HaircutTaken best levels audit) {planned : List PlannedFill}
    (hplans : PlansFrom 0 planned levels) {requestedUnits : ℤ}
    (hrequested : plannedUnits planned ≤ requestedUnits) :
    ∃ updated, audit.afterFills (consumedByLevel planned) requestedUnits = .ok updated := by
  obtain ⟨hlevels, htotal⟩ := hplans.consumed
  -- Nothing is planned at the best level.
  have hbest : HaircutAudit.consumedAt (consumedByLevel planned) ((0 : ℕ) : ℤ) = 0 := by
    rw [hplans.consumedByLevel_eq]
    unfold HaircutAudit.consumedAt
    rw [KeyedList.lookup_eq_none_iff.mpr]
    · rfl
    · intro row hmem
      obtain ⟨item, hitem, rfl⟩ := List.mem_map.mp hmem
      exact (hplans.index_lt item hitem).ne'
  have hcaptured : ∀ captured ∈ (best :: levels).zipIdx,
      0 ≤ HaircutAudit.consumedAt (consumedByLevel planned) captured.2 ∧
        HaircutAudit.consumedAt (consumedByLevel planned) captured.2 ≤
          (capturedLevelAudit captured.1 captured.2).effectiveQuantityUnits := by
    rw [List.zipIdx_cons, List.forall_mem_cons]
    refine ⟨by simp only [hbest, capturedLevelAudit, if_true, le_refl, and_self],
      fun captured hmem => ?_⟩
    have hindex := List.le_snd_of_mem_zipIdx hmem
    obtain ⟨hnonneg, hle⟩ := hlevels captured hmem
    simp only [capturedLevelAudit, if_neg (show captured.2 ≠ 0 by omega)]
    exact ⟨hnonneg, hle⟩
  have hsum : (audit.levels.map fun level =>
      HaircutAudit.consumedAt (consumedByLevel planned) level.levelIndex).sum =
        plannedUnits planned := by
    have := congrArg (fun fields => (fields.map fun level : HaircutLevelAuditFields =>
      HaircutAudit.consumedAt (consumedByLevel planned) level.levelIndex).sum) h.captured
    simp only [List.map_map, Function.comp_def, List.zipIdx_cons, List.map_cons, List.sum_cons,
      capturedLevelAudit, hbest, zero_add] at this
    exact this.trans htotal
  refine HaircutAudit.afterFills_isOk (fun level hmem => ?_) (hsum ▸ hrequested) ?_
  · have hfields := List.mem_map_of_mem
      (f := HaircutLevelAudit.toHaircutLevelAuditFields) hmem
    rw [h.captured] at hfields
    obtain ⟨captured, hmem', heq⟩ := List.mem_map.mp hfields
    have hbounds := hcaptured captured hmem'
    rw [← heq]
    exact hbounds
  · rw [hsum, h.effective]
    exact hplans.plannedUnits_le

end VTrade
