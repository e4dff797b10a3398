/-
# How a purchase is fitted to the cash

A purchase costs what its fills cost, each rounded up to a cent unless no fee is taken, and what
the remainder gathers of those that are not rounded up.  The cost grows with the units of every
fill, so the search over the units of a fill finds the most that the cash pays for.

The fitted plan is the longest beginning of the plan that the cash pays for: one unit more
would cost more than the cash.
-/

import VTrade.FeeFolds

namespace VTrade

/-! ## What a purchase costs -/

/-- What a fill costs before the remainder. -/
def fillCost (policy : FeePolicySnapshot) (fill : ℤ × ℤ) : ℤ :=
  grossMicros fill + chargedFee policy fill

/-- What fills cost, with the remainder that they leave. -/
def purchaseCost (policy : FeePolicySnapshot) (fills : List (ℤ × ℤ)) : ℤ :=
  Carry.charged centMicros 0 (fills.map (fillCost policy))

theorem grossMicros_mono {units units' price : ℤ} (hprice : 0 ≤ price) (h : units ≤ units') :
    grossMicros (units, price) ≤ grossMicros (units', price) := by
  have hmul : units * price ≤ units' * price := mul_le_mul_of_nonneg_right h hprice
  unfold grossMicros
  simp only
  generalize units * price = value at hmul
  generalize units' * price = value' at hmul
  omega

/-- The cost of a fill is its gross value, or that and the fee rounded up. -/
theorem fillCost_eq (policy : FeePolicySnapshot) (units price : ℤ) :
    fillCost policy (units, price) =
      if Charged policy (units, price) then
        ((grossMicros (units, price) * (rawFee policy units price).2 +
          (rawFee policy units price).1 + (rawFee policy units price).2 - 1) /
            (rawFee policy units price).2 + centMicros - 1) / centMicros * centMicros
      else grossMicros (units, price) := by
  unfold fillCost
  by_cases hcharged : Charged policy (units, price)
  · rw [if_pos hcharged]
    unfold chargedFee tradeFee
    rw [if_neg (by simpa [Charged] using hcharged)]
    simp only
    omega
  · rw [if_neg hcharged, chargedFee_of_not_charged hcharged, add_zero]

/-- Nothing costs nothing. -/
theorem fillCost_zero (policy : FeePolicySnapshot) (price : ℤ) :
    fillCost policy (0, price) = 0 := by
  rw [fillCost_eq, if_neg (by simp [Charged, rawFee])]
  simp [grossMicros]

/-- More units cost more. -/
theorem fillCost_mono (policy : FeePolicySnapshot) {units units' price : ℤ}
    (hprice : 0 ≤ price ∧ price ≤ 1000000) (hunits : 0 ≤ units) (h : units ≤ units') :
    fillCost policy (units, price) ≤ fillCost policy (units', price) := by
  rcases hunits.eq_or_lt with rfl | hpos
  · rw [fillCost_zero]
    rcases h.eq_or_lt with rfl | hpos'
    · rw [fillCost_zero]
    · have hfee : 0 ≤ chargedFee policy (units', price) :=
        chargedFee_nonneg policy ⟨hpos', hprice⟩
      have hgross := grossMicros_mono hprice.1 hpos'.le
      rw [show grossMicros (0, price) = 0 by simp [grossMicros]] at hgross
      exact add_nonneg hgross hfee
  · have hgross := grossMicros_mono hprice.1 h
    have hdenominator : 0 < (rawFee policy units price).2 :=
      (rawFee_bounds policy ⟨hpos, hprice⟩).2
    -- Units of one price are charged for all or none.
    have hsame : (rawFee policy units' price).2 = (rawFee policy units price).2 := rfl
    have hraw : (rawFee policy units price).1 ≤ (rawFee policy units' price).1 ∧
        ((rawFee policy units price).1 = 0 ↔ (rawFee policy units' price).1 = 0) := by
      obtain ⟨hmultiplier, -⟩ := policy.resolvedMultiplier_valid
      obtain ⟨hrate, -⟩ := policy.rate_pos
      have hunit : ∀ count, (rawFee policy count price).1 =
          policy.resolvedMultiplier.1 * policy.rate.1 * price * (1000000 - price) * count := by
        intro count
        unfold rawFee
        ring
      have hnonneg :
          0 ≤ policy.resolvedMultiplier.1 * policy.rate.1 * price * (1000000 - price) :=
        mul_nonneg (mul_nonneg (mul_nonneg hmultiplier hrate.le) hprice.1) (by omega)
      rw [hunit, hunit]
      generalize policy.resolvedMultiplier.1 * policy.rate.1 * price * (1000000 - price) = each
        at hnonneg
      refine ⟨mul_le_mul_of_nonneg_left h hnonneg, ?_⟩
      rw [mul_eq_zero, mul_eq_zero, or_iff_left hpos.ne', or_iff_left (by omega)]
    have hcharged : Charged policy (units, price) ↔ Charged policy (units', price) :=
      and_congr_right fun _ => not_congr hraw.2
    rw [fillCost_eq, fillCost_eq, hsame]
    by_cases hfee : Charged policy (units, price)
    · rw [if_pos hfee, if_pos (hcharged.mp hfee)]
      have hmul := mul_le_mul_of_nonneg_right hgross hdenominator.le
      have htotal := Int.ediv_le_ediv hdenominator
        (show grossMicros (units, price) * (rawFee policy units price).2 +
            (rawFee policy units price).1 + (rawFee policy units price).2 - 1 ≤
          grossMicros (units', price) * (rawFee policy units price).2 +
            (rawFee policy units' price).1 + (rawFee policy units price).2 - 1 by omega)
      have hcents := Int.ediv_le_ediv centMicros_pos
        (show _ + centMicros - 1 ≤ _ + centMicros - 1 from
          sub_le_sub_right (add_le_add_left htotal _) _)
      exact mul_le_mul_of_nonneg_right hcents centMicros_pos.le
    · rw [if_neg hfee, if_neg fun hfee' => hfee (hcharged.mpr hfee')]
      exact hgross

/-- The remainder of a purchase takes what a fill lacks to a cent, as long as it stays below. -/
theorem Calculated.buy_after {policy : FeePolicySnapshot} {accumulator : ℤ} {fill : ℤ × ℤ}
    {calculation : FeeCalculation} (h : Calculated policy .buy accumulator fill calculation)
    (hfill : Chargeable fill) (hnonneg : 0 ≤ accumulator) (hlt : accumulator < centMicros) :
    calculation.accumulatorAfterMicros =
      Carry.next centMicros accumulator (Carry.lack centMicros (fillCost policy fill)) := by
  obtain ⟨-, -, hrounding, hrebate, -, hafter, -⟩ := h
  have hlack : residue policy .buy fill = Carry.lack centMicros (fillCost policy fill) := by
    unfold residue fillCost signedGross
    rw [if_neg (by decide), sub_neg_eq_add, add_comm]
  have hfee : chargedFee policy fill = 0 ∨ residue policy .buy fill = 0 := by
    by_cases hcharged : Charged policy fill
    · right
      rw [residue_eq_leftover hfill]
      unfold leftover
      rw [if_pos hcharged, if_neg (by decide)]
    · exact .inl (chargedFee_of_not_charged hcharged)
  have hadded := Carry.lack_nonneg centMicros_pos (fillCost policy fill)
  have hless := Carry.lack_lt centMicros_pos (fillCost policy fill)
  have hpaid := chargedFee_nonneg policy hfill
  rw [hlack] at hrounding hrebate hfee
  unfold Carry.next
  generalize Carry.lack centMicros (fillCost policy fill) = added at *
  generalize chargedFee policy fill = fee at *
  unfold centMicros at *
  split <;> omega

namespace ExactFeeCalculator

/-- What the calculations for a purchase add up to. -/
theorem CalculatedFrom.buy_total {policy : FeePolicySnapshot} {accumulator : ℤ}
    {fills : List (ℤ × ℤ)} {calculations : List FeeCalculation}
    (h : CalculatedFrom policy .buy accumulator fills calculations) :
    accumulator + totalCost calculations =
      Carry.charged centMicros accumulator (fills.map (fillCost policy)) := by
  induction h with
  | @done accumulator =>
      change accumulator + 0 = 0 + accumulator
      omega
  | @fill accumulator fill rest calculation later hnonneg hlt chargeable calculated _ _ ih =>
      have hafter := calculated.buy_after chargeable hnonneg hlt
      rw [List.map_cons, Carry.charged_cons, ← hafter, ← ih]
      have hgross := calculated.gross
      have htrade := calculated.trade
      have hnet := calculated.net
      have hleft := calculated.after
      have hcost : totalCost (calculation :: later) =
          calculation.grossMicros + calculation.netFeeMicros + totalCost later := by
        simp [totalCost]
      unfold fillCost
      omega

end ExactFeeCalculator

/-- The fill of an item of a plan. -/
def PlannedFill.fill (item : PlannedFill) : ℤ × ℤ := (item.contractUnits, item.priceMicros)

/-- The calculations for a plan of a purchase add up to what it costs. -/
theorem calculatePlanned_buy {request : OrderRequest} (hbuy : request.action = .buy)
    (policy : FeePolicySnapshot) {items : List PlannedFill}
    (hitems : ∀ item ∈ items, Chargeable item.fill) :
    ∃ calculations, calculatePlanned request policy items = .ok calculations ∧
      totalCost calculations = purchaseCost policy (items.map PlannedFill.fill) := by
  obtain ⟨calculations, hcalculations, hspec⟩ :=
    ExactFeeCalculator.calculateFillsFrom_calculated policy .buy
      (List.forall_mem_map.mpr hitems) (le_refl 0) centMicros_pos
  refine ⟨calculations, ?_, ?_⟩
  · unfold calculatePlanned ExactFeeCalculator.calculateFills
    rw [hbuy]
    exact hcalculations
  · rw [← zero_add (totalCost calculations), hspec.buy_total]
    rfl

/-! ## The search -/

/-- The search for the most units within the budget finds them, where more cost more. -/
theorem bisect_most {budget : ℤ} {cost : ℤ → Except Raised ℤ} {total : ℤ → ℤ} {low high : ℤ}
    {best : Option ℤ}
    (hcost : ∀ middle, low ≤ middle → middle ≤ high → cost middle = .ok (total middle))
    (hmono : ∀ middle other, low ≤ middle → middle ≤ other → other ≤ high →
      total middle ≤ total other) :
    (bisect budget cost low high best = .ok best ∧
        ∀ middle, low ≤ middle → middle ≤ high → budget < total middle) ∨
      ∃ found, bisect budget cost low high best = .ok (some found) ∧ low ≤ found ∧ found ≤ high ∧
        total found ≤ budget ∧ ∀ more, found < more → more ≤ high → budget < total more := by
  induction low, high, best using bisect.induct with
  | case1 low high best hrange middle ihUp ihDown =>
      have hmiddle : middle = (low + high) / 2 := rfl
      unfold bisect
      rw [if_pos hrange]
      simp only [bind, Except.bind, ← hmiddle, hcost middle (by omega) (by omega)]
      by_cases hwithin : total middle ≤ budget
      · rw [if_pos hwithin]
        right
        rcases ihUp (fun other h1 h2 => hcost other (by omega) h2)
          (fun first second h1 h2 h3 => hmono first second (by omega) h2 h3) with
          ⟨hnone, habove⟩ | ⟨found, hfound, h1, h2, hpaid, habove⟩
        · exact ⟨middle, hnone, by omega, by omega, hwithin,
            fun more h1 h2 => habove more (by omega) h2⟩
        · exact ⟨found, hfound, by omega, h2, hpaid, habove⟩
      · rw [if_neg hwithin]
        -- Everything from the middle on is beyond the budget.
        have hbeyond : ∀ more, middle ≤ more → more ≤ high → budget < total more :=
          fun more h1 h2 =>
            (not_le.mp hwithin).trans_le (hmono middle more (by omega) h1 h2)
        rcases ihDown (fun other h1 h2 => hcost other h1 (by omega))
          (fun first second h1 h2 h3 => hmono first second h1 h2 (by omega)) with
          ⟨hnone, hbelow⟩ | ⟨found, hfound, h1, h2, hpaid, habove⟩
        · left
          refine ⟨hnone, fun more h1 h2 => ?_⟩
          by_cases hlow : more ≤ middle - 1
          · exact hbelow more h1 hlow
          · exact hbeyond more (by omega) h2
        · right
          refine ⟨found, hfound, h1, by omega, hpaid, fun more h1 h2 => ?_⟩
          by_cases hlow : more ≤ middle - 1
          · exact habove more h1 hlow
          · exact hbeyond more (by omega) h2
  | case2 low high best hrange =>
      left
      unfold bisect
      rw [if_neg hrange]
      exact ⟨rfl, fun middle h1 h2 => absurd (h1.trans h2) hrange⟩

/-! ## Fitting -/

section Fitting

variable {policy : FeePolicySnapshot} {front kept : List PlannedFill} {original : PlannedFill}

/-- Fewer units of a fill in the middle of a plan, or none of it. -/
theorem purchaseCost_resized (policy : FeePolicySnapshot) (front kept : List PlannedFill)
    (original : PlannedFill) (units : ℤ) :
    purchaseCost policy ((front ++ original.resized units ++ kept).map PlannedFill.fill) =
      Carry.charged centMicros 0 ((front.map PlannedFill.fill).map (fillCost policy) ++
        fillCost policy (units, original.priceMicros) ::
          (kept.map PlannedFill.fill).map (fillCost policy)) := by
  unfold purchaseCost PlannedFill.resized
  by_cases hnone : units = 0
  · have hless := (Carry.after_bounds centMicros_pos centMicros_pos
      ((front.map PlannedFill.fill).map (fillCost policy))).2
    rw [if_neg (not_not.mpr hnone), hnone, fillCost_zero, List.append_nil,
      Carry.charged_append, Carry.charged_cons_zero hless, ← Carry.charged_append,
      List.map_append, List.map_append]
  · rw [if_pos hnone]
    simp only [List.map_append, List.map_cons, List.append_assoc,
      List.singleton_append, PlannedFill.fill]

/-- A plan costs more with more units of a fill. -/
theorem purchaseCost_mono (policy : FeePolicySnapshot) (front kept : List PlannedFill)
    (hprice : 0 ≤ original.priceMicros ∧ original.priceMicros ≤ 1000000) {units units' : ℤ}
    (hunits : 0 ≤ units) (h : units ≤ units') :
    purchaseCost policy ((front ++ original.resized units ++ kept).map PlannedFill.fill) ≤
      purchaseCost policy ((front ++ original.resized units' ++ kept).map PlannedFill.fill) := by
  rw [purchaseCost_resized, purchaseCost_resized]
  exact Carry.charged_mono centMicros_pos (le_refl 0) centMicros_pos
    (fillCost_mono policy hprice hunits h) _ _

theorem PlannedFill.resized_self {original : PlannedFill} (h : 0 < original.contractUnits) :
    original.resized original.contractUnits = [original] := by
  unfold PlannedFill.resized
  rw [if_pos h.ne']

/-- The fills of a plan can still be charged for with fewer units of one. -/
theorem chargeable_resized (h : ∀ item ∈ front ++ original :: kept, Chargeable item.fill)
    {units : ℤ} (hunits : 0 ≤ units) :
    ∀ item ∈ front ++ original.resized units ++ kept, Chargeable item.fill := by
  intro item hmem
  rw [List.mem_append, List.mem_append] at hmem
  rcases hmem with (hfront | hsized) | hkept
  · exact h item (List.mem_append_left _ hfront)
  · unfold PlannedFill.resized at hsized
    split at hsized
    next hnonzero =>
      rw [List.mem_singleton] at hsized
      rw [hsized]
      have hprice := (h original (by simp)).2
      exact ⟨lt_of_le_of_ne hunits (Ne.symm hnonzero), hprice⟩
    next => simp at hsized
  · exact h item (List.mem_append_right _ (List.mem_cons_of_mem _ hkept))

variable {request : OrderRequest} {budget : ℤ}

/-- What the search over the units of a fill of a purchase finds. -/
theorem bisect_planned (hbuy : request.action = .buy)
    (h : ∀ item ∈ front ++ original :: kept, Chargeable item.fill) :
    (bisect budget (fun middle => (calculatePlanned request policy
          (front ++ original.resized middle ++ kept)).map totalCost) 0 original.contractUnits none =
        .ok none ∧
      ∀ units, 0 ≤ units → units ≤ original.contractUnits → budget <
        purchaseCost policy ((front ++ original.resized units ++ kept).map PlannedFill.fill)) ∨
      ∃ found, bisect budget (fun middle => (calculatePlanned request policy
          (front ++ original.resized middle ++ kept)).map totalCost) 0 original.contractUnits none =
          .ok (some found) ∧ 0 ≤ found ∧ found ≤ original.contractUnits ∧
        purchaseCost policy ((front ++ original.resized found ++ kept).map PlannedFill.fill) ≤
          budget ∧
        ∀ more, found < more → more ≤ original.contractUnits → budget <
          purchaseCost policy ((front ++ original.resized more ++ kept).map PlannedFill.fill) := by
  apply bisect_most
  · intro middle hnonneg _
    obtain ⟨calculations, hcalculations, htotal⟩ :=
      calculatePlanned_buy hbuy policy (chargeable_resized h hnonneg)
    rw [hcalculations, ← htotal]
    rfl
  · intro middle other hnonneg hle _
    exact purchaseCost_mono policy front kept (h original (by simp)).2 hnonneg hle

/-- A plan within the budget is left as it is. -/
theorem trimFrom_within (hbuy : request.action = .buy)
    (h : ∀ item ∈ front.reverse ++ kept, Chargeable item.fill)
    (hpaid : purchaseCost policy ((front.reverse ++ kept).map PlannedFill.fill) ≤ budget) :
    trimFrom request policy budget front kept = .ok (front.reverse ++ kept) := by
  induction front generalizing kept with
  | nil => rfl
  | cons original front ih =>
      rw [List.reverse_cons, List.append_assoc, List.singleton_append] at h hpaid ⊢
      have hpositive : 0 < original.contractUnits := (h original (by simp)).1
      have hwhole : front.reverse ++ original.resized original.contractUnits ++ kept =
          front.reverse ++ original :: kept := by
        rw [PlannedFill.resized_self hpositive, List.append_assoc, List.singleton_append]
      rw [← hwhole] at hpaid
      rcases @bisect_planned policy front.reverse kept original request budget hbuy h with
        ⟨-, hbeyond⟩ | ⟨found, hfound, -, hle, -, hbeyond⟩
      · exact absurd hpaid (not_le.mpr (hbeyond _ hpositive.le (le_refl _)))
      · have hall : found = original.contractUnits := by
          by_contra hless
          exact absurd hpaid (not_le.mpr (hbeyond _ (lt_of_le_of_ne hle hless) (le_refl _)))
        refine Checks.bind_eq_ok.mpr ⟨some found, hfound, ?_⟩
        rw [Option.elim_some, hall, PlannedFill.resized_self hpositive, List.singleton_append]
        rw [hwhole] at hpaid
        exact ih h hpaid

/-- A plan beyond the budget is cut at the fill that the budget ends in. -/
theorem trimFrom_beyond (hbuy : request.action = .buy) (hbudget : 0 ≤ budget)
    (h : ∀ item ∈ front.reverse, Chargeable item.fill)
    (hunpaid : budget < purchaseCost policy (front.reverse.map PlannedFill.fill)) :
    ∃ before original after units, front.reverse = before ++ original :: after ∧ 0 ≤ units ∧
      units < original.contractUnits ∧
      trimFrom request policy budget front [] = .ok (before ++ original.resized units) ∧
      purchaseCost policy ((before ++ original.resized units).map PlannedFill.fill) ≤ budget ∧
      budget < purchaseCost policy
        ((before ++ original.resized (units + 1)).map PlannedFill.fill) := by
  induction front with
  | nil => exact absurd hunpaid (not_lt.mpr hbudget)
  | cons original front ih =>
      rw [List.reverse_cons] at h hunpaid ⊢
      have hpositive : 0 < original.contractUnits := (h original (by simp)).1
      have hwhole : front.reverse ++ original.resized original.contractUnits ++ [] =
          front.reverse ++ [original] := by
        rw [PlannedFill.resized_self hpositive, List.append_nil]
      rw [← hwhole] at hunpaid
      rcases @bisect_planned policy front.reverse [] original request budget hbuy h with
        ⟨hnone, hbeyond⟩ | ⟨found, hfound, hnonneg, hle, hpaid, hbeyond⟩
      · -- Not even the fills before this one are within the budget.
        have hfront := hbeyond 0 (le_refl 0) hpositive.le
        rw [PlannedFill.resized, if_neg (by simp), List.append_nil, List.append_nil] at hfront
        obtain ⟨before, cut, after, units, hsplit, hunits, hless, htrim, hcost, hmore⟩ :=
          ih (fun item hmem => h item (List.mem_append_left _ hmem)) hfront
        refine ⟨before, cut, after ++ [original], units, ?_, hunits, hless, ?_, hcost, hmore⟩
        · rw [hsplit, List.append_assoc, List.cons_append]
        · exact Checks.bind_eq_ok.mpr ⟨none, hnone, htrim⟩
      · have hless : found < original.contractUnits := by
          refine lt_of_le_of_ne hle fun hall => ?_
          rw [hall] at hpaid
          exact absurd hpaid (not_le.mpr hunpaid)
        have hnext := hbeyond (found + 1) (by omega) (by omega)
        have hsized : ∀ item ∈ front.reverse ++ original.resized found ++ [],
            Chargeable item.fill := chargeable_resized h hnonneg
        rw [List.append_nil] at hpaid hnext hsized
        refine ⟨front.reverse, original, [], found, rfl, hnonneg, hless, ?_, hpaid, hnext⟩
        refine Checks.bind_eq_ok.mpr ⟨some found, hfound, ?_⟩
        rw [Option.elim_some, List.append_nil]
        exact trimFrom_within hbuy hsized hpaid

end Fitting

/-- A plan within some cash, as long a beginning of another plan as the cash pays for: the whole
of it, or its first fills and a part of the next one, of which one unit more is beyond the cash. -/
inductive LongestWithin (request : OrderRequest) (policy : FeePolicySnapshot) (cash : ℤ)
    (planned : List PlannedFill) : List PlannedFill → Prop
  | whole : LongestWithin request policy cash planned planned
  | cut {before after : List PlannedFill} {original : PlannedFill} {units : ℤ}
      {more : List FeeCalculation} (plan : planned = before ++ original :: after)
      (nonneg : 0 ≤ units) (less : units < original.contractUnits)
      (calculated : calculatePlanned request policy (before ++ original.resized (units + 1)) =
        .ok more)
      (beyond : cash < totalCost more) :
      LongestWithin request policy cash planned (before ++ original.resized units)

/-- The plan of a purchase is cut to the longest beginning of it that the cash pays for. -/
theorem fitCashBudget_longest {request : OrderRequest} (hbuy : request.action = .buy)
    (portfolio : ContractPortfolio) (policy : FeePolicySnapshot) {planned : List PlannedFill}
    (h : ∀ item ∈ planned, Chargeable (item.contractUnits, item.priceMicros)) :
    ∃ items calculations, fitCashBudget request portfolio planned policy =
        .ok (items, calculations) ∧ calculatePlanned request policy items = .ok calculations ∧
      totalCost calculations ≤ portfolio.cashMicros ∧
      LongestWithin request policy portfolio.cashMicros planned items := by
  obtain ⟨calculations, hcalculations, htotal⟩ := calculatePlanned_buy hbuy policy h
  unfold fitCashBudget
  simp only [bind, Except.bind, hcalculations]
  by_cases hwithin : totalCost calculations ≤ portfolio.cashMicros
  · rw [if_pos (.inr hwithin)]
    exact ⟨planned, calculations, rfl, hcalculations, hwithin, .whole⟩
  · rw [if_neg (by simp [hbuy, hwithin])]
    obtain ⟨before, original, after, units, hsplit, hnonneg, hless, htrim, hpaid, hbeyond⟩ :=
      @trimFrom_beyond policy planned.reverse request portfolio.cashMicros hbuy
        portfolio.cashMicros_nonneg (by rw [List.reverse_reverse]; exact h)
        (by rw [List.reverse_reverse, ← htotal]; exact not_le.mp hwithin)
    rw [List.reverse_reverse] at hsplit
    rw [hsplit] at h
    have hsized : ∀ units, 0 ≤ units →
        ∀ item ∈ before ++ original.resized units, Chargeable item.fill := by
      intro units hunits item hmem
      have hkept := chargeable_resized h hunits
      exact hkept item (List.mem_append_left _ hmem)
    have hpositive : (before ++ original.resized units).filter
        (fun item => item.contractUnits ≠ 0) = before ++ original.resized units := by
      rw [List.filter_eq_self]
      intro item hmem
      have hunits : 0 < item.contractUnits := (hsized units hnonneg item hmem).1
      simp [hunits.ne']
    obtain ⟨fitted, hfitted, hcost⟩ := calculatePlanned_buy hbuy policy (hsized units hnonneg)
    obtain ⟨more, hmore, hmore'⟩ :=
      calculatePlanned_buy hbuy policy (hsized (units + 1) (by omega))
    simp only [htrim, hpositive, hfitted]
    refine ⟨_, fitted, rfl, hfitted, by rw [hcost]; exact hpaid, ?_⟩
    exact .cut hsplit hnonneg hless hmore (by rw [hmore']; exact hbeyond)

namespace Sample

/-- A portfolio of half a dollar. -/
def halfDollar : ContractPortfolio :=
  ⟨{ agentId := "agent", cashMicros := 500000, positions := [] }, by decide⟩

end Sample

/-- Half a dollar does not pay for two contracts. -/
theorem fitCashBudget_longest_halfDollar :
    ∃ items calculations, fitCashBudget Sample.purchase Sample.halfDollar
        [⟨2, 400000, 100⟩, ⟨3, 410000, 100⟩] (Sample.feePolicy false) = .ok (items, calculations) ∧
      calculatePlanned Sample.purchase (Sample.feePolicy false) items = .ok calculations ∧
      totalCost calculations ≤ Sample.halfDollar.cashMicros ∧
      LongestWithin Sample.purchase (Sample.feePolicy false) Sample.halfDollar.cashMicros
        [⟨2, 400000, 100⟩, ⟨3, 410000, 100⟩] items :=
  fitCashBudget_longest rfl Sample.halfDollar (Sample.feePolicy false) (by simp [Chargeable])

end VTrade
