/-
# Plans on a book

A plan goes through the levels that the haircut leaves, from the best price to the worst.  Of
every level within the limit it takes all that there is, all that the order still wants, or all
that the amount left pays for at the exact price.  What it takes is rounded only then, so where
prices have fractions of a hundredth of a cent the rounding can leave what pays for one unit more.

The audit of the haircut, which walks the same levels by their index, takes every plan.
-/

import VTrade.CashBudget
import VTrade.FillOrKill

namespace VTrade

/-! ## The run of the loop -/

/-- What the loop of `_plan` does at some levels, from an index, the units that remain and the
cash that remains. -/
inductive TakesFrom (request : OrderRequest) :
    ℕ → Option ℤ → ℤ → List CanonicalLevel → List PlannedFill → Prop
  | done {index : ℕ} {remaining : Option ℤ} {cash : ℤ} :
      TakesFrom request index remaining cash [] []
  | skip {index : ℕ} {remaining : Option ℤ} {cash : ℤ} {level : CanonicalLevel}
      {rest : List CanonicalLevel} {planned : List PlannedFill}
      (none : beyondLimit request level = true ∨ levelQuantity request remaining cash level ≤ 0)
      (h : TakesFrom request (index + 1) remaining cash rest planned) :
      TakesFrom request index remaining cash (level :: rest) planned
  | last {index : ℕ} {remaining : Option ℤ} {cash : ℤ} {level : CanonicalLevel}
      {rest : List CanonicalLevel} (within : beyondLimit request level = false)
      (positive : 0 < levelQuantity request remaining cash level)
      (exhausted : remaining = some (levelQuantity request remaining cash level)) :
      TakesFrom request index remaining cash (level :: rest)
        [⟨index + 1, level.price, levelQuantity request remaining cash level⟩]
  | take {index : ℕ} {remaining : Option ℤ} {cash spent : ℤ} {level : CanonicalLevel}
      {rest : List CanonicalLevel} {later : List PlannedFill}
      (within : beyondLimit request level = false)
      (positive : 0 < levelQuantity request remaining cash level)
      (wanting : remaining ≠ some (levelQuantity request remaining cash level))
      (spends : spentOnLevel request (levelQuantity request remaining cash level) level =
        .ok spent)
      (h : TakesFrom request (index + 1)
        (remaining.map (· - levelQuantity request remaining cash level)) (cash - spent) rest
        later) :
      TakesFrom request index remaining cash (level :: rest)
        (⟨index + 1, level.price, levelQuantity request remaining cash level⟩ :: later)

theorem map_sub_eq_zero_iff {remaining : Option ℤ} {quantity : ℤ} :
    remaining.map (· - quantity) = some 0 ↔ remaining = some quantity := by
  cases remaining with
  | none => simp
  | some units =>
      simp only [Option.map_some, Option.some.injEq]
      omega

theorem TakesFrom.of_planLevels {request : OrderRequest} {index : ℕ} {remaining : Option ℤ}
    {cash : ℤ} {levels : List CanonicalLevel} {planned : List PlannedFill}
    (h : planLevels request index remaining cash levels = .ok planned) :
    TakesFrom request index remaining cash levels planned := by
  induction levels generalizing index remaining cash planned with
  | nil =>
      cases h
      exact .done
  | cons level rest ih =>
      unfold planLevels at h
      dsimp only at h
      by_cases hnone : beyondLimit request level = true ∨
          levelQuantity request remaining cash level ≤ 0
      · rw [if_pos hnone] at h
        exact .skip hnone (ih h)
      · rw [if_neg hnone] at h
        rw [not_or, not_le, Bool.not_eq_true] at hnone
        obtain ⟨hwithin, hpositive⟩ := hnone
        obtain ⟨spent, hspent, h⟩ := Checks.bind_eq_ok.mp h
        by_cases hlast : remaining.map (· - levelQuantity request remaining cash level) = some 0
        · rw [if_pos hlast] at h
          cases h
          exact .last hwithin hpositive (map_sub_eq_zero_iff.mp hlast)
        · rw [if_neg hlast] at h
          obtain ⟨later, hlater, h⟩ := Checks.bind_eq_ok.mp h
          cases h
          exact .take hwithin hpositive (fun hall => hlast (map_sub_eq_zero_iff.mpr hall)) hspent
            (ih hlater)

/-! ## What a run takes -/

/-- What is planned at the level of an index. -/
def unitsAt (planned : List PlannedFill) (levelIndex : ℤ) : ℤ :=
  plannedUnits (planned.filter fun item => item.levelIndex = levelIndex)

/-- What the fills of a plan are worth. -/
def plannedGross (planned : List PlannedFill) : ℤ :=
  (planned.map fun item => grossMicros item.fill).sum

/-- What is planned at levels before an index is worth. -/
def spentBefore (planned : List PlannedFill) (levelIndex : ℤ) : ℤ :=
  plannedGross (planned.filter fun item => item.levelIndex < levelIndex)

/-- A price that is worse than another one for an order. -/
def WorsePrice (action : Side) (worse better : ℤ) : Prop :=
  match action with
  | .buy => better < worse
  | .sell => worse < better

/-- A fill of a level: of those in order, at its price, within the limit of the order and no more
than the level has. -/
structure FillsLevel (request : OrderRequest) (levels : List CanonicalLevel) (index : ℕ)
    (item : PlannedFill) (position : ℕ) (level : CanonicalLevel) : Prop where
  found : levels[position]? = some level
  levelIndex : item.levelIndex = index + position + 1
  price : item.priceMicros = level.price
  within : beyondLimit request level = false
  positive : 0 < item.contractUnits
  available : item.contractUnits ≤ level.quantity

section Run

variable {request : OrderRequest} {index : ℕ} {remaining : Option ℤ} {cash : ℤ}
  {levels : List CanonicalLevel} {planned : List PlannedFill}

theorem FillsLevel.cons {item : PlannedFill} {position : ℕ} {level other : CanonicalLevel}
    (h : FillsLevel request levels (index + 1) item position level) :
    FillsLevel request (other :: levels) index item (position + 1) level where
  found := h.found
  levelIndex := by
    have := h.levelIndex
    push_cast at this ⊢
    omega
  price := h.price
  within := h.within
  positive := h.positive
  available := h.available

/-- Every fill is one of a level. -/
theorem TakesFrom.fillsLevel (h : TakesFrom request index remaining cash levels planned) :
    ∀ item ∈ planned, ∃ position level, FillsLevel request levels index item position level := by
  induction h with
  | done => simp
  | skip _ _ ih =>
      intro item hmem
      obtain ⟨position, level, hfills⟩ := ih item hmem
      exact ⟨position + 1, level, hfills.cons⟩
  | @last index remaining cash level rest within positive _ =>
      intro item hmem
      rw [List.mem_singleton.mp hmem]
      exact ⟨0, level, rfl, by simp, rfl, within, positive,
        (levelQuantity_le request remaining cash level).1⟩
  | @take index remaining cash spent level rest later within positive _ _ _ ih =>
      rw [List.forall_mem_cons]
      refine ⟨⟨0, level, rfl, by simp, rfl, within, positive,
        (levelQuantity_le request remaining cash level).1⟩, fun item hmem => ?_⟩
      obtain ⟨position, other, hfills⟩ := ih item hmem
      exact ⟨position + 1, other, hfills.cons⟩

theorem TakesFrom.index_lt (h : TakesFrom request index remaining cash levels planned) :
    ∀ item ∈ planned, (index : ℤ) < item.levelIndex := by
  intro item hmem
  obtain ⟨position, level, hfills⟩ := h.fillsLevel item hmem
  have := hfills.levelIndex
  omega

theorem unitsAt_of_lt (h : TakesFrom request index remaining cash levels planned)
    {levelIndex : ℤ} (hlt : levelIndex ≤ index) : unitsAt planned levelIndex = 0 := by
  unfold unitsAt
  rw [List.filter_eq_nil_iff.mpr]
  · rfl
  · intro item hmem
    have := h.index_lt item hmem
    simp only [decide_eq_true_eq]
    omega

theorem spentBefore_of_lt (h : TakesFrom request index remaining cash levels planned)
    {levelIndex : ℤ} (hlt : levelIndex ≤ index + 1) : spentBefore planned levelIndex = 0 := by
  unfold spentBefore
  rw [List.filter_eq_nil_iff.mpr]
  · rfl
  · intro item hmem
    have := h.index_lt item hmem
    simp only [decide_eq_true_eq]
    omega

/-- Where nothing is wanted any more nothing is planned. -/
theorem TakesFrom.nil_of_exhausted (h : TakesFrom request index remaining cash levels planned)
    {units : ℤ} (hremaining : remaining = some units) (hunits : units ≤ 0) : planned = [] := by
  induction h with
  | done => rfl
  | skip _ _ ih => exact ih hremaining
  | @last _ remaining cash level _ _ positive _ =>
      have := (levelQuantity_le request remaining cash level).2 units hremaining
      omega
  | @take _ remaining cash _ level _ _ _ positive _ _ _ _ =>
      have := (levelQuantity_le request remaining cash level).2 units hremaining
      omega

/-- What is taken of a level is all that it has, all that is wanted, or as much as the amount
left pays for. -/
theorem levelQuantity_most (request : OrderRequest) (remaining : Option ℤ) (cash : ℤ)
    (level : CanonicalLevel) :
    levelQuantity request remaining cash level = level.quantity ∨
      remaining = some (levelQuantity request remaining cash level) ∨
      request.amountType = .cash ∧
        100 * cash < (levelQuantity request remaining cash level + 1) * level.price := by
  unfold levelQuantity
  have hasked : remaining.elim level.quantity (min level.quantity) = level.quantity ∨
      remaining = some (remaining.elim level.quantity (min level.quantity)) := by
    cases remaining with
    | none => exact .inl rfl
    | some units =>
        rw [Option.elim_some]
        rcases min_choice level.quantity units with heq | heq
        · exact .inl heq
        · exact .inr (by rw [heq])
  generalize remaining.elim level.quantity (min level.quantity) = asked at hasked ⊢
  dsimp only
  by_cases hcash : request.amountType = .cash
  · rw [if_pos hcash]
    by_cases hfree : level.price = 0
    · rw [if_pos hfree, min_self]
      exact hasked.imp_right .inl
    · rw [if_neg hfree]
      have hprice : 0 < level.price := lt_of_le_of_ne level.price_range.1 (Ne.symm hfree)
      rcases min_choice asked (cash * 100 / level.price) with heq | heq
      · rw [heq]
        exact hasked.imp_right .inl
      · refine .inr (.inr ⟨hcash, ?_⟩)
        rw [heq, mul_comm 100 cash]
        exact Int.lt_ediv_add_one_mul_self (cash * 100) hprice
  · rw [if_neg hcash]
    exact hasked.imp_right .inl

/-- What a level takes of an order for cash is worth no more than what is left. -/
theorem levelQuantity_mul_le {request : OrderRequest} (hcash : request.amountType = .cash)
    (hnonneg : 0 ≤ cash) (remaining : Option ℤ) (level : CanonicalLevel) :
    levelQuantity request remaining cash level * level.price ≤ 100 * cash := by
  unfold levelQuantity
  dsimp only
  rw [if_pos hcash]
  by_cases hfree : level.price = 0
  · rw [hfree, mul_zero]
    omega
  · rw [if_neg hfree]
    have hprice : 0 < level.price := lt_of_le_of_ne level.price_range.1 (Ne.symm hfree)
    calc _ ≤ cash * 100 / level.price * level.price :=
          mul_le_mul_of_nonneg_right (min_le_right _ _) hprice.le
      _ ≤ cash * 100 := Int.ediv_mul_le _ hprice.ne'
      _ = 100 * cash := mul_comm _ _

/-- What is spent on a level is the gross value of what is taken of it. -/
theorem spentOnLevel_cash (hcash : request.amountType = .cash) {level : CanonicalLevel}
    {quantity spent : ℤ} (hpositive : 0 < quantity)
    (h : spentOnLevel request quantity level = .ok spent) :
    spent = grossMicros (quantity, level.price) := by
  unfold spentOnLevel at h
  rw [if_pos hcash, @grossCashMicros_eq (quantity, level.price) ⟨hpositive, level.price_range⟩] at h
  exact (Except.ok.inj h).symm

theorem grossMicros_le {fill : ℤ × ℤ} (h : fill.1 * fill.2 ≤ 100 * cash) :
    grossMicros fill ≤ cash := by
  unfold grossMicros
  split <;> omega

/-- Nothing is rounded at a price of whole hundreds. -/
theorem grossMicros_of_dvd {fill : ℤ × ℤ} (h : 100 ∣ fill.2) :
    100 * grossMicros fill = fill.1 * fill.2 := by
  have hwhole : 100 ∣ fill.1 * fill.2 := Dvd.dvd.mul_left h _
  unfold grossMicros
  split <;> omega

theorem grossMicros_zero (price : ℤ) : grossMicros (0, price) = 0 := by
  simp [grossMicros]

theorem plannedGross_cons (item : PlannedFill) (later : List PlannedFill) :
    plannedGross (item :: later) = grossMicros item.fill + plannedGross later := rfl

/-- The fills of a plan for cash are worth no more than the cash. -/
theorem TakesFrom.plannedGross_le (h : TakesFrom request index remaining cash levels planned)
    (hcash : request.amountType = .cash) (hnonneg : 0 ≤ cash) : plannedGross planned ≤ cash := by
  induction h with
  | done => exact hnonneg
  | skip _ _ ih => exact ih hnonneg
  | @last _ remaining cash level _ _ _ _ =>
      rw [plannedGross_cons]
      have hgross : grossMicros (levelQuantity request remaining cash level, level.price) ≤ cash :=
        grossMicros_le (levelQuantity_mul_le hcash hnonneg remaining level)
      exact (add_zero _).le.trans hgross
  | @take _ remaining cash spent level _ later _ positive _ spends _ ih =>
      obtain rfl := spentOnLevel_cash hcash positive spends
      have hgross : grossMicros (levelQuantity request remaining cash level, level.price) ≤ cash :=
        grossMicros_le (levelQuantity_mul_le hcash hnonneg remaining level)
      have hlater := ih (sub_nonneg.mpr hgross)
      rw [plannedGross_cons]
      simp only [PlannedFill.fill]
      omega

/-! ## Better levels first -/

theorem unitsAt_cons (item : PlannedFill) (later : List PlannedFill) (levelIndex : ℤ) :
    unitsAt (item :: later) levelIndex =
      (if item.levelIndex = levelIndex then item.contractUnits else 0) +
        unitsAt later levelIndex := by
  unfold unitsAt plannedUnits
  rw [List.filter_cons]
  by_cases hsame : item.levelIndex = levelIndex <;> simp [hsame]

theorem spentBefore_cons (item : PlannedFill) (later : List PlannedFill) (levelIndex : ℤ) :
    spentBefore (item :: later) levelIndex =
      (if item.levelIndex < levelIndex then grossMicros item.fill else 0) +
        spentBefore later levelIndex := by
  unfold spentBefore
  rw [List.filter_cons]
  by_cases hbefore : item.levelIndex < levelIndex <;> simp [hbefore, plannedGross_cons]

/-- When a fill is planned at a later level, a level within the limit is used up: all of it is
taken, or what was left of the amount pays for no further unit of it. -/
theorem TakesFrom.usedUp (h : TakesFrom request index remaining cash levels planned)
    {position : ℕ} {level : CanonicalLevel} (hlevel : levels[position]? = some level)
    (hwithin : beyondLimit request level = false)
    (hlater : ∃ item ∈ planned, (index : ℤ) + position + 1 < item.levelIndex) :
    unitsAt planned (index + position + 1) = level.quantity ∨
      request.amountType = .cash ∧
        100 * (cash - spentBefore planned (index + position + 1)) <
          (unitsAt planned (index + position + 1) + 1) * level.price := by
  induction h generalizing position with
  | done => simp at hlater
  | @skip index remaining cash other rest planned none hrest ih =>
      cases position with
      | zero =>
          obtain rfl : other = level := Option.some.inj hlevel
          have hnothing : levelQuantity request remaining cash other ≤ 0 :=
            none.resolve_left (by simp [hwithin])
          rw [Nat.cast_zero, add_zero] at hlater ⊢
          rw [unitsAt_of_lt hrest (by push_cast; omega),
            spentBefore_of_lt hrest (by push_cast; omega)]
          rcases levelQuantity_most request remaining cash other with
            hall | hwanted | ⟨hcash, hmost⟩
          · have := other.quantity_pos
            omega
          · obtain ⟨item, hmem, -⟩ := hlater
            rw [hrest.nil_of_exhausted hwanted hnothing] at hmem
            cases hmem
          · refine .inr ⟨hcash, ?_⟩
            have hone := mul_le_mul_of_nonneg_right hnothing other.price_range.1
            linarith
      | succ position =>
          have hposition : (index : ℤ) + (position + 1 : ℕ) + 1 =
              ((index + 1 : ℕ) : ℤ) + position + 1 := by
            push_cast
            ring
          rw [hposition] at hlater ⊢
          exact ih hlevel hlater
  | @last index remaining cash other rest _ _ _ =>
      obtain ⟨item, hmem, hlt⟩ := hlater
      rw [List.mem_singleton.mp hmem] at hlt
      dsimp only at hlt
      omega
  | @take index remaining cash spent other rest later _ positive wanting spends hrest ih =>
      cases position with
      | zero =>
          obtain rfl : other = level := Option.some.inj hlevel
          rw [Nat.cast_zero, add_zero, unitsAt_cons, spentBefore_cons, if_pos rfl,
            if_neg (lt_irrefl _), unitsAt_of_lt hrest (by push_cast; omega),
            spentBefore_of_lt hrest (by push_cast; omega), add_zero, add_zero, sub_zero]
          rcases levelQuantity_most request remaining cash other with hall | hwanted | hpaid
          · exact .inl hall
          · exact absurd hwanted wanting
          · exact .inr hpaid
      | succ position =>
          have hposition : (index : ℤ) + (position + 1 : ℕ) + 1 =
              ((index + 1 : ℕ) : ℤ) + position + 1 := by
            push_cast
            ring
          rw [hposition] at hlater ⊢
          have hlater' : ∃ item ∈ later,
              ((index + 1 : ℕ) : ℤ) + position + 1 < item.levelIndex := by
            obtain ⟨item, hmem, hlt⟩ := hlater
            rcases List.mem_cons.mp hmem with rfl | hmem
            · push_cast at hlt
              omega
            · exact ⟨item, hmem, hlt⟩
          rw [unitsAt_cons, spentBefore_cons, if_neg (by push_cast; omega),
            if_pos (by push_cast; omega), zero_add]
          refine (ih hlevel hlater').imp_right fun ⟨hcash, hmost⟩ => ⟨hcash, ?_⟩
          rw [spentOnLevel_cash hcash positive spends] at hmost
          simp only [PlannedFill.fill]
          rw [← sub_sub]
          exact hmost

/-- The value of what is planned before the next level. -/
theorem TakesFrom.spentBefore_next (h : TakesFrom request index remaining cash levels planned)
    {position : ℕ} {level : CanonicalLevel} (hlevel : levels[position]? = some level) :
    spentBefore planned (index + position + 2) = spentBefore planned (index + position + 1) +
      grossMicros (unitsAt planned (index + position + 1), level.price) := by
  induction h generalizing position with
  | done => simp at hlevel
  | @skip index remaining cash other rest planned _ hrest ih =>
      cases position with
      | zero =>
          rw [Nat.cast_zero, add_zero, unitsAt_of_lt hrest (by push_cast; omega),
            spentBefore_of_lt hrest (by push_cast; omega),
            spentBefore_of_lt hrest (by push_cast; omega), grossMicros_zero, add_zero]
      | succ position =>
          have hnext := ih hlevel
          push_cast at hnext ⊢
          rw [← add_assoc (index : ℤ), add_right_comm (index : ℤ)]
          exact hnext
  | @last index remaining cash other rest _ _ _ =>
      cases position with
      | zero =>
          obtain rfl : other = level := Option.some.inj hlevel
          rw [Nat.cast_zero, add_zero, unitsAt_cons, spentBefore_cons, spentBefore_cons,
            if_pos rfl, if_pos (by simp), if_neg (lt_irrefl _)]
          simp [unitsAt, plannedUnits, spentBefore, plannedGross, PlannedFill.fill]
      | succ position =>
          rw [unitsAt_cons, spentBefore_cons, spentBefore_cons, if_pos (by push_cast; omega),
            if_pos (by push_cast; omega), if_neg (by push_cast; omega)]
          simp [unitsAt, plannedUnits, spentBefore, plannedGross, grossMicros_zero]
  | @take index remaining cash spent other rest later _ _ _ _ hrest ih =>
      cases position with
      | zero =>
          obtain rfl : other = level := Option.some.inj hlevel
          rw [Nat.cast_zero, add_zero, unitsAt_cons, spentBefore_cons, spentBefore_cons,
            if_pos rfl, if_pos (by simp), if_neg (lt_irrefl _),
            unitsAt_of_lt hrest (by push_cast; omega),
            spentBefore_of_lt hrest (by push_cast; omega),
            spentBefore_of_lt hrest (by push_cast; omega), add_zero, add_zero, add_zero, zero_add]
          rfl
      | succ position =>
          have hnext := ih hlevel
          rw [unitsAt_cons, spentBefore_cons, spentBefore_cons, if_pos (by push_cast; omega),
            if_pos (by push_cast; omega), if_neg (by push_cast; omega), zero_add]
          push_cast at hnext ⊢
          rw [← add_assoc (index : ℤ), add_right_comm (index : ℤ), hnext]
          exact (add_assoc _ _ _).symm

/-- No more is taken of a level than it has. -/
theorem TakesFrom.unitsAt_le (h : TakesFrom request index remaining cash levels planned)
    {position : ℕ} {level : CanonicalLevel} (hlevel : levels[position]? = some level) :
    unitsAt planned (index + position + 1) ≤ level.quantity := by
  induction h generalizing position with
  | done => simp at hlevel
  | @skip index remaining cash other rest planned _ hrest ih =>
      cases position with
      | zero =>
          rw [Nat.cast_zero, add_zero, unitsAt_of_lt hrest (by push_cast; omega)]
          exact level.quantity_pos.le
      | succ position =>
          have hnext := ih hlevel
          push_cast at hnext ⊢
          rw [← add_assoc (index : ℤ), add_right_comm (index : ℤ)]
          exact hnext
  | @last index remaining cash other rest _ _ _ =>
      cases position with
      | zero =>
          obtain rfl : other = level := Option.some.inj hlevel
          rw [Nat.cast_zero, add_zero, unitsAt_cons, if_pos rfl]
          exact (add_zero _).le.trans (levelQuantity_le request remaining cash other).1
      | succ position =>
          rw [unitsAt_cons, if_neg (by push_cast; omega), zero_add]
          exact level.quantity_pos.le
  | @take index remaining cash spent other rest later _ _ _ _ hrest ih =>
      cases position with
      | zero =>
          obtain rfl : other = level := Option.some.inj hlevel
          rw [Nat.cast_zero, add_zero, unitsAt_cons, if_pos rfl,
            unitsAt_of_lt hrest (by push_cast; omega), add_zero]
          exact (levelQuantity_le request remaining cash other).1
      | succ position =>
          have hnext := ih hlevel
          rw [unitsAt_cons, if_neg (by push_cast; omega), zero_add]
          push_cast at hnext ⊢
          rw [← add_assoc (index : ℤ), add_right_comm (index : ℤ)]
          exact hnext

theorem PricedBefore.worsePrice {action : Side} {first second : CanonicalLevel}
    (h : PricedBefore action first second) : WorsePrice action second.price first.price := by
  cases action <;> exact h

theorem FillsLevel.mem {item : PlannedFill} {position : ℕ} {level : CanonicalLevel}
    (h : FillsLevel request levels index item position level) : level ∈ levels :=
  List.mem_of_getElem? h.found

/-- Where the levels come in the order of their prices, so do the fills. -/
theorem TakesFrom.worsening (h : TakesFrom request index remaining cash levels planned)
    {action : Side} (hpriced : levels.Pairwise (PricedBefore action)) :
    planned.Pairwise fun first second =>
      WorsePrice action second.priceMicros first.priceMicros := by
  induction h with
  | done => exact .nil
  | skip _ _ ih => exact ih (List.Pairwise.of_cons hpriced)
  | last => exact List.pairwise_singleton _ _
  | take _ _ _ _ hrest ih =>
      rw [List.pairwise_cons] at hpriced
      refine .cons (fun item hmem => ?_) (ih hpriced.2)
      obtain ⟨position, other, hfills⟩ := hrest.fillsLevel item hmem
      rw [hfills.price]
      exact (hpriced.1 other hfills.mem).worsePrice

end Run

/-! ## The audit -/

theorem consumedAt_eq_unitsAt {planned : List PlannedFill}
    (h : (planned.map fun item => item.levelIndex).Nodup) (levelIndex : ℤ) :
    HaircutAudit.consumedAt (planned.map fun item => (item.levelIndex, item.contractUnits))
      levelIndex = unitsAt planned levelIndex := by
  induction planned with
  | nil => rfl
  | cons item later ih =>
      rw [List.map_cons, List.nodup_cons] at h
      rw [List.map_cons, consumedAt_cons, unitsAt_cons]
      by_cases hsame : item.levelIndex = levelIndex
      · have hnone : unitsAt later levelIndex = 0 := by
          unfold unitsAt
          rw [List.filter_eq_nil_iff.mpr]
          · rfl
          · intro other hmem
            simp only [decide_eq_true_eq]
            intro hother
            apply h.1
            exact List.mem_map.mpr ⟨other, hmem, hother.trans hsame.symm⟩
        rw [if_pos hsame, if_pos hsame, hnone, add_zero]
      · rw [if_neg hsame, if_neg hsame, zero_add]
        exact ih h.2

/-- A level of an audit after the fills of a plan. -/
def HaircutLevelAudit.after (planned : List PlannedFill) (level : HaircutLevelAudit) :
    HaircutLevelAuditFields :=
  { level.toHaircutLevelAuditFields with
    consumedQuantityUnits := unitsAt planned level.levelIndex
    cancelledQuantityUnits := 0 }

/-- What an audit is after the fills of a plan: every level has consumed what is planned at it,
nothing else has changed, and the quantities of every level and of the whole add up. -/
structure HaircutAudit.Takes (audit : HaircutAudit) (planned : List PlannedFill)
    (updated : HaircutAudit) : Prop where
  levels : updated.levels.map HaircutLevelAudit.toHaircutLevelAuditFields =
    audit.levels.map (HaircutLevelAudit.after planned)
  raw : updated.rawQuantityUnits = audit.rawQuantityUnits
  ignored : updated.ignoredQuantityUnits = audit.ignoredQuantityUnits
  effective : updated.effectiveQuantityUnits = audit.effectiveQuantityUnits
  levels_balanced : ∀ level ∈ updated.levels,
    level.rawQuantityUnits = level.ignoredQuantityUnits + level.effectiveQuantityUnits ∧
      level.effectiveQuantityUnits = level.consumedQuantityUnits + level.remainingQuantityUnits
  balanced : updated.rawQuantityUnits =
      updated.ignoredQuantityUnits + updated.effectiveQuantityUnits ∧
    updated.effectiveQuantityUnits =
      updated.consumedQuantityUnits + updated.remainingQuantityUnits

theorem HaircutAudit.afterFills_takes {audit updated : HaircutAudit} {index : ℕ}
    {planned : List PlannedFill} {levels : List CanonicalLevel} {requestedUnits : ℤ}
    (hplans : PlansFrom index planned levels)
    (h : audit.afterFills (consumedByLevel planned) requestedUnits = .ok updated) :
    audit.Takes planned updated := by
  obtain ⟨-, h⟩ := Checks.ite_error_eq_ok.mp h
  obtain ⟨filled, hfilled, h⟩ := Checks.bind_eq_ok.mp h
  obtain ⟨-, h⟩ := Checks.ite_error_eq_ok.mp h
  have hfields := HaircutAudit.make_eq_ok_iff.mp h
  have hvalid := HaircutAudit.postInit_eq_ok_iff.mp updated.valid
  constructor
  case levels =>
    rw [hfields, ← List.forall₂_eq_eq_eq, List.forall₂_map_left_iff, List.forall₂_map_right_iff]
    refine ((Checks.mapM_eq_ok_iff.mp hfilled).imp fun level after hafter => ?_).flip
    show after.toHaircutLevelAuditFields = level.after planned
    rw [(HaircutAudit.levelAfterFills_eq_ok_iff.mp hafter).2]
    unfold HaircutAudit.filledLevel HaircutLevelAudit.after
    rw [hplans.consumedByLevel_eq, consumedAt_eq_unitsAt hplans.nodup_levelIndex]
  case raw => rw [hfields]
  case ignored => rw [hfields]
  case effective => rw [hfields]
  case levels_balanced =>
    intro level _
    have hlevel := HaircutLevelAudit.postInit_eq_ok_iff.mp level.valid
    unfold HaircutLevelAudit.remainingQuantityUnits
    omega
  case balanced => omega

/-- A plan of the levels that a haircut leaves is taken by the audit of the haircut. -/
theorem HaircutTaken.takes {best : CanonicalLevel} {levels : List CanonicalLevel}
    {audit : HaircutAudit} (h : HaircutTaken best levels audit) {planned : List PlannedFill}
    (hplans : PlansFrom 0 planned levels) {requestedUnits : ℤ}
    (hrequested : plannedUnits planned ≤ requestedUnits) :
    ∃ updated, audit.afterFills (consumedByLevel planned) requestedUnits = .ok updated ∧
      audit.Takes planned updated := by
  obtain ⟨updated, hupdated⟩ := h.afterFills_isOk hplans hrequested
  exact ⟨updated, hupdated, HaircutAudit.afterFills_takes hplans hupdated⟩

/-! ## A plan on a book -/

/-- What is left of the amount when a level is reached pays for what is planned at the level and
for another unit, at what these are worth before rounding. -/
def PaysExactly (request : OrderRequest) (planned : List PlannedFill) (levelIndex : ℤ)
    (level : CanonicalLevel) : Prop :=
  (unitsAt planned levelIndex + 1) * level.price ≤
    100 * (request.amount - spentBefore planned levelIndex)

/-- What is left of the amount after a level pays for the gross value of another unit of it. -/
def PaysAfter (request : OrderRequest) (planned : List PlannedFill) (levelIndex : ℤ)
    (level : CanonicalLevel) : Prop :=
  grossMicros (1, level.price) ≤ request.amount - spentBefore planned (levelIndex + 1)

/-- Another unit of a level is admitted after what is planned up to it: the level has one, the
order still wants one, and the amount pays for it. -/
structure AdmitsAnother (pays : OrderRequest → List PlannedFill → ℤ → CanonicalLevel → Prop)
    (request : OrderRequest) (position : Option ContractPosition) (planned : List PlannedFill)
    (levelIndex : ℤ) (level : CanonicalLevel) : Prop where
  available : unitsAt planned levelIndex < level.quantity
  wanted : ∀ units ∈ planTarget request position,
    plannedUnits (planned.filter fun item => item.levelIndex ≤ levelIndex) < units
  paid : request.amountType = .cash → pays request planned levelIndex level

/-- A level is used, of those within the limit, only when a better one admits no further unit. -/
def BetterFirst (pays : OrderRequest → List PlannedFill → ℤ → CanonicalLevel → Prop)
    (request : OrderRequest) (position : Option ContractPosition) (levels : List CanonicalLevel)
    (planned : List PlannedFill) : Prop :=
  ∀ (place : ℕ) level, levels[place]? = some level → beyondLimit request level = false →
    (∃ item ∈ planned, (place : ℤ) + 1 < item.levelIndex) →
    ¬ AdmitsAnother pays request position planned (place + 1) level

/-- A plan on a side of a book, of which the haircut leaves some levels. -/
structure PlanOnBook (request : OrderRequest) (position : Option ContractPosition)
    (side levels : List CanonicalLevel) (planned : List PlannedFill) : Prop where
  excluded : ∃ best, side.take 6 = best :: levels ∧ ∀ item ∈ planned,
    WorsePrice request.action item.priceMicros best.price
  fills : ∀ item ∈ planned, ∃ place level, FillsLevel request levels 0 item place level
  available : ∀ (place : ℕ) level, levels[place]? = some level →
    unitsAt planned (place + 1) ≤ level.quantity
  worsening : planned.Pairwise fun first second =>
    WorsePrice request.action second.priceMicros first.priceMicros
  betterFirst : BetterFirst PaysExactly request position levels planned
  betterFirst_whole : BetterFirst (fun request planned levelIndex level =>
    100 ∣ level.price ∧ PaysAfter request planned levelIndex level) request position levels planned
  bought : request.amountType = .contracts → request.action = .buy →
    plannedUnits planned = min request.amount (depth (withinLimit request levels))
  sold : request.amountType = .contracts → request.action = .sell → ∀ current ∈ position,
    plannedUnits planned =
      min (min request.amount current.contractUnits) (depth (withinLimit request levels))
  cash : request.amountType = .cash → plannedGross planned ≤ request.amount
  owned : request.action = .sell → ∀ current ∈ position,
    plannedUnits planned ≤ current.contractUnits

theorem OrderRequest.cashAmountMicros_of_cash {request : OrderRequest}
    (h : request.amountType = .cash) : request.cashAmountMicros = some request.amount :=
  if_pos h

theorem planTarget_of_buy {request : OrderRequest} (h : request.action = .buy)
    (position : Option ContractPosition) :
    planTarget request position = request.contractUnits := by
  unfold planTarget
  rw [h]

theorem planTarget_of_sell {request : OrderRequest} (h : request.action = .sell)
    (hcontracts : request.amountType = .contracts) (current : ContractPosition) :
    planTarget request (some current) = some (min request.amount current.contractUnits) := by
  unfold planTarget
  rw [h]
  simp only [OrderRequest.contractUnits_of_contracts hcontracts, Option.elim_some]

theorem applyBestLevelHaircut_captured {orderBook : CanonicalOrderBook} {outcome : OutcomeSide}
    {action : Side} {levels : List CanonicalLevel} {audit : HaircutAudit}
    (h : applyBestLevelHaircut orderBook outcome action = .ok (levels, audit)) :
    ∃ best, (orderBook.executedSide outcome action).take 6 = best :: levels := by
  unfold applyBestLevelHaircut at h
  simp only at h
  split at h
  next => cases h
  next best effective hcaptured =>
    obtain ⟨-, h⟩ := Checks.ite_error_eq_ok.mp h
    obtain ⟨-, h⟩ := Checks.ite_error_eq_ok.mp h
    obtain ⟨audits, -, h⟩ := Checks.bind_eq_ok.mp h
    obtain ⟨audit', -, h⟩ := Checks.bind_eq_ok.mp h
    cases h
    exact ⟨best, hcaptured⟩

section Planned

variable {request : OrderRequest} {position : Option ContractPosition}
  {levels : List CanonicalLevel} {planned : List PlannedFill}

/-- What a plan leaves of the levels before its last one. -/
theorem betterFirst_of_plan
    (h : TakesFrom request 0 (planTarget request position) (request.cashAmountMicros.getD 0) levels
      planned) :
    BetterFirst PaysExactly request position levels planned ∧
      BetterFirst (fun request planned levelIndex level =>
        100 ∣ level.price ∧ PaysAfter request planned levelIndex level) request position levels
        planned := by
  have husedUp : ∀ (place : ℕ) level, levels[place]? = some level →
      beyondLimit request level = false →
      (∃ item ∈ planned, (place : ℤ) + 1 < item.levelIndex) →
      unitsAt planned (place + 1) = level.quantity ∨ request.amountType = .cash ∧
        100 * (request.amount - spentBefore planned (place + 1)) <
          (unitsAt planned (place + 1) + 1) * level.price := by
    intro place level hlevel hwithin hlater
    have husedUp := h.usedUp hlevel hwithin
    rw [Nat.cast_zero, zero_add] at husedUp
    refine (husedUp hlater).imp_right fun ⟨hcash, hmost⟩ => ⟨hcash, ?_⟩
    rw [OrderRequest.cashAmountMicros_of_cash hcash, Option.getD_some] at hmost
    exact hmost
  constructor
  · intro place level hlevel hwithin hlater hadmits
    rcases husedUp place level hlevel hwithin hlater with hall | ⟨hcash, hmost⟩
    · exact absurd hall hadmits.available.ne
    · exact absurd (hadmits.paid hcash) (not_le.mpr hmost)
  · intro place level hlevel hwithin hlater hadmits
    rcases husedUp place level hlevel hwithin hlater with hall | ⟨hcash, hmost⟩
    · exact absurd hall hadmits.available.ne
    · obtain ⟨hwhole, hpays⟩ := hadmits.paid hcash
      have hnext := h.spentBefore_next hlevel
      rw [Nat.cast_zero, zero_add] at hnext
      unfold PaysAfter at hpays
      rw [add_assoc, show (1 : ℤ) + 1 = 2 from rfl, hnext] at hpays
      have hone := @grossMicros_of_dvd (1, level.price) hwhole
      have hunits := @grossMicros_of_dvd (unitsAt planned (place + 1), level.price) hwhole
      dsimp only at hone hunits
      rw [add_mul] at hmost
      omega

end Planned

/-- On every book that the haircut accepts an order is planned, and the audit of the haircut takes
the plan, and what the cash budget leaves of it. -/
theorem applyBestLevelHaircut_planned (request : OrderRequest)
    (position : Option ContractPosition) (orderBook : CanonicalOrderBook)
    {levels : List CanonicalLevel} {audit : HaircutAudit}
    (h : applyBestLevelHaircut orderBook request.outcome request.action = .ok (levels, audit)) :
    ∃ planned, plan request levels position = .ok planned ∧
      PlanOnBook request position (orderBook.executedSide request.outcome request.action) levels
        planned ∧
      (∃ updated, audit.afterFills (consumedByLevel planned)
          (request.contractUnits.getD (plannedUnits planned)) = .ok updated ∧
        audit.Takes planned updated) ∧
      ∀ portfolio policy, ∃ items calculations,
        fitCashBudget request portfolio planned policy = .ok (items, calculations) ∧
        ∃ updated, audit.afterFills (consumedByLevel items)
            (request.contractUnits.getD (plannedUnits items)) = .ok updated ∧
          audit.Takes items updated := by
  obtain ⟨planned, hplan, hplans, hasked, howned⟩ := plan_isOk request levels position
  have htakes := TakesFrom.of_planLevels hplan
  obtain ⟨best, hcaptured⟩ := applyBestLevelHaircut_captured h
  have hside := executedSide_pricedBefore orderBook request.outcome request.action
  have hpriced : (best :: levels).Pairwise (PricedBefore request.action) := by
    rw [← hcaptured]
    exact hside.sublist (List.take_sublist 6 _)
  rw [List.pairwise_cons] at hpriced
  have htaken : ∃ best, HaircutTaken best levels audit := by
    rcases applyBestLevelHaircut_cases orderBook request.outcome request.action with
      ⟨message, herror⟩ | ⟨best, levels', audit', hok, htaken⟩
    · rw [herror] at h
      cases h
    · rw [hok] at h
      cases h
      exact ⟨best, htaken⟩
  obtain ⟨captured, htaken⟩ := htaken
  have hrequested : ∀ items, plannedUnits items ≤ plannedUnits planned →
      plannedUnits items ≤ request.contractUnits.getD (plannedUnits items) := by
    intro items hless
    cases hunits : request.contractUnits with
    | none => exact le_refl _
    | some units => exact hless.trans (hasked units hunits)
  refine ⟨planned, hplan, ?_, htaken.takes hplans (hrequested planned (le_refl _)), ?_⟩
  · obtain ⟨hbetter, hwhole⟩ := betterFirst_of_plan htakes
    constructor
    case excluded =>
      refine ⟨best, hcaptured, fun item hmem => ?_⟩
      obtain ⟨place, level, hfills⟩ := htakes.fillsLevel item hmem
      rw [hfills.price]
      exact (hpriced.1 level hfills.mem).worsePrice
    case fills => exact htakes.fillsLevel
    case available =>
      intro place level hlevel
      have hunits := htakes.unitsAt_le hlevel
      rw [Nat.cast_zero, zero_add] at hunits
      exact hunits
    case worsening => exact htakes.worsening hpriced.2
    case betterFirst => exact hbetter
    case betterFirst_whole => exact hwhole
    case bought =>
      intro hcontracts hbuy
      unfold plan at hplan
      rw [planTarget_of_buy hbuy, OrderRequest.contractUnits_of_contracts hcontracts] at hplan
      exact plannedUnits_contracts hcontracts request.amount_pos.le hplan
    case sold =>
      rintro hcontracts hsell current rfl
      unfold plan at hplan
      rw [planTarget_of_sell hsell hcontracts] at hplan
      apply plannedUnits_contracts hcontracts _ hplan
      exact le_min request.amount_pos.le current.contractUnits_nonneg
    case cash =>
      intro hcash
      have hgross := htakes.plannedGross_le hcash
      rw [OrderRequest.cashAmountMicros_of_cash hcash, Option.getD_some] at hgross
      exact hgross request.amount_pos.le
    case owned => exact howned
  · intro portfolio policy
    obtain ⟨items, calculations, hfitted, hkept, hless, -⟩ :=
      fitCashBudget_isOk request portfolio policy hplans
    exact ⟨items, calculations, hfitted, htaken.takes hkept (hrequested items hless)⟩

namespace Sample

/-- A book of prices with fractions of a hundredth of a cent. -/
def fineBook : CanonicalOrderBook :=
  { book with
    yesAsks := [level 400080 (by decide), level 400090 (by decide), level 400100 (by decide)]
    yesAsks_ascending := by simp [level] }

/-- A purchase for an amount of cash. -/
def cashPurchase : OrderRequest :=
  { request (market, .yes) .buy 28006 (by decide) with amountType := .cash }

end Sample

set_option maxRecDepth 10000 in
/-- What is left after the first level pays for another of its units, and is spent on the second
level. -/
theorem applyBestLevelHaircut_planned_worse :
    ∃ levels audit planned,
      applyBestLevelHaircut Sample.fineBook Sample.cashPurchase.outcome Sample.cashPurchase.action =
        .ok (levels, audit) ∧
      plan Sample.cashPurchase levels none = .ok planned ∧
      planned = [⟨1, 400090, 6⟩, ⟨2, 400100, 1⟩] ∧
      ¬ BetterFirst PaysAfter Sample.cashPurchase none levels planned := by
  obtain ⟨⟨levels, audit⟩, hhaircut, hlevels⟩ := Checks.exists_ok_of_any
    (applyBestLevelHaircut Sample.fineBook Sample.cashPurchase.outcome Sample.cashPurchase.action)
    (fun left => left.1 = [Sample.level 400090 (by decide), Sample.level 400100 (by decide)])
    (by decide +kernel)
  obtain rfl : levels = _ := of_decide_eq_true hlevels
  refine ⟨_, audit, [⟨1, 400090, 6⟩, ⟨2, 400100, 1⟩], hhaircut, by decide +kernel, rfl, ?_⟩
  intro hbetter
  apply hbetter 0 (Sample.level 400090 (by decide)) rfl (by decide)
    ⟨⟨2, 400100, 1⟩, by simp, by decide⟩
  exact ⟨by decide +kernel, by simp [planTarget_of_buy, Sample.cashPurchase, Sample.request,
    OrderRequest.contractUnits], fun _ => by unfold PaysAfter; decide +kernel⟩

/-- A purchase of two levels, on the sample book. -/
theorem applyBestLevelHaircut_planned_book :
    ∃ levels audit, applyBestLevelHaircut Sample.book Sample.purchase.outcome
        Sample.purchase.action = .ok (levels, audit) ∧
      ∃ planned, plan Sample.purchase levels none = .ok planned ∧
        PlanOnBook Sample.purchase none
          (Sample.book.executedSide Sample.purchase.outcome Sample.purchase.action) levels
          planned := by
  obtain ⟨⟨levels, audit⟩, hhaircut, -⟩ := Checks.exists_ok_of_any
    (applyBestLevelHaircut Sample.book Sample.purchase.outcome Sample.purchase.action)
    (fun _ => true) (by decide +kernel)
  obtain ⟨planned, hplan, hsound, -⟩ :=
    applyBestLevelHaircut_planned Sample.purchase none Sample.book hhaircut
  exact ⟨levels, audit, hhaircut, planned, hplan, hsound⟩

end VTrade
