/-
# Reservations that do not match

A reconciliation under an identifier that nothing is reserved for is refused and changes nothing.
One that names another provider or estimate than the reservation it is made for is refused too,
but by then the reservation is gone: the circuit breaker no longer counts what is outstanding, and
the right reconciliation that comes after it is refused as well.
-/

import VTrade.Budget

namespace VTrade

namespace MonthlyBudgetCircuitBreaker

variable {terms : BudgetTerms} {clock : ℕ → Datetime} {breaker : MonthlyBudgetCircuitBreaker}
  {reservation : BudgetReservation} {billed nominal requests : ℤ} {credits : DecimalValue}

/-- What is raised for a reservation that is unknown or inconsistent. -/
def mismatch : BudgetFailure := .valueError "unknown or inconsistent budget reservation"

/-- The clock is in the month of the breaker. -/
def CurrentMonth (breaker : MonthlyBudgetCircuitBreaker) (clock : ℕ → Datetime) : Prop :=
  ∃ month, breaker.month = some month ∧ monthOf (clock 0) = .ok month

/-- The totals and the reservations are what they were, and what is reconciled next is answered as
it would have been. -/
structure Unharmed (terms : BudgetTerms) (before after : MonthlyBudgetCircuitBreaker) : Prop where
  billed : after.billed = before.billed
  nominal : after.nominal = before.nominal
  reserved : after.reserved = before.reserved
  answers : ∀ (clock : ℕ → Datetime) (reservation : BudgetReservation)
    (billed nominal requests : ℤ) (credits : DecimalValue),
    (after.reconcile terms clock reservation billed nominal requests credits).2 =
      (before.reconcile terms clock reservation billed nominal requests credits).2

theorem Unharmed.refl (terms : BudgetTerms) (breaker : MonthlyBudgetCircuitBreaker) :
    Unharmed terms breaker breaker :=
  ⟨rfl, rfl, rfl, fun _ _ _ _ _ _ => rfl⟩

theorem popped_of_unknown {id : String} (h : breaker.pending? id = none) :
    breaker.popped id = breaker := by
  unfold popped
  rw [KeyedList.erase_eq_self h]

/-- The checks of the arguments raise something else. -/
theorem checkReconcile_ne_mismatch :
    checkReconcile billed nominal requests credits ≠ .error mismatch := by
  unfold checkReconcile
  split
  · simp [mismatch]
  · intro h
    rcases Checks.bind_eq_error.mp h with h | ⟨negative, -, h⟩
    · unfold negativeUsage at h
      split at h
      · cases h
      · cases credits with
        | finite value => cases h
        | infinity negative => cases h
        | nan => cases h
    · cases negative with
      | false => cases h
      | true => simp [mismatch] at h

/-- In the current month a mismatch is raised for an entry that is not the reservation's, and it
leaves the breaker without that entry. -/
theorem reconcile_mismatch (hcurrent : breaker.CurrentMonth clock)
    (hraised : (breaker.reconcile terms clock reservation billed nominal requests credits).2 =
      .error mismatch) :
    (breaker.reconcile terms clock reservation billed nominal requests credits).1 =
      breaker.popped reservation.id := by
  obtain ⟨month, hmonth, hclock⟩ := hcurrent
  cases hchecks : checkReconcile billed nominal requests credits with
  | error failure =>
      unfold reconcile at hraised
      rw [hchecks] at hraised
      have hfailure : failure = mismatch := Except.error.inj hraised
      rw [hfailure] at hchecks
      exact absurd hchecks checkReconcile_ne_mismatch
  | ok _ =>
      rw [reconcile_of_checked hchecks hclock, inMonth_of_month hmonth] at hraised ⊢
      by_cases hpending : breaker.pending? reservation.id = some (entryOf reservation)
      · obtain ⟨alerted, alerts, hcounted⟩ := reconcileInMonth_of_pending terms clock hpending
          billed nominal
        rw [hcounted] at hraised
        dsimp only at hraised
        split at hraised
        · cases hraised
        · cases hraised
      · rw [reconcileInMonth_of_unknown hpending]

/-- A mismatch leaves the breaker as it was exactly when nothing was reserved under the
identifier. -/
theorem reconcile_unharmed_iff (hcurrent : breaker.CurrentMonth clock)
    (hraised : (breaker.reconcile terms clock reservation billed nominal requests credits).2 =
      .error mismatch) :
    Unharmed terms breaker
        (breaker.reconcile terms clock reservation billed nominal requests credits).1 ↔
      breaker.pending? reservation.id = none := by
  rw [reconcile_mismatch hcurrent hraised]
  constructor
  · intro hunharmed
    rw [← pending?_popped_self reservation.id]
    unfold pending?
    rw [hunharmed.reserved]
  · intro hunknown
    rw [popped_of_unknown hunknown]
    exact .refl terms breaker

end MonthlyBudgetCircuitBreaker

namespace Sample

open MonthlyBudgetCircuitBreaker

/-- A breaker that has granted the first reservation. -/
def grantedBreaker : MonthlyBudgetCircuitBreaker :=
  (start.reserve budgetTerms randomIds (fun _ => moment) "openrouter" 30000000 0 (.finite 0)).1

/-- A reservation that was never made. -/
def strangeReservation : BudgetReservation := { firstReservation with id := "strange" }

/-- The first reservation under the name of another provider. -/
def misnamedReservation : BudgetReservation := { firstReservation with provider := "exa" }

theorem grantedBreaker_current : grantedBreaker.CurrentMonth fun _ => moment :=
  ⟨(moment.year, moment.month), by decide +kernel, by decide +kernel⟩

theorem strangeReservation_raised : (grantedBreaker.reconcile budgetTerms (fun _ => moment)
    strangeReservation 0 0 0 (.finite 0)).2 = .error mismatch := by decide +kernel

theorem misnamedReservation_raised : (grantedBreaker.reconcile budgetTerms (fun _ => moment)
    misnamedReservation 0 0 0 (.finite 0)).2 = .error mismatch := by decide +kernel

end Sample

open MonthlyBudgetCircuitBreaker in
/-- Reconciling a reservation that was never made changes nothing. -/
theorem reconcile_strange : Unharmed Sample.budgetTerms Sample.grantedBreaker
    (Sample.grantedBreaker.reconcile Sample.budgetTerms (fun _ => Sample.moment)
      Sample.strangeReservation 0 0 0 (.finite 0)).1 :=
  (reconcile_unharmed_iff Sample.grantedBreaker_current Sample.strangeReservation_raised).mpr
    (by decide +kernel)

open MonthlyBudgetCircuitBreaker in
/-- Reconciling the reservation of one provider for another one takes it away. -/
theorem reconcile_misnamed :
    ¬ ∀ (terms : BudgetTerms) (clock : ℕ → Datetime) (breaker : MonthlyBudgetCircuitBreaker)
        (reservation : BudgetReservation) (billed nominal requests : ℤ) (credits : DecimalValue),
      breaker.CurrentMonth clock →
      (breaker.reconcile terms clock reservation billed nominal requests credits).2 =
        .error mismatch →
      Unharmed terms breaker
        (breaker.reconcile terms clock reservation billed nominal requests credits).1 := by
  intro h
  have hreserved := (h _ _ _ _ _ _ _ _ Sample.grantedBreaker_current
    Sample.misnamedReservation_raised).reserved
  revert hreserved
  decide +kernel

end VTrade
