/-
# Rounding up with a carry

Costs are rounded up to multiples of a unit one after the other.  What the rounding adds to a
cost is carried, as long as the carry stays below one unit; a cost that would bring it to a unit
is charged as it is.  All that is charged is the costs and the last carry.

The carry is not monotone in where it starts: a larger one may be full before a cost that a
smaller one still takes.  What is charged is monotone in every cost all the same, since a carry
that is full is worth more than what the smaller cost saved.
-/

import Mathlib.Algebra.Order.BigOperators.Group.List
import Mathlib.Algebra.BigOperators.Group.List.Basic
import Mathlib.Algebra.Order.Ring.Int
import Mathlib.Data.Int.Basic

namespace Carry

variable (unit : ℤ)

/-- What a cost lacks to a multiple of the unit. -/
def lack (cost : ℤ) : ℤ := -cost % unit

/-- The carry after something is added by rounding, unless that would make a unit. -/
def next (carried added : ℤ) : ℤ := if carried + added < unit then carried + added else carried

/-- The carry after some costs. -/
def after (carried : ℤ) (costs : List ℤ) : ℤ :=
  costs.foldl (fun carried cost => next unit carried (lack unit cost)) carried

/-- All that is charged for some costs. -/
def charged (carried : ℤ) (costs : List ℤ) : ℤ := costs.sum + after unit carried costs

variable {unit}

@[simp]
theorem lack_zero : lack unit 0 = 0 := by simp [lack]

theorem lack_nonneg (hunit : 0 < unit) (cost : ℤ) : 0 ≤ lack unit cost :=
  Int.emod_nonneg _ hunit.ne'

theorem lack_lt (hunit : 0 < unit) (cost : ℤ) : lack unit cost < unit :=
  Int.emod_lt_of_pos _ hunit

/-- A cost and what it lacks make a multiple of the unit. -/
theorem add_lack (cost : ℤ) : cost + lack unit cost = unit * -(-cost / unit) := by
  have h := Int.emod_add_mul_ediv (-cost) unit
  unfold lack
  rw [mul_neg]
  omega

/-- Between two costs, what they lack falls as much as they grow, or the larger one reaches a
further multiple. -/
theorem lack_cases (hunit : 0 < unit) {first second : ℤ} (h : first ≤ second) :
    lack unit first = lack unit second + (second - first) ∨
      unit + lack unit first ≤ lack unit second + (second - first) := by
  have hfirst := @add_lack unit first
  have hsecond := @add_lack unit second
  have hquotient : -(-first / unit) ≤ -(-second / unit) := by
    have := Int.ediv_le_ediv hunit (show -second ≤ -first by omega)
    omega
  rcases hquotient.eq_or_lt with heq | hlt
  · left
    rw [heq] at hfirst
    omega
  · right
    have hstep : unit * (-(-first / unit) + 1) ≤ unit * -(-second / unit) :=
      mul_le_mul_of_nonneg_left hlt hunit.le
    rw [mul_add, mul_one] at hstep
    omega

theorem next_bounds {carried added : ℤ} (hadded : 0 ≤ added) (hlt : carried < unit) :
    carried ≤ next unit carried added ∧ next unit carried added < unit := by
  unfold next
  split <;> omega

theorem after_cons (carried cost : ℤ) (rest : List ℤ) :
    after unit carried (cost :: rest) = after unit (next unit carried (lack unit cost)) rest :=
  rfl

theorem after_append (carried : ℤ) (first second : List ℤ) :
    after unit carried (first ++ second) = after unit (after unit carried first) second :=
  List.foldl_append

/-- The carry never falls and stays below a unit. -/
theorem after_bounds (hunit : 0 < unit) {carried : ℤ} (hlt : carried < unit) (costs : List ℤ) :
    carried ≤ after unit carried costs ∧ after unit carried costs < unit := by
  induction costs generalizing carried with
  | nil => exact ⟨le_refl _, hlt⟩
  | cons cost rest ih =>
      obtain ⟨hle, hnext⟩ := next_bounds (lack_nonneg hunit cost) hlt
      obtain ⟨hle', hafter⟩ := ih hnext
      rw [after_cons]
      exact ⟨hle.trans hle', hafter⟩

/-- A carry that starts higher ends no further above. -/
theorem after_le_add (hunit : 0 < unit) {low high : ℤ} (h : low ≤ high) (hlt : high < unit)
    (costs : List ℤ) : after unit high costs ≤ after unit low costs + (high - low) := by
  induction costs generalizing low high with
  | nil =>
      change high ≤ low + (high - low)
      omega
  | cons cost rest ih =>
      have hadded := lack_nonneg hunit cost
      rw [after_cons, after_cons]
      generalize lack unit cost = added at hadded
      by_cases hhigh : high + added < unit
      · have hboth : low + added < unit := by omega
        have := ih (show low + added ≤ high + added by omega) hhigh
        unfold next
        rw [if_pos hhigh, if_pos hboth]
        omega
      · by_cases hlow : low + added < unit
        · -- The lower carry takes what the higher one has no room for.
          have hfull := (after_bounds hunit hlt rest).2
          have hroom := (after_bounds hunit hlow rest).1
          unfold next
          rw [if_neg hhigh, if_pos hlow]
          omega
        · unfold next
          rw [if_neg hhigh, if_neg hlow]
          exact ih h hlt

theorem charged_append (carried : ℤ) (first second : List ℤ) :
    charged unit carried (first ++ second) =
      first.sum + charged unit (after unit carried first) second := by
  unfold charged
  rw [List.sum_append, after_append, add_assoc]

theorem charged_cons (carried cost : ℤ) (rest : List ℤ) :
    charged unit carried (cost :: rest) =
      cost + charged unit (next unit carried (lack unit cost)) rest := by
  unfold charged
  rw [List.sum_cons, after_cons, add_assoc]

/-- A cost of nothing is as good as none. -/
theorem charged_cons_zero {carried : ℤ} (hlt : carried < unit) (rest : List ℤ) :
    charged unit carried (0 :: rest) = charged unit carried rest := by
  rw [charged_cons, lack_zero, next, add_zero, if_pos hlt, zero_add]

/-- A larger first cost charges more. -/
theorem charged_cons_le (hunit : 0 < unit) {carried first second : ℤ} (hnonneg : 0 ≤ carried)
    (hlt : carried < unit) (h : first ≤ second) (rest : List ℤ) :
    charged unit carried (first :: rest) ≤ charged unit carried (second :: rest) := by
  rw [charged_cons, charged_cons]
  unfold charged
  have hfirst := lack_nonneg hunit first
  have hsecond := lack_nonneg hunit second
  have hsecond' := lack_lt hunit second
  have hcases := lack_cases hunit h
  generalize lack unit first = added at hcases hfirst
  generalize lack unit second = added' at hcases hsecond hsecond'
  suffices hcarry : after unit (next unit carried added) rest ≤
      after unit (next unit carried added') rest + (second - first) by omega
  by_cases htaken' : carried + added' < unit
  · have hroom := (after_bounds hunit htaken' rest).1
    rw [show next unit carried added' = carried + added' from if_pos htaken']
    by_cases htaken : carried + added < unit
    · rw [show next unit carried added = carried + added from if_pos htaken]
      rcases hcases with hsame | hfurther
      · have := after_le_add hunit (show carried + added' ≤ carried + added by omega) htaken rest
        omega
      · have := (after_bounds hunit htaken rest).2
        omega
    · have := (after_bounds hunit hlt rest).2
      rw [show next unit carried added = carried from if_neg htaken]
      omega
  · rw [show next unit carried added' = carried from if_neg htaken']
    by_cases htaken : carried + added < unit
    · rw [show next unit carried added = carried + added from if_pos htaken]
      rcases hcases with hsame | hfurther
      · omega
      · have := after_le_add hunit (show carried ≤ carried + added by omega) htaken rest
        omega
    · rw [show next unit carried added = carried from if_neg htaken]
      omega

/-- Further costs charge no less. -/
theorem charged_le_append (hunit : 0 < unit) {carried : ℤ} (hlt : carried < unit)
    (first : List ℤ) {second : List ℤ} (hnonneg : ∀ cost ∈ second, 0 ≤ cost) :
    charged unit carried first ≤ charged unit carried (first ++ second) := by
  have hless := (after_bounds hunit hlt first).2
  have hkept := (after_bounds hunit hless second).1
  have hsum := List.sum_nonneg hnonneg
  rw [charged_append]
  unfold charged
  omega

/-- What is charged is monotone in every cost. -/
theorem charged_mono (hunit : 0 < unit) {carried first second : ℤ} (hnonneg : 0 ≤ carried)
    (hlt : carried < unit) (h : first ≤ second) (front back : List ℤ) :
    charged unit carried (front ++ first :: back) ≤
      charged unit carried (front ++ second :: back) := by
  obtain ⟨hle, hbelow⟩ := after_bounds hunit hlt front
  have := charged_cons_le hunit (hnonneg.trans hle) hbelow h back
  rw [charged_append, charged_append]
  omega

end Carry
