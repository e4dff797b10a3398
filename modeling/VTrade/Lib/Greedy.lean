/-
# Taking in order

A wanted quantity is taken from items in order, of each as much as it has until nothing
is wanted any more.  What is taken is all that is wanted, or all that there is.
-/

import Mathlib.Algebra.BigOperators.Group.List.Basic
import Mathlib.Algebra.Order.BigOperators.Group.List
import Mathlib.Algebra.Order.Group.MinMax

namespace Greedy

universe u v

variable {α : Type u} {M : Type v} [AddCommGroup M] [LinearOrder M]

/-- What is taken of each item. -/
def take (quantity : α → M) : M → List α → List (α × M)
  | _, [] => []
  | wanted, item :: rest =>
      let taken := min (quantity item) wanted
      if taken ≤ 0 then take quantity wanted rest
      else (item, taken) :: take quantity (wanted - taken) rest

/-- All that some items have. -/
def total (quantity : α → M) (items : List α) : M := (items.map quantity).sum

variable {quantity : α → M}

/-- Nothing is taken when nothing is wanted. -/
theorem take_of_nonpos {wanted : M} (h : wanted ≤ 0) (items : List α) :
    take quantity wanted items = [] := by
  induction items with
  | nil => rfl
  | cons item rest ih =>
      unfold take
      rw [if_pos (min_le_of_right_le h), ih]

variable [IsOrderedAddMonoid M]

theorem total_nonneg {items : List α} (h : ∀ item ∈ items, 0 ≤ quantity item) :
    0 ≤ total quantity items :=
  List.sum_nonneg (List.forall_mem_map.mpr h)

/-- All that is wanted is taken, or all that there is. -/
theorem sum_take {wanted : M} {items : List α} (hwanted : 0 ≤ wanted)
    (hitems : ∀ item ∈ items, 0 ≤ quantity item) :
    ((take quantity wanted items).map Prod.snd).sum = min wanted (total quantity items) := by
  induction items generalizing wanted with
  | nil => exact (min_eq_right hwanted).symm
  | cons item rest ih =>
      rw [List.forall_mem_cons] at hitems
      have hrest := total_nonneg hitems.2
      have htotal : total quantity (item :: rest) = quantity item + total quantity rest := rfl
      unfold take
      dsimp only
      rw [htotal]
      split
      next hnone =>
        rw [ih hwanted hitems.2]
        rcases min_le_iff.mp hnone with hitem | hnothing
        · rw [le_antisymm hitem hitems.1, zero_add]
        · rw [le_antisymm hnothing hwanted, min_eq_left hrest,
            min_eq_left (add_nonneg hitems.1 hrest)]
      next htaken =>
        have hleft : 0 ≤ wanted - min (quantity item) wanted :=
          sub_nonneg.mpr (min_le_right _ _)
        rw [List.map_cons, List.sum_cons, ih hleft hitems.2]
        rcases le_total (quantity item) wanted with hless | hmore
        · -- The item is taken whole.
          rw [min_eq_left hless, ← min_add_add_left, add_sub_cancel]
        · -- The item has all that is wanted.
          rw [min_eq_right hmore, sub_self, min_eq_left hrest, add_zero,
            min_eq_left (hmore.trans (le_add_of_nonneg_right hrest))]

end Greedy
