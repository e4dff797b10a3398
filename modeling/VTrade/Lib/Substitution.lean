/-
# Replacing what matches

A text is read from the left: where a match starts, the match is passed over and something else is
written in its place, and what starts no match is kept.  If nothing that is written and nothing that
is kept starts a match, there is none in the result, and doing it again changes nothing.
-/

import Mathlib.Data.List.Basic

universe u

namespace Substitution

variable {α : Type u} (matched : List α → ℕ) (replacement : List α)

/-- The length of a match is that of the items which are still to be passed over. -/
def substituteFrom : ℕ → List α → List α
  | _, [] => []
  | passed + 1, _ :: rest => substituteFrom passed rest
  | 0, first :: rest =>
      match matched (first :: rest) with
      | 0 => first :: substituteFrom 0 rest
      | passed + 1 => replacement ++ substituteFrom passed rest

/-- Replace every match, from the left. -/
def substitute (items : List α) : List α := substituteFrom matched replacement 0 items

/-- Whether a match starts somewhere. -/
def occurs : List α → Bool
  | [] => false
  | first :: rest => matched (first :: rest) ≠ 0 || occurs rest

variable {matched replacement}

theorem occurs_cons {first : α} {rest : List α} : occurs matched (first :: rest) = false ↔
    matched (first :: rest) = 0 ∧ occurs matched rest = false := by
  simp [occurs]

theorem substitute_cons_of_zero {first : α} {rest : List α} (h : matched (first :: rest) = 0) :
    substitute matched replacement (first :: rest) =
      first :: substitute matched replacement rest := by
  unfold substitute
  rw [substituteFrom, h]

theorem substitute_cons_of_succ {first : α} {rest : List α} {passed : ℕ}
    (h : matched (first :: rest) = passed + 1) :
    substitute matched replacement (first :: rest) =
      replacement ++ substituteFrom matched replacement passed rest := by
  unfold substitute
  rw [substituteFrom, h]

/-- Without a match nothing is replaced. -/
theorem substitute_eq_self {items : List α} (h : occurs matched items = false) :
    substitute matched replacement items = items := by
  induction items with
  | nil => rfl
  | cons first rest ih =>
      obtain ⟨hfirst, hrest⟩ := occurs_cons.mp h
      rw [substitute_cons_of_zero hfirst, ih hrest]

/-- Nothing that is written or kept starts a match. -/
structure Settled (matched : List α → ℕ) (replacement : List α) : Prop where
  replaced : ∀ rest, occurs matched rest = false → occurs matched (replacement ++ rest) = false
  kept : ∀ first rest, matched (first :: rest) = 0 →
    matched (first :: substitute matched replacement rest) = 0

/-- There is no match in what is written, whatever is passed over first. -/
theorem Settled.occurs_substituteFrom (h : Settled matched replacement) (passed : ℕ)
    (items : List α) : occurs matched (substituteFrom matched replacement passed items) = false := by
  induction items generalizing passed with
  | nil => cases passed <;> rfl
  | cons first rest ih =>
      cases passed with
      | succ passed => exact ih passed
      | zero =>
          rw [← substitute]
          cases hmatched : matched (first :: rest) with
          | zero =>
              rw [substitute_cons_of_zero hmatched]
              exact occurs_cons.mpr ⟨h.kept first rest hmatched, ih 0⟩
          | succ passed =>
              rw [substitute_cons_of_succ hmatched]
              exact h.replaced _ (ih passed)

theorem Settled.occurs_substitute (h : Settled matched replacement) (items : List α) :
    occurs matched (substitute matched replacement items) = false :=
  h.occurs_substituteFrom 0 items

end Substitution
