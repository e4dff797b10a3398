/-
# Places in a value

A place is a part of a value together with the way to put another part there, as a reference into
a nested structure is.  If what a part weighs is added to what the rest weighs, putting a lighter
part in its place makes the value lighter.
-/

import Mathlib.Order.Basic

universe u v

/-- A part of a value and how to put another one in its place. -/
structure Place (ρ : Type u) (α : Type v) where
  value : α
  put : α → ρ

namespace Place

variable {ρ σ : Type u} {α : Type v} {size : ρ → ℕ} {outer : σ → ℕ} {weight : α → ℕ}

/-- A place of a part is a place of the whole. -/
def within (place : Place ρ α) (embed : ρ → σ) : Place σ α :=
  ⟨place.value, fun value => embed (place.put value)⟩

/-- What is put in a place adds its weight to what the rest of the value weighs. -/
def Weighs (size : ρ → ℕ) (weight : α → ℕ) (whole : ρ) (place : Place ρ α) : Prop :=
  ∀ value, size (place.put value) + weight place.value = size whole + weight value

theorem Weighs.within {whole : ρ} {place : Place ρ α} {embed : ρ → σ} {rest : ℕ}
    (h : Weighs size weight whole place) (hembed : ∀ part, outer (embed part) = size part + rest) :
    Weighs outer weight (embed whole) (place.within embed) := by
  intro value
  have hvalue : size (place.put value) + weight place.value = size whole + weight value := h value
  show outer (embed (place.put value)) + weight place.value = outer (embed whole) + weight value
  rw [hembed, hembed]
  omega

/-- A lighter part makes a lighter whole. -/
theorem Weighs.lt {whole : ρ} {place : Place ρ α} {value : α} (h : Weighs size weight whole place)
    (hlt : weight value < weight place.value) : size (place.put value) < size whole := by
  have hvalue : size (place.put value) + weight place.value = size whole + weight value := h value
  omega

end Place
