/-
# Fences

A resource has a holder, and a token is what it is held under.  Holding it is granted under
a token, and whoever moves the resource otherwise moves it as its holder, who may give it
up on the way.  So what moves the resource between two grants is the token of the first.
A resource that is fresh may also be made without being held.
-/

import Mathlib.Data.List.Induction

namespace Fence

universe u v

variable {τ : Type u} {ρ : Type v} (fresh : ρ → Prop)

/-- What happens to a resource without its holder, with the token that is granted. -/
inductive Granting : Option τ × ρ → Option τ × ρ → Option τ → Prop
  | idle (state : Option τ × ρ) : Granting state state none
  | make (value written : ρ) (h : fresh value) : Granting (none, value) (none, written) none
  | grant (state : Option τ × ρ) (token : τ) (value : ρ) :
      Granting state (some token, value) (some token)

/-- A move of a resource, with the token that it grants. -/
inductive Move : Option τ × ρ → Option τ × ρ → Option τ → Prop
  | granting {before after : Option τ × ρ} {granted : Option τ}
      (h : Granting fresh before after granted) : Move before after granted
  | write (token : τ) (value written : ρ) : Move (some token, value) (some token, written) none
  | release (token : τ) (value written : ρ) : Move (some token, value) (none, written) none

variable {fresh}

/-- Of two grants in a row the later one counts. -/
theorem Granting.trans {first second third : Option τ × ρ} {granted granted' : Option τ}
    (h : Granting fresh first second granted) (h' : Granting fresh second third granted') :
    Granting fresh first third (granted' <|> granted) := by
  cases h with
  | idle => simpa using h'
  | make value written hfresh =>
      cases h' with
      | idle => exact .make value written hfresh
      | make _ written' _ => exact .make value written' hfresh
      | grant _ token value' => exact .grant (none, value) token value'
  | grant _ token value =>
      cases h' with
      | idle => exact .grant first token value
      | grant _ token' value' => exact .grant first token' value'

/-- Without its holder a resource changes when it is granted, or is made. -/
theorem Granting.fresh_or_granted {before after : Option τ × ρ} {granted : Option τ}
    (h : Granting fresh before after granted) (hchanged : after.2 ≠ before.2) :
    fresh before.2 ∨ granted.isSome = true := by
  cases h with
  | idle => exact absurd rfl hchanged
  | make _ _ hfresh => exact Or.inl hfresh
  | grant _ _ _ => exact Or.inr rfl

/-- The token that was granted last. -/
def lastGrant (grants : List (Option τ)) : Option τ :=
  grants.foldl (fun last granted => granted <|> last) none

@[simp]
theorem lastGrant_singleton (granted : Option τ) : lastGrant [granted] = granted := by
  cases granted <;> rfl

theorem lastGrant_concat (grants : List (Option τ)) (granted : Option τ) :
    lastGrant (grants ++ [granted]) = (granted <|> lastGrant grants) := by
  simp [lastGrant]

theorem lastGrant_append (first second : List (Option τ)) :
    lastGrant (first ++ second) = (lastGrant second <|> lastGrant first) := by
  induction second using List.reverseRecOn with
  | nil => simp [lastGrant]
  | append_singleton second granted ih =>
      rw [← List.append_assoc, lastGrant_concat, lastGrant_concat, ih]
      cases granted <;> rfl

/-- What is held is held under the token that was granted last. -/
def HeldByLast (state : Option τ × ρ) (last : Option τ) : Prop :=
  ∀ token ∈ state.1, last = some token

/-- A move keeps it so. -/
theorem HeldByLast.move {before after : Option τ × ρ} {last granted : Option τ}
    (h : HeldByLast before last) (hmove : Move fresh before after granted) :
    HeldByLast after (granted <|> last) := by
  intro token hheld
  cases hmove with
  | granting hgranting =>
      cases hgranting with
      | idle => exact h token hheld
      | make => cases hheld
      | grant _ holder value =>
          obtain rfl := Option.some.inj hheld
          rfl
  | write holder value written => exact h token hheld
  | release holder value written => cases hheld

end Fence
