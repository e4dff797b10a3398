/-
# Books kept by movements

An account of money, of a running result and of holdings told apart by a key.
It changes by movements: a movement touches one holding.  It is balanced when
what it takes from cash goes into the holding's basis and fees, up to the result
it realizes, and balanced movements leave the equity of the account as it is.

A holding that ends without units is closed out: what it had realized leaves
with it, while the running result keeps the total.
-/

import Mathlib.Algebra.Group.TransferInstance
import Mathlib.Data.Finsupp.Basic
import Mathlib.Tactic.Linarith
import Mathlib.Tactic.Ring

universe u

namespace Books

/-- What is held under one key. -/
@[ext]
structure Holding where
  units : ℤ
  basis : ℤ
  fees : ℤ
  realized : ℤ
  deriving DecidableEq

namespace Holding

/-- A holding is four integers, and is added as such. -/
def equivProd : Holding ≃ ℤ × ℤ × ℤ × ℤ where
  toFun holding := (holding.units, holding.basis, holding.fees, holding.realized)
  invFun parts := ⟨parts.1, parts.2.1, parts.2.2.1, parts.2.2.2⟩
  left_inv _ := rfl
  right_inv _ := rfl

instance : AddCommGroup Holding := equivProd.addCommGroup

@[simp] theorem zero_units : (0 : Holding).units = 0 := rfl
@[simp] theorem zero_basis : (0 : Holding).basis = 0 := rfl
@[simp] theorem zero_fees : (0 : Holding).fees = 0 := rfl
@[simp] theorem zero_realized : (0 : Holding).realized = 0 := rfl

@[simp]
theorem add_units (first second : Holding) : (first + second).units = first.units + second.units :=
  rfl

@[simp]
theorem add_basis (first second : Holding) : (first + second).basis = first.basis + second.basis :=
  rfl

@[simp]
theorem add_fees (first second : Holding) : (first + second).fees = first.fees + second.fees :=
  rfl

@[simp]
theorem add_realized (first second : Holding) :
    (first + second).realized = first.realized + second.realized :=
  rfl

/-- The money a holding carries. -/
def carried (holding : Holding) : ℤ := holding.basis + holding.fees

@[simp]
theorem carried_zero : (0 : Holding).carried = 0 := rfl

theorem carried_add (first second : Holding) :
    (first + second).carried = first.carried + second.carried := by
  simp only [carried, add_basis, add_fees]
  ring

/-- A holding without units forgets what it had realized. -/
def closeOut (holding : Holding) : Holding :=
  if holding.units = 0 then { holding with realized := 0 } else holding

@[simp]
theorem closeOut_units (holding : Holding) : holding.closeOut.units = holding.units := by
  unfold closeOut
  split <;> rfl

@[simp]
theorem closeOut_basis (holding : Holding) : holding.closeOut.basis = holding.basis := by
  unfold closeOut
  split <;> rfl

@[simp]
theorem closeOut_fees (holding : Holding) : holding.closeOut.fees = holding.fees := by
  unfold closeOut
  split <;> rfl

@[simp]
theorem closeOut_carried (holding : Holding) : holding.closeOut.carried = holding.carried := by
  simp [carried]

theorem closeOut_of_units_ne_zero {holding : Holding} (h : holding.units ≠ 0) :
    holding.closeOut = holding := if_neg h

theorem closeOut_of_units_eq_zero {holding : Holding} (h : holding.units = 0) :
    holding.closeOut = { holding with realized := 0 } := if_pos h

/-- A holding at cost: what it has realized is left out. -/
def atCost (holding : Holding) : Holding := { holding with realized := 0 }

@[simp]
theorem atCost_zero : (0 : Holding).atCost = 0 := rfl

theorem atCost_add (first second : Holding) :
    (first + second).atCost = first.atCost + second.atCost := by
  ext
  · rfl
  · rfl
  · rfl
  · exact (add_zero _).symm

/-- Closing a holding out does not change it at cost. -/
@[simp]
theorem atCost_closeOut (holding : Holding) : holding.closeOut.atCost = holding.atCost := by
  ext
  · exact holding.closeOut_units
  · exact holding.closeOut_basis
  · exact holding.closeOut_fees
  · rfl

end Holding

/-- One movement on one holding. -/
@[ext]
structure Movement (κ : Type u) where
  key : κ
  cash : ℤ
  units : ℤ
  basis : ℤ
  fees : ℤ
  realized : ℤ
  deriving DecidableEq

namespace Movement

variable {κ : Type u}

/-- What a movement adds to the holding it touches. -/
def holding (movement : Movement κ) : Holding :=
  ⟨movement.units, movement.basis, movement.fees, movement.realized⟩

/-- What a movement brings in that it accounts for nowhere. -/
def imbalance (movement : Movement κ) : ℤ :=
  movement.cash + movement.basis + movement.fees - movement.realized

/-- The movement that does nothing. -/
def idle (key : κ) : Movement κ := ⟨key, 0, 0, 0, 0, 0⟩

@[simp]
theorem holding_idle (key : κ) : (idle key).holding = 0 := rfl

/-- Two movements on the holding of the first, taken together. -/
def merge (first second : Movement κ) : Movement κ where
  key := first.key
  cash := first.cash + second.cash
  units := first.units + second.units
  basis := first.basis + second.basis
  fees := first.fees + second.fees
  realized := first.realized + second.realized

theorem holding_merge (first second : Movement κ) :
    (first.merge second).holding = first.holding + second.holding := rfl

end Movement

/-- Cash, the running result and the holdings. -/
@[ext]
structure Account (κ : Type u) where
  cash : ℤ
  realized : ℤ
  holding : κ →₀ Holding

namespace Account

variable {κ : Type u}

/-- What the account is worth at cost, apart from what it has realized. -/
noncomputable def equity (account : Account κ) : ℤ :=
  account.cash + account.holding.sum (fun _ holding => holding.carried) - account.realized

/-- Apply one movement, closing the holding out when it ends without units. -/
noncomputable def post (account : Account κ) (movement : Movement κ) : Account κ where
  cash := account.cash + movement.cash
  realized := account.realized + movement.realized
  holding := account.holding.update movement.key
    (account.holding movement.key + movement.holding).closeOut

/-- A movement changes equity by its imbalance. -/
theorem equity_post (account : Account κ) (movement : Movement κ) :
    (account.post movement).equity = account.equity + movement.imbalance := by
  have hsum := Finsupp.sum_update_add account.holding movement.key
    (account.holding movement.key + movement.holding).closeOut
    (fun _ holding => holding.carried) (fun _ => Holding.carried_zero)
    (fun _ => Holding.carried_add)
  simp only [Holding.closeOut_carried, Holding.carried_add] at hsum
  have hmoved : movement.holding.carried = movement.basis + movement.fees := rfl
  simp only [equity, post, Movement.imbalance]
  linarith

theorem holding_post_self (account : Account κ) (movement : Movement κ) :
    (account.post movement).holding movement.key =
      (account.holding movement.key + movement.holding).closeOut := by
  classical
  simp [post]

theorem holding_post_of_ne (account : Account κ) {movement : Movement κ} {key : κ}
    (h : key ≠ movement.key) : (account.post movement).holding key = account.holding key := by
  classical
  simp [post, h]

/-- Nothing moves when the idle movement is posted to a holding that closing out
leaves as it is. -/
theorem post_idle (account : Account κ) (key : κ)
    (h : (account.holding key).closeOut = account.holding key) :
    account.post (Movement.idle key) = account := by
  have hkey : (Movement.idle key).key = key := rfl
  ext1
  · simp [post, Movement.idle]
  · simp [post, Movement.idle]
  · simp [post, hkey, h]

/-- Two movements on one holding are their merge, as long as the holding is not
closed out in between. -/
theorem post_post (account : Account κ) {first second : Movement κ}
    (hkey : second.key = first.key)
    (hopen : (account.holding first.key + first.holding).closeOut =
      account.holding first.key + first.holding) :
    (account.post first).post second = account.post (first.merge second) := by
  classical
  have hmiddle : (account.post first).holding second.key =
      account.holding first.key + first.holding := by
    rw [hkey, holding_post_self, hopen]
  ext1
  · simp [post, Movement.merge, add_assoc]
  · simp [post, Movement.merge, add_assoc]
  · ext1 key
    by_cases h : key = first.key
    · subst h
      rw [← hkey, holding_post_self, hmiddle, hkey,
        show first.key = (first.merge second).key from rfl, holding_post_self,
        Movement.holding_merge, add_assoc]
    · rw [holding_post_of_ne _ (by rwa [hkey]), holding_post_of_ne _ h,
        holding_post_of_ne _ (show key ≠ (first.merge second).key from h)]

/-- Apply movements in order. -/
noncomputable def postAll (account : Account κ) (movements : List (Movement κ)) : Account κ :=
  movements.foldl post account

@[simp]
theorem postAll_nil (account : Account κ) : account.postAll [] = account := rfl

theorem postAll_append (account : Account κ) (movements : List (Movement κ))
    (movement : Movement κ) :
    account.postAll (movements ++ [movement]) = (account.postAll movements).post movement := by
  simp [postAll]

/-- Balanced movements leave equity as it is. -/
theorem equity_postAll (account : Account κ) (movements : List (Movement κ))
    (balanced : ∀ movement ∈ movements, movement.imbalance = 0) :
    (account.postAll movements).equity = account.equity := by
  induction movements using List.reverseRecOn with
  | nil => rfl
  | append_singleton movements movement ih =>
      rw [postAll_append, equity_post, balanced movement (by simp), add_zero,
        ih fun other hmem => balanced other (List.mem_append_left _ hmem)]

theorem cash_postAll (account : Account κ) (movements : List (Movement κ)) :
    (account.postAll movements).cash =
      account.cash + (movements.map fun movement => movement.cash).sum := by
  induction movements using List.reverseRecOn with
  | nil => simp
  | append_singleton movements movement ih =>
      rw [postAll_append]
      simp [post, ih, add_assoc]

/-- An additive part of a holding that closing out keeps is the sum of what the
movements on that holding add to it. -/
theorem part_postAll [DecidableEq κ] (account : Account κ) (movements : List (Movement κ))
    (key : κ) (part : Holding → ℤ) (hadd : ∀ first second, part (first + second) =
      part first + part second) (hclose : ∀ holding, part holding.closeOut = part holding) :
    part ((account.postAll movements).holding key) = part (account.holding key) +
      (movements.map fun movement =>
        if movement.key = key then part movement.holding else 0).sum := by
  induction movements using List.reverseRecOn with
  | nil => simp
  | append_singleton movements movement ih =>
      rw [postAll_append, List.map_append, List.sum_append]
      by_cases h : movement.key = key
      · subst h
        rw [holding_post_self, hclose, hadd, ih]
        simp [add_assoc]
      · rw [holding_post_of_ne _ (Ne.symm h), ih]
        simp [h]

end Account

end Books
