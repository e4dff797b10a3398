/-
# The concentration check

A purchase may bring the cost basis of one market to a fixed fraction of the
account value and no further.  The fraction is compared exactly.
-/

import VTrade.Domain.Execution

namespace VTrade

/-- Exact rational concentration decision recorded with an order. -/
structure ConcentrationCheck where
  accountValueMicros : ℤ
  existingMarketBasisMicros : ℤ
  proposedMarketBasisMicros : ℤ
  numerator : ℤ
  denominator : ℤ
  approved : Bool
  rejectionCode : Option SemanticExecutionError
  deriving DecidableEq

/-- Apply the concentration rule; equality is accepted. -/
def checkMarketConcentration (accountValueMicros existingMarketBasisMicros
    proposedMarketBasisMicros numerator denominator : ℤ) : Except Raised ConcentrationCheck :=
  if accountValueMicros < 0 then .error (.valueError "account value cannot be negative")
  else if existingMarketBasisMicros < 0 ∨ proposedMarketBasisMicros < 0 then
    .error (.valueError "market basis cannot be negative")
  else if numerator ≤ 0 ∨ denominator ≤ 0 ∨ numerator > denominator then
    .error (.valueError "concentration fraction must be between zero and one")
  else
    let approved := decide ((existingMarketBasisMicros + proposedMarketBasisMicros) * denominator ≤
      accountValueMicros * numerator)
    .ok {
      accountValueMicros := accountValueMicros
      existingMarketBasisMicros := existingMarketBasisMicros
      proposedMarketBasisMicros := proposedMarketBasisMicros
      numerator := numerator
      denominator := denominator
      approved := approved
      rejectionCode := if approved then none else some .concentrationLimit }

/-- The check of proper amounts and a proper fraction raises only for a negative
account value. -/
theorem checkMarketConcentration_isOk_iff {accountValue existing proposed numerator denominator : ℤ}
    (hexisting : 0 ≤ existing) (hproposed : 0 ≤ proposed) (hnumerator : 0 < numerator)
    (hfraction : numerator ≤ denominator) :
    (∃ check, checkMarketConcentration accountValue existing proposed numerator denominator =
      .ok check) ↔ 0 ≤ accountValue := by
  unfold checkMarketConcentration
  rw [if_neg (show ¬ (existing < 0 ∨ proposed < 0) by omega),
    if_neg (show ¬ (numerator ≤ 0 ∨ denominator ≤ 0 ∨ numerator > denominator) by omega)]
  split
  next hnegative => exact ⟨fun ⟨_, h⟩ => (by cases h), fun h => absurd hnegative (not_lt.mpr h)⟩
  next hnonneg => exact ⟨fun _ => not_lt.mp hnonneg, fun _ => ⟨_, rfl⟩⟩

/-- What the check approves. -/
theorem checkMarketConcentration_approved {accountValue existing proposed numerator denominator : ℤ}
    {check : ConcentrationCheck}
    (h : checkMarketConcentration accountValue existing proposed numerator denominator =
      .ok check) :
    check.approved = decide ((existing + proposed) * denominator ≤ accountValue * numerator) := by
  unfold checkMarketConcentration at h
  split at h
  · cases h
  · split at h
    · cases h
    · split at h
      · cases h
      · cases h
        rfl

end VTrade
