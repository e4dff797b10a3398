/-
# The evidence behind an execution

A fresh context and a fee policy come with more than the broker reads: when their
parts were observed and updated, and the artifacts they were read from.  The
repository stores it with an order.
-/

import VTrade.Domain.Market

namespace VTrade

/-- What a part of the market data was read from. -/
structure RawArtifact where
  sha256 : Sha256
  byteLength : ℤ
  uri : String
  requestIdentity : Option String
  observedAt : Option Instant
  byteLength_nonneg : 0 ≤ byteLength
  uri_ne_empty : uri ≠ ""

structure WaiverEvidence where
  waived : Option Bool
  expirationTime : Option Instant
  asOf : Option Instant
  deriving DecidableEq

/-- A fee policy with what it rests on. -/
structure FeePolicyEvidence extends FeePolicySnapshot where
  effectiveFrom : Option Instant
  sourceObservedAt : Option Instant
  eventOverrideFeeType : Option String
  scheduleSha256 : Option Sha256
  waiverEvidence : Option WaiverEvidence
  rawArtifact : Option RawArtifact
  sourceArtifacts : List RawArtifact
  effective_le_asOf : ∀ effective ∈ effectiveFrom, ∀ asOf' ∈ asOf, effective ≤ asOf'
  observed_le_cutoff : ∀ observed ∈ sourceObservedAt, ∀ cutoff' ∈ cutoff, observed ≤ cutoff'

/-- A market context that was read for one execution. -/
structure FreshContext extends MarketContext where
  yesEligible : Bool
  noEligible : Bool
  marketObservedAt : Instant
  marketSourceUpdatedAt : Option Instant
  bookSourceTimestamp : Option Instant
  marketAudit : RawArtifact
  bookArtifact : RawArtifact
  feePolicyEvidence : Option FeePolicyEvidence
  feePolicy_eq : market.feePolicy = feePolicyEvidence.map FeePolicyEvidence.toFeePolicySnapshot

def FreshContext.outcomeEligible (context : FreshContext) : OutcomeSide → Bool
  | .yes => context.yesEligible
  | .no => context.noEligible

/-- Whether `uuid.UUID` takes a text: besides hyphens, braces around it and a
prefix, it is thirty-two hexadecimal digits. -/
def isUuid (text : String) : Bool :=
  let unprefixed := ["urn:".toList, "uuid:".toList].foldl (fun rest start =>
    if start.isPrefixOf rest then rest.drop start.length else rest) text.toList
  let digits := unprefixed.filter fun digit => digit ∉ ['{', '}', '-']
  digits.length = 32 ∧ digits.all fun digit => "0123456789abcdefABCDEF".toList.contains digit

end VTrade
