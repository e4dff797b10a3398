/-
# Markets, their context and their resolution

What the market side knows of one binary market at a cutoff: the market and its
order book, and later the observation that resolves it.  An observation that is
final but lacks its result or its settlement time is blocked when it is built.
-/

import VTrade.Domain.Execution

namespace VTrade

inductive MarketStatus
  | initialized
  | active
  | inactive
  | opened
  | closed
  | determined
  | disputed
  | amended
  | finalized
  | resolved
  | ambiguous
  deriving DecidableEq

/-- The statuses a binary market may be in. -/
def MarketStatus.isLifecycle (status : MarketStatus) : Bool :=
  status ∈ [initialized, active, inactive, closed, determined, disputed, amended, finalized]

inductive FeePolicyStatus
  | available
  | unsupported
  | invalid
  | unavailable
  deriving DecidableEq

structure BinaryMarket where
  key : MarketKey
  status : MarketStatus
  eligible : Bool
  priceGrid : PriceGrid
  feePolicy : Option FeePolicySnapshot
  feePolicyStatus : Option FeePolicyStatus
  feePolicyReason : Option String
  /-- The stable identifier of the observation. -/
  snapshotId : String
  status_lifecycle : status.isLifecycle = true
  reason_nonblank : ∀ reason ∈ feePolicyReason, Text.isBlank reason = false
  feePolicy_complete : ∀ feeStatus ∈ feePolicyStatus,
    if feeStatus = .available then feePolicy.isSome ∧ feePolicyReason = none
    else feePolicy = none ∧ feePolicyReason.isSome

def BinaryMarket.tradeable (market : BinaryMarket) : Bool :=
  let active := market.eligible && market.status = .active
  match market.feePolicyStatus with
  | none => active
  | some feeStatus => active && feeStatus = .available && market.feePolicy.isSome

structure MarketContext where
  market : BinaryMarket
  orderBook : CanonicalOrderBook
  same_market : market.key = orderBook.marketKey

structure ResolutionObservation where
  marketKey : MarketKey
  status : MarketStatus
  result : Option OutcomeSide
  observedAt : Instant
  settlementTs : Option Datetime
  blocked : Bool
  /-- The stable identifier of the observation. -/
  snapshotId : String
  settlementTs_aware : ∀ settlementTs' ∈ settlementTs, settlementTs'.isAware = true
  incomplete_blocked : status = .finalized → result = none ∨ settlementTs = none → blocked = true
  snapshotId_nonblank : Text.isBlank snapshotId = false

def ResolutionObservation.terminal (observation : ResolutionObservation) : Bool :=
  observation.status = .finalized && !observation.blocked

end VTrade
