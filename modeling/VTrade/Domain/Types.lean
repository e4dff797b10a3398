/-
# Market keys, price grids and canonical order books

The values the market side hands to execution.  Each carries what its
constructor checks as a field, so that a crossed grid, an unordered book or a
level without quantity cannot be built.  Money is in micro-dollars, prices are
micro-dollars for a whole contract, and quantities are hundredths of a
contract.
-/

import VTrade.Lib.Checks
import VTrade.Lib.Text
import VTrade.Domain.Datetime

namespace VTrade

/-- What the program raises, with the text of the exception. -/
inductive Raised
  | valueError (message : String)
  | liquidityEvidenceError (message : String)
  | settlementBlockedError (message : String)
  | indexError (message : String)
  | runtimeError (message : String)
  | databaseError (message : String)
  | typeError (message : String)
  /-- `OSError` with the connection and timeout errors. -/
  | osError (message : String)
  /-- `SemanticContextRefreshError`. -/
  | contextRefreshError (message : String)
  deriving DecidableEq

namespace Raised

/-- `str(exc)`. -/
def message : Raised → String
  | valueError message | liquidityEvidenceError message | settlementBlockedError message
  | indexError message | runtimeError message | databaseError message | typeError message
  | osError message | contextRefreshError message => message

/-- `isinstance(exc, ValueError)`: the evidence and settlement errors are value errors. -/
def isValueError : Raised → Bool
  | valueError _ | liquidityEvidenceError _ | settlementBlockedError _ => true
  | _ => false

/-- `isinstance(exc, LiquidityEvidenceError)`. -/
def isLiquidityEvidenceError : Raised → Bool
  | liquidityEvidenceError _ => true
  | _ => false

end Raised

/-- Whatever a computation raises is a `ValueError`. -/
abbrev RaisesValueError {α : Type} (x : Except Raised α) : Prop :=
  Checks.RaisesOnly (fun error => error.isValueError = true) x

inductive Side
  | buy
  | sell
  deriving DecidableEq

inductive OutcomeSide
  | yes
  | no
  deriving DecidableEq

namespace OutcomeSide

def value : OutcomeSide → String
  | yes => "YES"
  | no => "NO"

end OutcomeSide

/-- A market of the venue.  The namespace of the key is fixed, so the reference
is all there is to store. -/
structure MarketKey where
  marketRef : String
  nonblank : Text.isBlank marketRef = false
  deriving DecidableEq

namespace MarketKey

def canonical (key : MarketKey) : String := "kalshi" ++ ":" ++ "market" ++ ":" ++ key.marketRef

theorem canonical_injective : Function.Injective canonical := by
  rintro ⟨first, _⟩ ⟨second, _⟩ h
  have hlist : first.toList = second.toList := by
    simpa [canonical, String.toList_append] using congrArg String.toList h
  have href := String.toList_injective hlist
  subst href
  rfl

end MarketKey

/-- One outcome of one market: what a position is told apart by. -/
abbrev PositionKey := MarketKey × OutcomeSide

structure PriceRange where
  start : ℤ
  stop : ℤ
  step : ℤ
  within : 0 ≤ start ∧ start < stop ∧ stop ≤ 1000000
  step_pos : 0 < step
  aligned : (stop - start) % step = 0
  deriving DecidableEq

def PriceRange.contains (range : PriceRange) (price : ℤ) : Bool :=
  range.start ≤ price ∧ price ≤ range.stop ∧ (price - range.start) % range.step = 0

structure PriceGrid where
  ranges : List PriceRange
  nonempty : ranges ≠ []
  ordered : ranges.IsChain fun previous current => previous.stop ≤ current.start
  deriving DecidableEq

namespace PriceGrid

def contains (grid : PriceGrid) (price : ℤ) : Bool := grid.ranges.any fun range => range.contains price

def require (grid : PriceGrid) (price : ℤ) (field : String) : Except Raised ℤ :=
  if grid.contains price then .ok price
  else .error (.valueError (field ++ " is not on the market price grid"))

end PriceGrid

structure CanonicalLevel where
  price : ℤ
  quantity : ℤ
  price_range : 0 ≤ price ∧ price ≤ 1000000
  quantity_pos : 0 < quantity
  deriving DecidableEq

structure CanonicalOrderBook where
  marketKey : MarketKey
  yesBids : List CanonicalLevel
  yesAsks : List CanonicalLevel
  noBids : List CanonicalLevel
  noAsks : List CanonicalLevel
  observedAt : Instant
  cutoff : Instant
  /-- The stable identifier of the observation. -/
  snapshotId : String
  observed_le_cutoff : observedAt ≤ cutoff
  yesBids_descending : yesBids.IsChain fun left right => right.price < left.price
  yesAsks_ascending : yesAsks.IsChain fun left right => left.price < right.price
  noBids_descending : noBids.IsChain fun left right => right.price < left.price
  noAsks_ascending : noAsks.IsChain fun left right => left.price < right.price
  deriving DecidableEq

namespace CanonicalOrderBook

def bids (book : CanonicalOrderBook) : OutcomeSide → List CanonicalLevel
  | .yes => book.yesBids
  | .no => book.noBids

def asks (book : CanonicalOrderBook) : OutcomeSide → List CanonicalLevel
  | .yes => book.yesAsks
  | .no => book.noAsks

def bestBid (book : CanonicalOrderBook) (side : OutcomeSide) : Option CanonicalLevel :=
  (book.bids side).head?

def bestAsk (book : CanonicalOrderBook) (side : OutcomeSide) : Option CanonicalLevel :=
  (book.asks side).head?

end CanonicalOrderBook

end VTrade
