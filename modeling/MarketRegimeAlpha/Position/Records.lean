/-
The records of the Position authority: Fills, books and trades, the
trading calendar, lots and snapshots.

# What stands for what

A timestamp is a number of microseconds, and is compared as the instant
it is; a day is the number of a calendar day. A zone is the offset it has
at each instant, and `astimezone(zone).date()` is `Zone.date`: the
calendar holds the zone its `timezone_name` names, whatever zone that
is. Prices, fees and costs are exact. Identifiers are texts. The hashes
of a record's own content, and the identities made of them, are read by
nothing here and are left out, and with them the checks that compare
them to the content they are computed from.

A dataclass that other code constructs is a structure whose proof fields
are the checks of its `__post_init__`. `PositionLot` and
`PositionSnapshot` are constructed here, so their checks are functions
that raise.
-/
import Mathlib.Data.String.Basic
import MarketRegimeAlpha.Lib.Checked
import MarketRegimeAlpha.Lib.OrderStat

namespace MarketRegimeAlpha.Position

open Lib

-- ==== the time

/-- A timestamp, in microseconds. -/
abbrev Instant := Int

abbrev Day := Int

structure Zone where
  utcOffset : Instant → Int

/-- The local date of an instant: `astimezone(zone).date()`. -/
def Zone.date (zone : Zone) (instant : Instant) : Day :=
  (instant + zone.utcOffset instant) / 86400000000

/-- `TradingCalendarArtifact`, by the dates of its sessions. -/
structure TradingCalendarArtifact where
  (artifactId market : String)
  zone : Zone
  tradingDates : List Day
  nonempty : tradingDates ≠ []
  chronological : tradingDates.Pairwise (· < ·)

namespace TradingCalendarArtifact

variable (calendar : TradingCalendarArtifact)

def contains (tradeDate : Day) : Bool := tradeDate ∈ calendar.tradingDates

variable (decisionTime : Instant)

def resolveFollowingSessionDates (count : Nat) : Except Raised (List Day) := do
  Lib.require (0 < count) (.valueError "count must be positive")
  let localDate := calendar.zone.date decisionTime
  let following := calendar.tradingDates.filter (localDate < ·)
  Lib.require (¬ following.length < count) (.lookupError (if count = 1 then
      "no later trading session exists in the identified calendar artifact"
    else
      "insufficient later trading sessions in identified calendar artifact"))
  return following.take count

def resolveNextSessionDate : Except Raised Day := do
  let following ← calendar.resolveFollowingSessionDates decisionTime 1
  match following with
  | [] => .error (.lookupError "tuple index out of range")
  | date :: _ => return date

end TradingCalendarArtifact

inductive SymbolTradingState where
  | tradable
  | suspended
  | unknown
  deriving DecidableEq

structure SymbolTradingSessionStatus where
  (statusId symbol : String)
  sessionDate : Day
  state : SymbolTradingState
  availabilityTime : Instant

-- ==== the trading

inductive TradeSide where
  | buy
  | sell
  deriving DecidableEq

/-- `fill_kind`, with the `correction_of_fill_id` that a correction must
have and an execution must not. -/
inductive FillKind where
  | execution
  | correction (correctionOfFillId : String)
  deriving DecidableEq

theorem FillKind.execution_ne (fillId : String) : FillKind.execution ≠ .correction fillId :=
  nofun

structure Fill where
  (fillId manualTradeId accountId symbol : String)
  side : TradeSide
  quantity : Nat
  (price fees : ℚ)
  (occurredAt recordedAt : Instant)
  fillKind : FillKind
  quantity_positive : 0 < quantity
  price_positive : 0 < price
  fees_nonneg : 0 ≤ fees
  recorded_after : occurredAt ≤ recordedAt
  not_self : fillKind ≠ .correction fillId
  deriving DecidableEq

inductive ManualTradeSchema where
  | manual
  | traceable
  | routeAuthorized
  | strategyAuthorized
  deriving DecidableEq

structure ManualTradeRecord where
  schemaVersion : ManualTradeSchema
  manualTradeId : String
  (positionBookId thesisId opportunityId : Option String)
  (accountId symbol : String)

structure PositionBook where
  (positionBookId accountId symbol opportunityId thesisId : String)

-- ==== the lots

/-- `_MutableLot`. Its two dates are left out by one projection and set
by the other, so they are a parameter. -/
structure MutableLot (σ : Type) where
  (sourceFillId symbol : String)
  quantityRemaining : Nat
  unitCost : ℚ
  acquiredAt : Instant
  settlement : σ

/-- `trade_date` and `sellable_from_session`. -/
structure SettlementDates where
  (tradeDate sellableFromSession : Day)

inductive LotSettlementState where
  | frozenTPlusOne
  | sellable
  | frozenMarketConstraint
  | dataInsufficient
  deriving DecidableEq

/-- The settlement fields of a `PositionLot`, all set or all left out. -/
structure LotSettlement where
  tradeDate : Day
  (availableQuantity frozenQuantity : Nat)
  sellableFromSession : Day
  settlementState : LotSettlementState
  deriving DecidableEq

structure PositionLot where
  (sourceFillId symbol : String)
  quantityRemaining : Nat
  unitCost : ℚ
  acquiredAt : Instant
  settlement : Option LotSettlement
  deriving DecidableEq

def PositionLot.postInit (lot : PositionLot) : Except Raised PositionLot := do
  Lib.require (0 < lot.quantityRemaining ∧ 0 < lot.unitCost)
    (.valueError "PositionLot quantity and cost must be positive")
  match lot.settlement with
  | none => return lot
  | some settlement => do
      Lib.require (settlement.availableQuantity + settlement.frozenQuantity = lot.quantityRemaining)
        (.valueError "PositionLot available/frozen quantity mismatch")
      Lib.require (settlement.tradeDate < settlement.sellableFromSession)
        (.valueError "PositionLot sellable session must follow trade date")
      return lot

-- ==== the snapshot

inductive PositionSnapshotSchema where
  | positionSnapshot
  | traceable
  | tPlusOne
  deriving DecidableEq

inductive PositionState where
  | openPosition
  | closedPosition
  | reconciliationRequired
  deriving DecidableEq

inductive PositionSellabilityState where
  | available
  | partiallyAvailable
  | tPlusOneFrozen
  | suspended
  | dataInsufficient
  | reconciliationRequired
  | closed
  deriving DecidableEq

structure BookTrace where
  (positionBookId thesisId opportunityId : String)
  deriving DecidableEq

/-- The T+1 fields of a snapshot. -/
structure SettlementAuthority where
  (availableQuantity frozenQuantity todayAcquiredQuantity : Int)
  sellabilityState : PositionSellabilityState
  asOfSessionDate : Day
  calendarArtifactId : String
  deriving DecidableEq

structure PositionSnapshot where
  schemaVersion : PositionSnapshotSchema
  (accountId symbol : String)
  asOf : Instant
  state : PositionState
  totalQuantity : Nat
  averageCost : Option ℚ
  realizedPnl : ℚ
  lots : List PositionLot
  (sourceFillIds effectiveFillIds : List String)
  version : Nat
  reasonCodes : List String
  trace : Option BookTrace
  sourceManualTradeIds : List String
  settlement : Option SettlementAuthority
  sourceTradingStatusIds : List String
  deriving DecidableEq

namespace PositionSnapshot

variable (s : PositionSnapshot)

def checkPosition : Except Raised Unit := do
  Lib.require (s.sourceFillIds ≠ [] ∧ s.version = s.sourceFillIds.length)
    (.valueError "PositionSnapshot version must equal source Fill count")
  Lib.require (s.totalQuantity = (s.lots.map (·.quantityRemaining)).sum)
    (.valueError "PositionSnapshot lot quantity mismatch")
  Lib.require (¬ (s.totalQuantity = 0 ∧ s.averageCost.isSome))
    (.valueError "closed Position cannot carry average cost")
  Lib.require (¬ (0 < s.totalQuantity ∧ s.averageCost = none))
    (.valueError "open Position requires average cost")
  Lib.require (¬ (s.state = .reconciliationRequired ∧ s.reasonCodes = []))
    (.valueError "reconciliation Position requires reason_codes")

def checkUntraced : Except Raised Unit := do
  Lib.require (s.trace = none ∧ s.sourceManualTradeIds = [])
    (.valueError "V1 PositionSnapshot cannot carry V2 trace")
  Lib.require (s.settlement = none ∧ s.sourceTradingStatusIds = [])
    (.valueError "V1 PositionSnapshot cannot carry T+1 authority")

def checkTraceable : Except Raised Unit := do
  Lib.require (s.trace ≠ none) (.valueError "traceable PositionSnapshot requires complete trace")
  Lib.require (s.sourceManualTradeIds ≠ [])
    (.valueError "traceable PositionSnapshot requires ManualTrade IDs")
  Lib.require (s.sourceManualTradeIds = sortedDistinct s.sourceManualTradeIds)
    (.valueError "Position ManualTrade IDs must be sorted and unique")
  Lib.require (s.settlement = none ∧ s.sourceTradingStatusIds = [])
    (.valueError "V2 PositionSnapshot cannot carry V3 T+1 authority")

def checkAvailability (settlement : SettlementAuthority) :
    Except Raised Unit := do
  Lib.require (settlement.availableQuantity + settlement.frozenQuantity = s.totalQuantity)
    (.valueError "Position available/frozen quantity mismatch")
  Lib.require (0 ≤ settlement.todayAcquiredQuantity
      ∧ settlement.todayAcquiredQuantity ≤ settlement.frozenQuantity)
    (.valueError "Position today-acquired quantity mismatch")
  Lib.require (∀ lot ∈ s.lots, lot.settlement.isSome)
    (.valueError "T+1 Position requires settled lots")
  Lib.require (¬ (s.totalQuantity = 0 ∧ settlement.sellabilityState ≠ .closed))
    (.valueError "closed Position requires CLOSED sellability")

def checkTPlusOne : Except Raised Unit := do
  Lib.require (s.trace ≠ none) (.valueError "T+1 PositionSnapshot requires complete trace")
  Lib.require (s.sourceManualTradeIds ≠ [])
    (.valueError "T+1 PositionSnapshot requires ManualTrade IDs")
  Lib.require (s.sourceManualTradeIds = sortedDistinct s.sourceManualTradeIds)
    (.valueError "Position ManualTrade IDs must be sorted and unique")
  match s.settlement with
  | none => .error (.valueError
      "T+1 PositionSnapshot requires settlement authority")
  | some settlement => do
      Lib.require (s.sourceTradingStatusIds ≠ [])
        (.valueError "T+1 PositionSnapshot requires session status evidence")
      Lib.require (s.sourceTradingStatusIds = sortedDistinct s.sourceTradingStatusIds)
        (.valueError "Position status IDs must be sorted and unique")
      s.checkAvailability settlement

def postInit : Except Raised PositionSnapshot := do
  s.checkPosition
  match s.schemaVersion with
  | .positionSnapshot => s.checkUntraced
  | .traceable => s.checkTraceable
  | .tPlusOne => s.checkTPlusOne
  return s

end PositionSnapshot

end MarketRegimeAlpha.Position
