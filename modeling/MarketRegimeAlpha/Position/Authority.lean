/-
The projector that rebuilds a position from its Fills.

# How it is translated

A loop over the Fills is a step on a state of its own, folded over them;
the inner loop over the lots is `sellLots`, which both projections share
with their own idea of which lots are closed to a sale. A dictionary is
the list of its items, in insertion order. `project_book_t_plus_one` is
cut at its joints: `sessionAuthority` is its checks of the session
evidence, `tPlusOneStep` its loop, `settleLot` its loop over the lots
that are left, and `tPlusOneSnapshot` the snapshot it writes.
-/
import Mathlib.Data.Prod.Lex
import MarketRegimeAlpha.Position.Records

namespace MarketRegimeAlpha.Position

open Lib

-- ==== the effective Fills

/-- `(item.recorded_at, str(item.fill_id))`. -/
def recordedKey (fill : Fill) : Instant ×ₗ String := toLex (fill.recordedAt, fill.fillId)

/-- `(item.occurred_at, str(item.fill_id))`. -/
def occurredKey (fill : Fill) : Instant ×ₗ String := toLex (fill.occurredAt, fill.fillId)

/-- One Fill of `_effective_fills`: the executions and the corrections
seen so far. -/
def effectiveStep (seen : List (String × Fill) × List (String × Fill)) (fill : Fill) :
    Except Raised (List (String × Fill) × List (String × Fill)) :=
  match fill.fillKind with
  | .execution => .ok (setItem seen.1 fill.fillId fill, seen.2)
  | .correction target =>
    match seen.1.lookup target with
    | none => .error (.valueError
        "correction Fill references unknown execution Fill")
    | some original => do
        Lib.require ((seen.2.lookup target).isNone) (.valueError
          "execution Fill cannot have multiple corrections")
        Lib.require (fill.manualTradeId = original.manualTradeId
            ∧ fill.accountId = original.accountId
            ∧ fill.symbol = original.symbol)
          (.valueError "correction Fill scope mismatch")
        return (seen.1, setItem seen.2 target fill)

/-- `_effective_fills`: each execution, or the correction of it. -/
def effectiveFills (fills : List Fill) : Except Raised (List Fill) := do
  let (executions, corrections) ←
    (sortBy recordedKey fills).foldlM effectiveStep ([], [])
  return sortBy occurredKey (executions.map fun (fillId, fill) =>
    (corrections.lookup fillId).getD fill)

-- ==== the lots

section Lots

variable {σ : Type}

def buyLot (symbol : String) (fill : Fill) (settlement : σ) : MutableLot σ where
  sourceFillId := fill.fillId
  symbol := symbol
  quantityRemaining := fill.quantity
  unitCost := (fill.price * fill.quantity + fill.fees) / fill.quantity
  acquiredAt := fill.occurredAt
  settlement := settlement

structure Sale where
  remaining : Nat
  (sellFeeRemaining realizedPnl : ℚ)

/-- The loop of a SELL over the lots; it passes over those that are
closed to it. -/
def sellLots (closed : MutableLot σ → Bool) (fill : Fill) :
    Sale → List (MutableLot σ) → List (MutableLot σ) × Sale
  | sale, [] => ([], sale)
  | sale, lot :: lots =>
    if sale.remaining = 0 then (lot :: lots, sale)
    else if closed lot then
      let (lots, sale) := sellLots closed fill sale lots
      (lot :: lots, sale)
    else
      let consumed := min sale.remaining lot.quantityRemaining
      let allocatedFee := fill.fees * consumed / fill.quantity
      let (lots, sale) := sellLots closed fill
        { remaining := sale.remaining - consumed
          sellFeeRemaining := sale.sellFeeRemaining - allocatedFee
          realizedPnl := sale.realizedPnl
            + (consumed * (fill.price - lot.unitCost) - allocatedFee) }
        lots
      ({ lot with
          quantityRemaining := lot.quantityRemaining - consumed } :: lots,
        sale)

/-- A SELL: the loop, the rest of its fee, and the lots that remain. -/
def sellFill (closed : MutableLot σ → Bool) (fill : Fill)
    (lots : List (MutableLot σ)) (realizedPnl : ℚ) :
    List (MutableLot σ) × Sale :=
  let (lots, sale) := sellLots closed fill
    { remaining := fill.quantity
      sellFeeRemaining := fill.fees
      realizedPnl := realizedPnl } lots
  (lots.filter (0 < ·.quantityRemaining),
    { sale with
      realizedPnl := sale.realizedPnl - max 0 sale.sellFeeRemaining })

end Lots

def averageCost (lots : List PositionLot) : Option ℚ :=
  let total := (lots.map (·.quantityRemaining)).sum
  if total = 0 then none
  else some ((lots.map fun lot => (lot.quantityRemaining : ℚ) * lot.unitCost).sum / total)

-- ==== plain projection

/-- The state of the loop of `project`. -/
structure Projection where
  lots : List (MutableLot Unit)
  realizedPnl : ℚ
  reconciliation : Bool

variable (symbol : String)

/-- One Fill of `project`. -/
def projectStep (state : Projection) (fill : Fill) : Projection :=
  match fill.side with
  | .buy => { state with lots := state.lots ++ [buyLot symbol fill ()] }
  | .sell =>
    let (lots, sale) := sellFill (fun _ => false) fill state.lots state.realizedPnl
    { lots := lots
      realizedPnl := sale.realizedPnl
      reconciliation := state.reconciliation || 0 < sale.remaining }

/-- The loop of `project`. -/
def projectFills (fills : List Fill) : Projection :=
  fills.foldl (projectStep symbol) ⟨[], 0, false⟩

/-- The `PositionLot` of a lot without dates. -/
def freezeLot (lot : MutableLot Unit) : PositionLot where
  sourceFillId := lot.sourceFillId
  symbol := lot.symbol
  quantityRemaining := lot.quantityRemaining
  unitCost := lot.unitCost
  acquiredAt := lot.acquiredAt
  settlement := none

/-- The snapshot of `project`, before its own checks. -/
def plainSnapshot (accountId symbol : String) (asOf : Instant) (sourceIds : List String)
    (effective : List Fill) (state : Projection) (lots : List PositionLot) : PositionSnapshot :=
  let total : Nat := (lots.map (·.quantityRemaining)).sum
  { schemaVersion := .positionSnapshot
    accountId := accountId
    symbol := symbol
    asOf := asOf
    state := if state.reconciliation then .reconciliationRequired
      else if total = 0 then .closedPosition else .openPosition
    totalQuantity := total
    averageCost := averageCost lots
    realizedPnl := state.realizedPnl
    lots := lots
    sourceFillIds := sourceIds
    effectiveFillIds := effective.map (·.fillId)
    version := sourceIds.length
    reasonCodes := if state.reconciliation then
        ["SELL_QUANTITY_EXCEEDS_AUTHORITATIVE_LOTS"]
      else ["POSITION_REBUILT_FROM_APPEND_ONLY_FILLS"]
    trace := none
    sourceManualTradeIds := []
    settlement := none
    sourceTradingStatusIds := [] }

/-- `PositionProjector.project`. -/
def project (accountId symbol : String) (fills : List Fill)
    (asOf : Instant) : Except Raised PositionSnapshot := do
  Lib.require (fills ≠ []) (.valueError "PositionSnapshot requires at least one Fill")
  let orderedFills := sortBy recordedKey fills
  let sourceIds : List String := orderedFills.map (·.fillId)
  Lib.require sourceIds.Nodup (.valueError "duplicate FillId cannot enter Position projection")
  Lib.require (∀ fill ∈ orderedFills, fill.accountId = accountId ∧ fill.symbol = symbol)
    (.valueError "Position Fill scope mismatch")
  Lib.require (∀ fill ∈ orderedFills, ¬ asOf < fill.recordedAt)
    (.valueError "Position projection cannot consume future recorded Fill")
  let effective ← effectiveFills orderedFills
  let state := projectFills symbol effective
  let lots ← (state.lots.map freezeLot).mapM PositionLot.postInit
  (plainSnapshot accountId symbol asOf sourceIds effective state lots).postInit

-- ==== the book

variable (book : PositionBook)

def PositionBook.owns (trade : ManualTradeRecord) : Bool :=
  (trade.schemaVersion == .traceable
      || trade.schemaVersion == .routeAuthorized)
    && trade.positionBookId == some book.positionBookId
    && trade.thesisId == some book.thesisId
    && trade.opportunityId == some book.opportunityId
    && trade.accountId == book.accountId && trade.symbol == book.symbol

def validateBookTrades (trades : List ManualTradeRecord) (fills : List Fill) :
    Except Raised Unit := do
  Lib.require (trades ≠ []) (.valueError "traceable Position requires ManualTrade records")
  Lib.require (trades.map (·.manualTradeId)).Nodup
    (.valueError "duplicate ManualTrade identity in Position book")
  Lib.require (∀ trade ∈ trades, book.owns trade = true)
    (.valueError "ManualTrade does not belong to Position book")
  Lib.require (fills ≠ [] ∧ ∀ fill ∈ fills, fill.manualTradeId ∈ trades.map (·.manualTradeId))
    (.valueError "Fill does not belong to Position book ManualTrade")

def PositionBook.trace : BookTrace where
  positionBookId := book.positionBookId
  thesisId := book.thesisId
  opportunityId := book.opportunityId

def projectBook (trades : List ManualTradeRecord) (fills : List Fill) (asOf : Instant) :
    Except Raised PositionSnapshot := do
  validateBookTrades book trades fills
  let base ← project book.accountId book.symbol fills asOf
  PositionSnapshot.postInit { base with
    schemaVersion := .traceable
    trace := some book.trace
    sourceManualTradeIds := sortedDistinct (fills.map (·.manualTradeId)) }

-- ==== T+1 projection

def validateTraceableBookInputs (trades : List ManualTradeRecord) (fills : List Fill) :
    Except Raised Unit := do
  validateBookTrades book trades fills
  Lib.require (fills.map (·.fillId)).Nodup
    (.valueError "duplicate FillId cannot enter Position projection")
  Lib.require (∀ fill ∈ fills, fill.accountId = book.accountId ∧ fill.symbol = book.symbol)
    (.valueError "Position Fill scope mismatch")

/-- `(item.session_date, str(item.status_id))`. -/
def sessionKey (status : SymbolTradingSessionStatus) : Day ×ₗ String :=
  toLex (status.sessionDate, status.statusId)

/-- The session evidence that the checks have let through. -/
structure Sessions where
  asOfSession : Day
  statuses : List SymbolTradingSessionStatus
  currentStatus : SymbolTradingSessionStatus

/-- `status_by_date.get(date)`. -/
def statusOn (statuses : List SymbolTradingSessionStatus) (date : Day) :
    Option SymbolTradingSessionStatus :=
  statuses.find? (·.sessionDate == date)

def sessionAuthority (calendar : TradingCalendarArtifact)
    (symbolSessionStatuses : List SymbolTradingSessionStatus)
    (asOf : Instant) : Except Raised Sessions := do
  Lib.require (calendar.market = "CN_A_SHARE")
    (.valueError "T+1 Position requires CN_A_SHARE calendar authority")
  let asOfSession := calendar.zone.date asOf
  Lib.require (calendar.contains asOfSession) (.lookupError
    "Position assessment date is absent from calendar authority")
  let statuses := sortBy sessionKey symbolSessionStatuses
  Lib.require (statuses.map (·.sessionDate)).Nodup
    (.valueError "symbol session status dates must be unique")
  Lib.require (∀ status ∈ statuses, status.symbol = book.symbol)
    (.valueError "symbol session status scope mismatch")
  Lib.require (∀ status ∈ statuses, calendar.contains status.sessionDate)
    (.valueError "symbol status references a non-calendar session")
  match statusOn statuses asOfSession with
  | none => .error (.valueError
      "symbol session status evidence is required for as_of")
  | some currentStatus => do
      Lib.require (∀ status ∈ statuses, ¬ asOf < status.availabilityTime) (.valueError
          "unavailable symbol session status cannot enter Position")
      return ⟨asOfSession, statuses, currentStatus⟩

/-- The state of the loop of `project_book_t_plus_one`; the reasons are
a set. -/
structure Settling where
  lots : List (MutableLot SettlementDates)
  realizedPnl : ℚ
  reconciliationReasons : List String

/-- One Fill of `project_book_t_plus_one`. -/
def tPlusOneStep (calendar : TradingCalendarArtifact)
    (statuses : List SymbolTradingSessionStatus) (state : Settling)
    (fill : Fill) : Except Raised Settling := do
  let tradeDate := calendar.zone.date fill.occurredAt
  Lib.require (calendar.contains tradeDate) (.lookupError
    "Fill trade date is absent from calendar authority")
  match fill.side with
  | .buy => do
      let sellableSession ← calendar.resolveNextSessionDate fill.occurredAt
      return { state with lots := state.lots
        ++ [buyLot symbol fill ⟨tradeDate, sellableSession⟩] }
  | .sell =>
    match statusOn statuses tradeDate with
    | none => .error (.valueError
        "symbol session status evidence is required for sell Fill")
    | some sellStatus =>
      let reasons := if sellStatus.state ≠ .tradable then
          state.reconciliationReasons.insert "SELL_RECORDED_WHILE_SYMBOL_NOT_TRADABLE"
        else state.reconciliationReasons
      let (lots, sale) := sellFill (fun lot => tradeDate < lot.settlement.sellableFromSession) fill
        state.lots state.realizedPnl
      return {
        lots := lots
        realizedPnl := sale.realizedPnl
        reconciliationReasons := if 0 < sale.remaining then
            reasons.insert "T_PLUS_ONE_SELL_EXCEEDS_AVAILABLE"
          else reasons }

/-- The `PositionLot` of a lot with dates. -/
def settleLot (sessions : Sessions) (lot : MutableLot SettlementDates) :
    PositionLot :=
  let (available, settlementState) :=
    if ¬ lot.settlement.sellableFromSession ≤ sessions.asOfSession then
      (0, LotSettlementState.frozenTPlusOne)
    else match sessions.currentStatus.state with
      | .tradable => (lot.quantityRemaining, .sellable)
      | .suspended => (0, .frozenMarketConstraint)
      | .unknown => (0, .dataInsufficient)
  { sourceFillId := lot.sourceFillId
    symbol := lot.symbol
    quantityRemaining := lot.quantityRemaining
    unitCost := lot.unitCost
    acquiredAt := lot.acquiredAt
    settlement := some {
      tradeDate := lot.settlement.tradeDate
      availableQuantity := available
      frozenQuantity := lot.quantityRemaining - available
      sellableFromSession := lot.settlement.sellableFromSession
      settlementState := settlementState } }

def PositionLot.available (lot : PositionLot) : Nat :=
  (lot.settlement.map (·.availableQuantity)).getD 0

def PositionLot.tradeDate (lot : PositionLot) : Option Day := lot.settlement.map (·.tradeDate)

/-- The state, the sellability and the reason of a T+1 position. -/
def classify (reasons : List String) (total available : Nat) (currentState : SymbolTradingState) :
    PositionState × PositionSellabilityState × List String :=
  if reasons ≠ [] then
    (.reconciliationRequired, .reconciliationRequired, [])
  else if total = 0 then (.closedPosition, .closed, [])
  else match currentState with
    | .suspended => (.openPosition, .suspended, ["SYMBOL_SUSPENDED"])
    | .unknown => (.openPosition, .dataInsufficient, ["SYMBOL_TRADING_STATE_UNKNOWN"])
    | .tradable =>
      if available = 0 then
        (.openPosition, .tPlusOneFrozen, ["T_PLUS_ONE_POSITION_FROZEN"])
      else if available < total then
        (.openPosition, .partiallyAvailable, ["POSITION_PARTIALLY_SELLABLE"])
      else (.openPosition, .available, ["POSITION_FULLY_SELLABLE"])

/-- What `project_book_t_plus_one` knows when its loop is over. -/
structure TPlusOneRun where
  sessions : Sessions
  (orderedFills effective : List Fill)
  settled : Settling

/-- `project_book_t_plus_one` up to the end of its loop: all its own
checks of what it is given. -/
def tPlusOneRun (trades : List ManualTradeRecord) (fills : List Fill)
    (calendar : TradingCalendarArtifact) (symbolSessionStatuses : List SymbolTradingSessionStatus)
    (asOf : Instant) : Except Raised TPlusOneRun := do
  validateTraceableBookInputs book trades fills
  let sessions ← sessionAuthority book calendar symbolSessionStatuses asOf
  let orderedFills := sortBy recordedKey fills
  Lib.require (∀ fill ∈ orderedFills, ¬ asOf < fill.recordedAt)
    (.valueError "Position projection cannot consume future recorded Fill")
  let effective ← effectiveFills orderedFills
  let settled ← effective.foldlM (tPlusOneStep book.symbol calendar sessions.statuses) ⟨[], 0, []⟩
  return ⟨sessions, orderedFills, effective, settled⟩

def tPlusOneSnapshot (fills : List Fill) (calendar : TradingCalendarArtifact)
    (asOf : Instant) (run : TPlusOneRun) (lots : List PositionLot) : PositionSnapshot :=
  let total : Nat := (lots.map (·.quantityRemaining)).sum
  let available : Nat := (lots.map (·.available)).sum
  let todayAcquired : Nat := ((lots.filter
    (·.tradeDate == some run.sessions.asOfSession)).map
      (·.quantityRemaining)).sum
  let (state, sellability, reason) :=
    classify run.settled.reconciliationReasons total available run.sessions.currentStatus.state
  { schemaVersion := .tPlusOne
    accountId := book.accountId
    symbol := book.symbol
    asOf := asOf
    state := state
    totalQuantity := total
    averageCost := averageCost lots
    realizedPnl := run.settled.realizedPnl
    lots := lots
    sourceFillIds := run.orderedFills.map (·.fillId)
    effectiveFillIds := run.effective.map (·.fillId)
    version := run.orderedFills.length
    reasonCodes := sortedDistinct (["POSITION_REBUILT_FROM_APPEND_ONLY_FILLS_AND_CALENDAR"]
        ++ run.settled.reconciliationReasons ++ reason)
    trace := some book.trace
    sourceManualTradeIds := sortedDistinct (fills.map (·.manualTradeId))
    settlement := some {
      availableQuantity := available
      frozenQuantity := (total : Int) - available
      todayAcquiredQuantity := todayAcquired
      sellabilityState := sellability
      asOfSessionDate := run.sessions.asOfSession
      calendarArtifactId := calendar.artifactId }
    sourceTradingStatusIds := sortBy id (run.sessions.statuses.map (·.statusId)) }

/-- `PositionProjector.project_book_t_plus_one`. -/
def projectBookTPlusOne (trades : List ManualTradeRecord) (fills : List Fill)
    (calendar : TradingCalendarArtifact) (symbolSessionStatuses : List SymbolTradingSessionStatus)
    (asOf : Instant) : Except Raised PositionSnapshot := do
  let run ← tPlusOneRun book trades fills calendar symbolSessionStatuses asOf
  let lots ← (run.settled.lots.map (settleLot run.sessions)).mapM PositionLot.postInit
  (tPlusOneSnapshot book fills calendar asOf run lots).postInit

end MarketRegimeAlpha.Position
