/-
The manual execution ledger: its four tables, the commands of the
repository, and the system that the commands make.

# How a statement is translated

A command is one transaction under the locks of its scopes, so commands are
atomic. A `SELECT` reads a table, an `INSERT` appends a row and raises where
it breaks a constraint of the table, and an exception leaves the tables as
they were before the transaction. A JSON column holds the value it encodes,
and reading it back is a call of the constructor. The columns that repeat a
field of the value beside them are kept where an `UPDATE` writes them or a
check compares them.

`mark_order_state` reads the trade in one transaction and then sends
`transition_trade` the record it has built; between the two any other
command may run. Such a record is a `TransitionRequest` in flight.

# What is left to others

`_validate_strategy_authority` also reads the Portfolio line, the Proposal,
the reconciliation, the price owner, the exposure limits and the calendar.
What it finds there only ever refuses more; each create command carries it
as its `StrategyEvidence`. The observed accounts and positions, whose rows
never change, are the `Observations`. The text of the refused cash request
leaves out the amounts.
-/
import MarketRegimeAlpha.Lib.Dict
import MarketRegimeAlpha.Lib.Reach
import MarketRegimeAlpha.Lib.Tx
import MarketRegimeAlpha.Execution.Manual
import MarketRegimeAlpha.Position.Authority

namespace MarketRegimeAlpha.Execution

open Lib
open Position (Instant TradeSide FillKind)

-- ==== the tables

/-- `manual_trade_records`. -/
structure TradeRow where
  (manualTradeId accountId symbol : String)
  side : TradeSide
  state : ManualOrderState
  filledQuantity : Nat
  aggregate : ManualTradeRecord
  version : Nat
  authority : TradeAuthority
  deriving DecidableEq

/-- `manual_trade_events`. -/
structure EventRow where
  manualTradeId : String
  sequence : Nat
  state : ManualOrderState
  aggregate : ManualTradeRecord
  idempotencyKey : String
  deriving DecidableEq

/-- `manual_fills`. -/
structure FillRow where
  fill : Fill
  idempotencyKey : String
  deriving DecidableEq

/-- `execution_commands`. -/
structure CommandRow where
  (idempotencyKey commandHash manualTradeId : String)
  fillId : Option String
  resultVersion : Nat
  deriving DecidableEq

structure Ledger where
  records : List TradeRow
  events : List EventRow
  fills : List FillRow
  commands : List CommandRow
  deriving DecidableEq

def Ledger.empty : Ledger := ⟨[], [], [], []⟩

inductive ExecutionError where
  | raised (error : Raised)
  | versionConflict (message : String)
  | uniqueViolation (constraint : String)
  | foreignKeyViolation (constraint : String)
  deriving DecidableEq

abbrev LedgerTx := Tx Unit ExecutionError Ledger

/-- Code that raises, inside a transaction. -/
def checked {α : Type} (x : Except Raised α) : LedgerTx α := Tx.ofExcept (x.mapError .raised)

-- ==== the reads

namespace Ledger

variable (ledger : Ledger) (tradeId : String)

/-- The row of a trade. -/
def record : Option TradeRow := ledger.records.find? (·.manualTradeId = tradeId)

def command (key : String) : Option CommandRow := ledger.commands.find? (·.idempotencyKey = key)

def eventsOf : List EventRow := ledger.events.filter (·.manualTradeId = tradeId)

/-- `history`, of the events up to a version. -/
def history (requested : Nat) : Except Raised (List ManualTradeRecord) :=
  (sortBy (·.sequence)
      ((ledger.eventsOf tradeId).filter (·.sequence ≤ requested))).mapM
    fun event => event.aggregate.construct

/-- The checks of `_load_trade` on the row of the current version. -/
def validateProjection (row : TradeRow) (result : ManualTradeRecord) :
    Except Raised Unit := do
  let stored ← row.aggregate.construct
  Lib.require (stored = result
      ∧ row.manualTradeId = result.manualTradeId
      ∧ row.accountId = result.accountId
      ∧ row.symbol = result.symbol ∧ row.side = result.side
      ∧ row.state = result.state
      ∧ row.filledQuantity = result.filledQuantity
      ∧ row.version = result.version
      ∧ row.authority = result.authority)
    (.valueError "ManualTradeRecord projection is not reconstructible")

def loadTrade (version : Option Nat) : Except Raised ManualTradeRecord := do
  match ledger.record tradeId with
  | none => .error (.lookupError s!"unknown ManualTradeRecord: {tradeId}")
  | some row =>
    let requested := version.getD row.version
    let events := (ledger.eventsOf tradeId).filter (·.sequence ≤ requested)
    Lib.require (requested ≤ row.version ∧ events.length = requested + 1)
      (.valueError "ManualTradeRecord history is not contiguous")
    let history ← ledger.history tradeId requested
    let _ ← (history.zip history.tail).mapM fun pair =>
      validateManualTradeTransition pair.1 pair.2 true
    match history.getLast? with
    | none => .error (.lookupError "tuple index out of range")
    | some result =>
      (if requested = row.version then validateProjection row result
        else .ok ())
      return result

def loadFill (fillId : Option String) : Except Raised Fill :=
  match ledger.fills.find? (some ·.fill.fillId = fillId) with
  | none => .error (.lookupError ("unknown Fill: " ++ fillId.getD "None"))
  | some row => .ok row.fill

def fillsForTrade : List Fill :=
  sortBy (fun fill => Position.recordedKey fill.toFill)
    ((ledger.fills.map (·.fill)).filter (·.manualTradeId = tradeId))

end Ledger

def validateCommand (row : CommandRow) (commandHash tradeId : String) :
    Except Raised Unit :=
  Lib.require (row.commandHash = commandHash ∧ row.manualTradeId = tradeId)
    (.valueError "idempotency key reused for different execution command")

-- ==== the effective quantity

variable (fill : Fill)

def Fill.correctionOf : Option String :=
  match fill.fillKind with
  | .execution => none
  | .correction fillId => some fillId

variable (fills : List Fill)

def executions : List (String × Fill) :=
  dictOf ((fills.filter (·.fillKind = .execution)).map fun fill => (fill.fillId, fill))

def corrections : List (String × Fill) :=
  dictOf (fills.filterMap fun fill => fill.correctionOf.map fun fillId => (fillId, fill))

def effectiveQuantity : Nat :=
  ((executions fills).map fun (fillId, fill) =>
    (((corrections fills).lookup fillId).getD fill).quantity).sum

-- ==== the writes

variable (record : ManualTradeRecord)

/-- `_trade_projection_values`. -/
def tradeRow : TradeRow where
  manualTradeId := record.manualTradeId
  accountId := record.accountId
  symbol := record.symbol
  side := record.side
  state := record.state
  filledQuantity := 0
  aggregate := record
  version := 0
  authority := record.authority

def insertTrade : LedgerTx Unit := do
  let records ← Tx.select Ledger.records
  Tx.require (∀ row ∈ records, row.manualTradeId ≠ record.manualTradeId)
    (.uniqueViolation "manual_trade_records_pkey")
  Tx.require (∀ row ∈ records, ∀ authorization ∈ row.authority.authorization,
      ∀ authorization' ∈ record.authority.authorization,
        authorization.authorizationId ≠ authorization'.authorizationId)
    (.uniqueViolation "strategy_trade_authorization_unique")
  Tx.insert fun ledger => { ledger with records := ledger.records ++ [tradeRow record] }

def insertTradeEvent (key : String) : LedgerTx Unit := do
  let events ← Tx.select Ledger.events
  Tx.require (∀ event ∈ events, ¬ (event.manualTradeId = record.manualTradeId
      ∧ event.sequence = record.version))
    (.uniqueViolation "manual_trade_events_pkey")
  Tx.require (∀ event ∈ events, event.idempotencyKey ≠ key)
    (.uniqueViolation "manual_trade_events_idempotency_key_key")
  Tx.insert fun ledger =>
    { ledger with
      events := ledger.events ++
        [{ manualTradeId := record.manualTradeId
           sequence := record.version
           state := record.state
           aggregate := record
           idempotencyKey := key }] }

def insertCommand (key commandHash : String) (record : ManualTradeRecord)
    (fill : Option Fill) : LedgerTx Unit := do
  let commands ← Tx.select Ledger.commands
  Tx.require (∀ command ∈ commands, command.idempotencyKey ≠ key)
    (.uniqueViolation "execution_commands_pkey")
  Tx.insert fun ledger =>
    { ledger with
      commands := ledger.commands ++
        [{ idempotencyKey := key
           commandHash
           manualTradeId := record.manualTradeId
           fillId := fill.map (·.fillId)
           resultVersion := record.version }] }

def insertFill (key : String) : LedgerTx Unit := do
  let fills ← Tx.select Ledger.fills
  Tx.require (∀ row ∈ fills, row.fill.fillId ≠ fill.fillId)
    (.uniqueViolation "manual_fills_pkey")
  Tx.require (∀ row ∈ fills, row.fill.externalFillId ≠ fill.externalFillId)
    (.uniqueViolation "manual_fills_external_fill_id_key")
  Tx.require (∀ row ∈ fills, ∀ fillId ∈ fill.correctionOf,
      row.fill.correctionOf ≠ some fillId)
    (.uniqueViolation "manual_fills_correction_of_fill_id_key")
  Tx.require (∀ row ∈ fills, row.idempotencyKey ≠ key)
    (.uniqueViolation "manual_fills_idempotency_key_key")
  Tx.require (∀ fillId ∈ fill.correctionOf,
      ∃ row ∈ fills, row.fill.fillId = fillId)
    (.foreignKeyViolation "manual_fills_correction_of_fill_id_fkey")
  Tx.insert fun ledger =>
    { ledger with
      fills := ledger.fills ++ [{ fill, idempotencyKey := key }] }

/-- The rows that `_update_trade` finds. -/
def updates (expectedVersion : Nat) (row : TradeRow) : Bool :=
  row.manualTradeId = record.manualTradeId ∧ row.version = expectedVersion

/-- What `_update_trade` sets. -/
def updatedRow (row : TradeRow) : TradeRow :=
  { row with
    state := record.state
    filledQuantity := record.filledQuantity
    aggregate := record
    version := record.version }

def updateTrade (expectedVersion : Nat) : LedgerTx Unit := do
  let records ← Tx.select Ledger.records
  Tx.insert fun ledger =>
    { ledger with
      records := setRows (updates record expectedVersion)
        (updatedRow record) ledger.records }
  Tx.require ((records.filter (updates record expectedVersion)).length = 1)
    (.versionConflict "manual trade compare-and-swap failed")

-- ==== the creation

/-- The `existing` branch of `_create_record`. -/
def storeRecord (key : String) : LedgerTx Unit := do
  match ← Tx.select (·.record record.manualTradeId) with
  | some existing =>
    let current ← checked existing.aggregate.construct
    Tx.require (current = record)
      (.raised (.valueError "ManualTradeRecord identity conflict"))
  | none =>
    insertTrade record
    insertTradeEvent record key

def createRecord (authorityValidator : LedgerTx Unit)
    (record : ManualTradeRecord) (key commandHash : String) :
    LedgerTx ManualTradeRecord := do
  Tx.require (record.state = .recorded ∧ record.version = 0)
    (.raised (.valueError "new ManualTradeRecord must be RECORDED version 0"))
  match ← Tx.select (·.command key) with
  | some command =>
    checked (validateCommand command commandHash record.manualTradeId)
    let ledger ← Tx.get
    checked (ledger.loadTrade record.manualTradeId command.resultVersion)
  | none =>
    authorityValidator
    storeRecord record key
    insertCommand key commandHash record none
    return record

/-- `create_trade`, with what `_validate_authority` makes of the risk
decision, the portfolio decision and the target. A record of another route
has no risk decision that could be bound to them. -/
def createTrade (authority : Except Raised Unit) (record : ManualTradeRecord)
    (key commandHash : String) : LedgerTx ManualTradeRecord := do
  checked authority
  Tx.require (record.authority.route = .increasing)
    (.raised (.valueError "ManualTradeRecord authority binding mismatch"))
  createRecord (pure ()) record key commandHash

-- ==== the Fills

/-- The checks of `append_fill` on the trade and its Fills. -/
def validateFill (ledger : Ledger) (current : ManualTradeRecord)
    (fill : Fill) : Except Raised Unit := do
  Lib.require (fill.accountId = current.accountId
      ∧ fill.symbol = current.symbol)
    (.valueError "Fill scope does not match ManualTradeRecord")
  Lib.require (fill.side = current.side)
    (.valueError "Fill side does not match ManualTradeRecord")
  Lib.require (¬ (current.state = .rejected ∧ fill.fillKind = .execution))
    (.valueError "rejected trade cannot accept execution Fill")
  Lib.require (¬ (current.state = .filled ∧ fill.fillKind = .execution))
    (.valueError "filled trade accepts correction records only")
  match ledger.fills.find? fun row => row.fill.fillId = fill.fillId
      ∨ row.fill.externalFillId = fill.externalFillId with
  | some stored =>
    Lib.require (stored.fill = fill)
      (.valueError "duplicate Fill identity has conflicting semantics")
    .error (.valueError
      "Fill already exists under a different idempotency key")
  | none =>
    let existingFills := ledger.fillsForTrade fill.manualTradeId
    match fill.fillKind with
    | .execution => return
    | .correction fillId =>
      Lib.require (existingFills.any fun original =>
          original.fillId = fillId ∧ original.fillKind = .execution)
        (.valueError "correction target must be an execution Fill")
      Lib.require (existingFills.all fun item =>
          item.correctionOf ≠ some fillId)
        (.valueError "execution Fill already has a correction")

variable (current : ManualTradeRecord)

def stateAfterFill (effectiveQuantity : Nat) : ManualOrderState :=
  if current.state = .cancelled ∨ current.state = .rejected then current.state
  else if effectiveQuantity < current.intendedQuantity then .partiallyFilled
  else if effectiveQuantity = current.intendedQuantity then .filled
  else .reconciliationRequired

/-- `updated`, of a Fill. -/
def filledRecord (fill : Fill) (effectiveQuantity : Nat) : ManualTradeRecord :=
  { current with
    state := stateAfterFill current effectiveQuantity
    filledQuantity := effectiveQuantity
    version := current.version + 1
    updatedAt := fill.recordedAt
    lastActor := fill.actor
    lastReason := fill.reason }

def appendNewFill (key commandHash : String) : LedgerTx (ManualTradeRecord × Fill) := do
  let ledger ← Tx.get
  let current ← checked (ledger.loadTrade fill.manualTradeId none)
  checked (validateFill ledger current fill)
  insertFill fill key
  let allFills := ledger.fillsForTrade fill.manualTradeId ++ [fill]
  let updated ← checked
    (filledRecord current fill (effectiveQuantity allFills)).construct
  checked (validateManualTradeTransition current updated
    (current.state = .cancelled || fill.fillKind ≠ .execution))
  updateTrade updated current.version
  insertTradeEvent updated (key ++ ":trade")
  insertCommand key commandHash updated (some fill)
  return (updated, fill)

def appendFill (key commandHash : String) : LedgerTx (ManualTradeRecord × Fill) := do
  match ← Tx.select (·.command key) with
  | some command =>
    checked (validateCommand command commandHash fill.manualTradeId)
    let ledger ← Tx.get
    let storedFill ← checked (ledger.loadFill command.fillId)
    let record ← checked
      (ledger.loadTrade fill.manualTradeId command.resultVersion)
    return (record, storedFill)
  | none => appendNewFill fill key commandHash

-- ==== the transitions

/-- A call of `transition_trade` in flight. -/
structure TransitionRequest where
  record : ManualTradeRecord
  expectedVersion : Nat
  (idempotencyKey commandHash : String)
  deriving DecidableEq

def transitionTrade (request : TransitionRequest) :
    LedgerTx ManualTradeRecord := do
  match ← Tx.select (·.command request.idempotencyKey) with
  | some command =>
    checked (validateCommand command request.commandHash
      request.record.manualTradeId)
    let ledger ← Tx.get
    checked (ledger.loadTrade request.record.manualTradeId
      command.resultVersion)
  | none =>
    let ledger ← Tx.get
    let current ← checked
      (ledger.loadTrade request.record.manualTradeId none)
    Tx.require (current.version = request.expectedVersion)
      (.versionConflict "manual trade CAS conflict")
    checked (validateManualTradeTransition current request.record false)
    updateTrade request.record request.expectedVersion
    insertTradeEvent request.record request.idempotencyKey
    insertCommand request.idempotencyKey request.commandHash
      request.record none
    return request.record

/-- `mark_order_state` up to its call of `transition_trade`. -/
def markOrderState (ledger : Ledger) (tradeId : String)
    (expectedVersion : Nat) (state : ManualOrderState) (actor reason : String)
    (changedAt : Instant) (key commandHash : String) :
    Except Raised TransitionRequest := do
  Lib.require (state = .cancelled ∨ state = .rejected ∨ state = .unknown)
    (.valueError "manual status command is invalid")
  let current ← ledger.loadTrade tradeId none
  Lib.require (current.version = expectedVersion)
    (.valueError "stale ManualTradeRecord version")
  Lib.require (current.state = .recorded ∨ current.state = .partiallyFilled
      ∨ current.state = .unknown ∨ current.state = .reconciliationRequired)
    (.valueError
      "manual status command cannot replace fill-derived terminal state")
  let updated ← transitionManualTrade current state current.filledQuantity
    actor reason changedAt
  return ⟨updated, expectedVersion, key, commandHash⟩

-- ==== the Strategy authority

/-- `manual_account_observation`, as far as it is read here. -/
structure AccountObservation where
  accountId : String
  asOfTime : Instant
  (totalEquity availableCash : ℚ)
  cash_nonneg : 0 ≤ availableCash
  cash_le : availableCash ≤ totalEquity

/-- `manual_position_observation`, as far as it is read here. -/
structure PositionObservation where
  (totalQuantity availableQuantity : Nat)
  available_le : availableQuantity ≤ totalQuantity

structure Observations where
  account : String → Option AccountObservation
  position : String → String → Option PositionObservation

/-- What the checks against the other owners say of a request. -/
structure StrategyEvidence where
  portfolioLine : Except Raised Unit
  (latestObservation reconciliation priceOwner postTradeExposure calendar : Except Raised Unit)

def ManualOrderState.active (state : ManualOrderState) : Bool :=
  state = .recorded || state = .partiallyFilled || state = .unknown
    || state = .reconciliationRequired

def ManualTradeRecord.reserved : Nat :=
  if record.state.active then record.intendedQuantity - record.filledQuantity
  else 0

def ManualTradeRecord.referencePrice : ℚ :=
  (record.authority.authorization.map (·.referencePrice)).getD 0

namespace Ledger

variable (ledger : Ledger)

/-- `rows`: the Strategy trades of an account. -/
def strategyRows (accountId : String) : List TradeRow :=
  sortBy (·.manualTradeId) (ledger.records.filter fun row =>
    row.authority.route = .strategy ∧ row.accountId = accountId)

def proposalRows (proposalId : String) : List TradeRow :=
  sortBy (·.manualTradeId) (ledger.records.filter fun row =>
    row.authority.authorization.any (·.proposalId = proposalId))

def strategyFills (accountId : String) (side : TradeSide) (symbol : Option String) : List Fill :=
  sortBy (fun fill =>
      toLex (fill.manualTradeId, Position.recordedKey fill.toFill))
    ((ledger.fills.map (·.fill)).filter fun fill =>
      fill.accountId = accountId
        ∧ (ledger.records.any fun row =>
            row.manualTradeId = fill.manualTradeId
              ∧ row.authority.route = .strategy ∧ row.side = side)
        ∧ symbol.all (· = fill.symbol))

end Ledger

/-- The Fill that was effective at the observation, of an execution and its
correction. -/
def atObservation (asOf : Instant) (fill : Fill) (correction : Option Fill) :
    Option Fill :=
  if asOf < fill.recordedAt then none
  else
    match correction with
    | none => some fill
    | some correction => if correction.recordedAt ≤ asOf then some correction else some fill

def effectiveFillRevisions (fills : List Fill) (asOf : Instant) :
    List (Fill × Option Fill) :=
  (executions fills).filterMap fun (fillId, fill) =>
    let correction := (corrections fills).lookup fillId
    let current := correction.getD fill
    let observed := atObservation asOf fill correction
    if some current = observed then none else some (current, observed)

def fillCash : Option Fill → ℚ
  | none => 0
  | some fill => fill.quantity * fill.price + fill.fees

def fillQuantity : Option Fill → Int
  | none => 0
  | some fill => fill.quantity

def unobservedBuyFillCash (ledger : Ledger) (accountId : String) (asOf : Instant) : ℚ :=
  ((effectiveFillRevisions (ledger.strategyFills accountId .buy none)
    asOf).map fun (current, observed) => fillCash (some current) - fillCash observed).sum

def unobservedEffectiveFillQuantity (ledger : Ledger)
    (accountId symbol : String) (side : TradeSide) (asOf : Instant) : Int :=
  ((effectiveFillRevisions
    (ledger.strategyFills accountId side (some symbol)) asOf).map
      fun (current, observed) => fillQuantity (some current) - fillQuantity observed).sum

def reservedCash (trades : List ManualTradeRecord) : ℚ :=
  ((trades.filter (·.side = .buy)).map fun trade => (trade.reserved : ℚ) * trade.referencePrice).sum

def reservedQuantity (symbol : String) (trades : List ManualTradeRecord) :
    Nat :=
  ((trades.filter fun trade => trade.side = .sell ∧ trade.symbol = symbol).map
    (·.reserved)).sum

def authorizedQuantity (authorization : StrategyExecutionAuthorization)
    (proposalTrades : List ManualTradeRecord) : Except Raised Nat := do
  match proposalTrades with
  | [] =>
    Lib.require (authorization.replacementAuthority = false)
      (.valueError
        "Proposal replacement authority requires prior execution history")
    return authorization.recommendedQuantity
  | first :: _ =>
    match first.authority.authorization with
    | none => .error (.assertionError "")
    | some authorized =>
      Lib.require (∀ item ∈ proposalTrades,
          item.accountId = authorization.accountId
            ∧ item.authority.authorization.any fun other =>
              other.recommendedQuantity = authorized.recommendedQuantity
                ∧ other.referencePrice = authorized.referencePrice
                ∧ other.accountObservationId
                    = authorized.accountObservationId)
        (.valueError
          "Proposal execution authority is not reconstructible")
      Lib.require (authorization.recommendedQuantity
            = authorized.recommendedQuantity
          ∧ authorization.referencePrice = authorized.referencePrice
          ∧ authorization.accountObservationId
              = authorized.accountObservationId)
        (.valueError "Proposal execution authority cannot be re-sized")
      return authorized.recommendedQuantity

variable (observations : Observations)

def validateStrategyAggregateAuthority (evidence : StrategyEvidence)
    (ledger : Ledger) (record : ManualTradeRecord) (authorization : StrategyExecutionAuthorization)
    (observationAsOf : Instant) : Except Raised Unit := do
  let trades ← (ledger.strategyRows authorization.accountId).mapM
    fun row => row.aggregate.construct
  let proposalTrades ← (ledger.proposalRows authorization.proposalId).mapM
    fun row => row.aggregate.construct
  let authorized ← authorizedQuantity authorization proposalTrades
  let filled := (proposalTrades.map (·.filledQuantity)).sum
  let reserved := (proposalTrades.map (·.reserved)).sum
  let remaining := authorized - filled - reserved
  Lib.require (record.intendedQuantity ≤ remaining)
    (.valueError ("Proposal remaining authority is insufficient: "
      ++ s!"authorized={authorized}, filled={filled}, "
      ++ s!"reserved={reserved}, remaining={remaining}"))
  match record.side with
  | .buy =>
    let remainingCash := authorization.availableCash - reservedCash trades
      - unobservedBuyFillCash ledger authorization.accountId observationAsOf
    Lib.require ((record.intendedQuantity : ℚ) * authorization.referencePrice
        ≤ remainingCash)
      (.valueError "Account available cash authority is insufficient")
    evidence.postTradeExposure
  | .sell =>
    let available :=
      ((observations.position authorization.accountObservationId
        authorization.symbol).map (·.availableQuantity)).getD 0
    let active := reservedQuantity authorization.symbol trades
    let unobserved := unobservedEffectiveFillQuantity ledger
      authorization.accountId authorization.symbol .sell observationAsOf
    let remainingSell := (available : Int) - active - unobserved
    Lib.require ((record.intendedQuantity : Int) ≤ remainingSell)
      (.valueError
        ("Account available sell quantity authority is insufficient: "
          ++ s!"available={available}, reserved={active}, "
          ++ s!"unobserved_fills={unobserved}, remaining={remainingSell}"))

def validateStrategyAuthority (evidence : StrategyEvidence)
    (ledger : Ledger) (record : ManualTradeRecord) : Except Raised Unit := do
  match record.authority.authorization with
  | none => .error (.valueError "Strategy ManualTradeRecord authorization is missing")
  | some authorization =>
    evidence.portfolioLine
    match observations.account authorization.accountObservationId with
    | none =>
      .error (.valueError
        "Strategy Account Observation authorization mismatch")
    | some observation =>
      Lib.require (observation.accountId = authorization.accountId
          ∧ observation.asOfTime = authorization.decisionTime
          ∧ observation.totalEquity = authorization.accountNav
          ∧ observation.availableCash = authorization.availableCash)
        (.valueError "Strategy Account Observation authorization mismatch")
      evidence.latestObservation
      evidence.reconciliation
      evidence.priceOwner
      let position := observations.position
        authorization.accountObservationId authorization.symbol
      Lib.require (authorization.currentQuantity
            ≤ (position.map (·.totalQuantity)).getD 0
          ∧ authorization.availableQuantity
            ≤ (position.map (·.availableQuantity)).getD 0)
        (.valueError
          "Strategy quantity exceeds Physical Position authority")
      validateStrategyAggregateAuthority observations evidence ledger
        record authorization observation.asOfTime
      evidence.calendar
      Lib.require (record.expectedPriceLower ≤ authorization.referencePrice
          ∧ authorization.referencePrice ≤ record.expectedPriceUpper)
        (.valueError
          "Strategy reference price is outside the Manual Intent range")

def createStrategyTrade (evidence : StrategyEvidence)
    (record : ManualTradeRecord) (key commandHash : String) : LedgerTx ManualTradeRecord := do
  Tx.require (record.authority.route = .strategy)
    (.raised (.valueError "Strategy trade requires V4 STRATEGY authority"))
  createRecord (do
      let ledger ← Tx.get
      checked (validateStrategyAuthority observations evidence ledger record))
    record key commandHash

-- ==== the system

structure System where
  ledger : Ledger
  requests : List TransitionRequest

def System.start : System := ⟨.empty, []⟩

inductive Command where
  | createTrade (authority : Except Raised Unit) (record : ManualTradeRecord)
      (key commandHash : String)
  | createStrategyTrade (evidence : StrategyEvidence)
      (record : ManualTradeRecord) (key commandHash : String)
  | appendFill (fill : Fill) (key commandHash : String)
  | markOrderState (tradeId : String) (expectedVersion : Nat)
      (state : ManualOrderState) (actor reason : String) (changedAt : Instant)
      (key commandHash : String)
  | transitionTrade (request : TransitionRequest)

def System.commit {α : Type} (system : System) (transaction : LedgerTx α) :
    Except ExecutionError System :=
  (transaction.outcome system.ledger).map fun (_, ledger) => { system with ledger }

/-- A command on the system: the system after it, or what it raises. A
record and a Fill are constructed before they are sent; a transition is one
that has been sent. -/
def execute (system : System) : Command → Except ExecutionError System
  | .createTrade authority record key commandHash => do
      let record ← record.construct.mapError .raised
      system.commit (createTrade authority record key commandHash)
  | .createStrategyTrade evidence record key commandHash => do
      let record ← record.construct.mapError .raised
      system.commit
        (createStrategyTrade observations evidence record key commandHash)
  | .appendFill fill key commandHash => system.commit (appendFill fill key commandHash)
  | .markOrderState tradeId expectedVersion state actor reason changedAt key
      commandHash => do
      let request ← (markOrderState system.ledger tradeId expectedVersion
        state actor reason changedAt key commandHash).mapError .raised
      return { system with requests := system.requests ++ [request] }
  | .transitionTrade request => do
      Lib.require (request ∈ system.requests)
        (.raised (.lookupError "no such transition has been sent"))
      system.commit (transitionTrade request)

/-- The system after a command: as it was when the command is rejected. -/
def next (command : Command) (system : System) : System :=
  match execute observations system command with
  | .ok system' => system'
  | .error _ => system

end MarketRegimeAlpha.Execution
