/-
The reconciliation of a Manual account with the positions derived from its fills.

The differences are listed in the order in which the code appends them: equity, cash,
the ledger, and then the symbols of either side in order.
-/
import MarketRegimeAlpha.Lib.Dict
import MarketRegimeAlpha.DecisionSystem.Contracts

namespace MarketRegimeAlpha.DecisionSystem

open Lib
open Position (Instant)

structure ReconcileAccount where
  observation : ManualAccountObservation
  positions : List FillDerivedPositionReference
  fillLedgerHead : String
  fillLedgerComplete : Bool
  tolerance : ReconciliationTolerance
  (authoritativeTotalEquity authoritativeAvailableCash authoritativeFrozenCash : Option ℚ)
  asOfTime : Instant
  revision : Int
  previousReconciliationId : Option String
  idempotencyKey : String
  createdAt : Instant

def corporateActionRatio (systemQuantity manualQuantity : Nat) : Bool :=
  let smaller := min systemQuantity manualQuantity
  let larger := max systemQuantity manualQuantity
  0 < smaller && larger % smaller = 0 && larger / smaller ∈ [2, 3, 5, 10]

section Differences

variable (nfc : String → String)

def missing (reason : String) (symbol : Option String) :
    Except Raised ReconciliationDifference :=
  ReconciliationDifference.make nfc ⟨.dataInsufficient, symbol, none, none, none, reason⟩

variable (differenceType : ReconciliationDifferenceType)

def moneyDifference (expected observed tolerance : ℚ) (reason : String) :
    Except Raised (List ReconciliationDifference) :=
  let delta := |expected - observed|
  if tolerance < delta then do
    let difference ← ReconciliationDifference.make nfc
      ⟨differenceType, none, some expected, some observed, some delta, reason⟩
    pure [difference]
  else pure []

def quantityDifference (symbol : String) (system manual : Nat) (reason : String) :
    Except Raised ReconciliationDifference :=
  ReconciliationDifference.make nfc ⟨differenceType, some symbol, some system, some manual,
      some |(system : ℚ) - manual|, reason⟩

/-- What two quantities of a symbol append when they are not equal. -/
def unequalDifference (symbol : String) (system manual : Nat) (reason : String) :
    Except Raised (List ReconciliationDifference) :=
  if system ≠ manual then do
    let difference ←
      quantityDifference nfc differenceType symbol system manual reason
    pure [difference]
  else pure []

variable (symbol : String)

/-- What a symbol appends that only the fills hold. -/
def manualMissing (system : FillDerivedPositionReference) :
    Except Raised (List ReconciliationDifference) := do
  let difference ← ReconciliationDifference.make nfc
    ⟨.manualMissingPosition, some symbol, some system.totalQuantity, none, none,
      "MANUAL_POSITION_MISSING"⟩
  pure [difference]

/-- What a symbol appends that only the account lists. -/
def systemMissing (manual : ManualPositionObservation) :
    Except Raised (List ReconciliationDifference) := do
  let missing ← ReconciliationDifference.make nfc
    ⟨.systemMissingPosition, some symbol, some 0, some manual.totalQuantity,
      some manual.totalQuantity, "UNKNOWN_MANUAL_POSITION"⟩
  let suspected ← ReconciliationDifference.make nfc
    ⟨.unrecordedTradeSuspected, some symbol, none, some manual.totalQuantity, none,
      "UNRECORDED_TRADE_REQUIRES_MANUAL_REVIEW"⟩
  pure [missing, suspected]

def totalDifferences (system : FillDerivedPositionReference) (manual : ManualPositionObservation) :
    Except Raised (List ReconciliationDifference) :=
  if system.totalQuantity ≠ manual.totalQuantity then do
    let quantity ← quantityDifference nfc .symbolQuantityDifference symbol
      system.totalQuantity manual.totalQuantity "POSITION_QUANTITY_MISMATCH"
    let suspicion : ReconciliationDifferenceType :=
      if corporateActionRatio system.totalQuantity manual.totalQuantity then
        .corporateActionSuspected
      else .unrecordedTradeSuspected
    let suspected ← quantityDifference nfc suspicion symbol system.totalQuantity
      manual.totalQuantity
      (if suspicion = .corporateActionSuspected then
        "CORPORATE_ACTION_REQUIRES_ADJUSTMENT_ARTIFACT"
      else "UNRECORDED_TRADE_REQUIRES_MANUAL_REVIEW")
    pure [quantity, suspected]
  else pure []

/-- What the available and the frozen quantities of a symbol append. -/
def partDifferences (system : FillDerivedPositionReference) (manual : ManualPositionObservation) :
    Except Raised (List ReconciliationDifference) :=
  match system.availableQuantity, system.frozenQuantity with
  | some systemAvailable, some systemFrozen => do
      let available ← unequalDifference nfc
        (if system.totalQuantity = manual.totalQuantity then .tPlusOneDifference
          else .availableQuantityDifference)
        symbol systemAvailable manual.availableQuantity
        "AVAILABLE_QUANTITY_OR_T_PLUS_ONE_MISMATCH"
      let frozen ← unequalDifference nfc .frozenQuantityDifference symbol
        systemFrozen manual.frozenQuantity "FROZEN_QUANTITY_MISMATCH"
      pure (available ++ frozen)
  | _, _ => do
      let difference ← missing nfc "T_PLUS_ONE_AUTHORITY_UNAVAILABLE" (some symbol)
      pure [difference]

variable (tolerance : ReconciliationTolerance)

def costDifferences (symbol : String)
    (system : FillDerivedPositionReference) (manual : ManualPositionObservation) :
    Except Raised (List ReconciliationDifference) :=
  match system.averageCost, manual.averageCost with
  | some systemCost, some manualCost =>
    if tolerance.averageCostTolerance < |systemCost - manualCost| then do
      let difference ← ReconciliationDifference.make nfc
        ⟨.averageCostDifference, some symbol, some systemCost, some manualCost,
          some |systemCost - manualCost|, "AVERAGE_COST_MISMATCH"⟩
      pure [difference]
    else pure []
  | _, _ =>
    if 0 < system.totalQuantity ∨ 0 < manual.totalQuantity then do
      let difference ← missing nfc "AVERAGE_COST_UNAVAILABLE" (some symbol)
      pure [difference]
    else pure []

def symbolDifferences (manual : List (String × ManualPositionObservation))
    (system : List (String × FillDerivedPositionReference)) (symbol : String) :
    Except Raised (List ReconciliationDifference) :=
  match manual.lookup symbol, system.lookup symbol with
  | none, some systemItem => manualMissing nfc symbol systemItem
  -- a symbol of neither side does not come up
  | none, none => do
      let difference ← ReconciliationDifference.make nfc
        ⟨.manualMissingPosition, some symbol, none, none, none, "MANUAL_POSITION_MISSING"⟩
      pure [difference]
  | some manualItem, none => systemMissing nfc symbol manualItem
  | some manualItem, some systemItem => do
      let totals ← totalDifferences nfc symbol systemItem manualItem
      let parts ← partDifferences nfc symbol systemItem manualItem
      let costs ← costDifferences nfc tolerance symbol systemItem manualItem
      pure (totals ++ parts ++ costs)

namespace ReconcileAccount

variable (call : ReconcileAccount)

/-- The checks that come before any difference. -/
def validate : Except Raised Unit := do
  require (call.observation.asOfTime ≤ call.asOfTime)
    (.valueError "Account Observation is later than Reconciliation AsOfTime")
  require (∀ item ∈ call.positions, item.accountId = call.observation.accountId)
    (.valueError "Position/Account lineage mismatch")
  require (∀ item ∈ call.positions, item.asOfTime ≤ call.asOfTime)
    (.valueError "Position snapshot is later than Reconciliation AsOfTime")
  require (call.positions.map (·.symbol)).Nodup
    (.valueError "Fill-derived Position symbols must be unique")

def equityDifferences : Except Raised (List ReconciliationDifference) :=
  match call.authoritativeTotalEquity with
  | none => do
      let difference ← missing nfc "TOTAL_EQUITY_UNAVAILABLE" none
      pure [difference]
  | some equity =>
    moneyDifference nfc .totalEquityDifference equity call.observation.totalEquity
      call.tolerance.equityTolerance "TOTAL_EQUITY_MISMATCH"

def cashDifferences : Except Raised (List ReconciliationDifference) :=
  match call.authoritativeAvailableCash, call.authoritativeFrozenCash with
  | some available, some frozen =>
    moneyDifference nfc .cashDifference (available + frozen)
      (call.observation.availableCash + call.observation.frozenCash)
      call.tolerance.cashTolerance "CASH_MISMATCH"
  | _, _ => do
      let difference ← missing nfc "CASH_AUTHORITY_UNAVAILABLE" none
      pure [difference]

def ledgerDifferences : Except Raised (List ReconciliationDifference) :=
  if call.fillLedgerComplete = false ∨ ∃ item ∈ call.positions, item.complete = false
  then do
    let difference ← missing nfc "FILL_LEDGER_INCOMPLETE" none
    pure [difference]
  else pure []

def manual : List (String × ManualPositionObservation) :=
  dictOf (call.observation.positions.map fun item => (item.symbol, item))

def system : List (String × FillDerivedPositionReference) :=
  dictOf ((call.positions.filter fun item => 0 < item.totalQuantity).map
    fun item => (item.symbol, item))

/-- `sorted(set(manual) | set(system))`. -/
def symbols : List String := sortedDistinct (keys call.manual ++ keys call.system)

def differences : Except Raised (List ReconciliationDifference) := do
  let equity ← call.equityDifferences nfc
  let cash ← call.cashDifferences nfc
  let ledger ← call.ledgerDifferences nfc
  let perSymbol ← call.symbols.mapM (symbolDifferences nfc call.tolerance call.manual call.system)
  pure (equity ++ cash ++ ledger ++ perSymbol.flatten)

end ReconcileAccount

end Differences

variable (differences : List ReconciliationDifference)

def statusOf : ReconciliationStatus :=
  let types := differences.map (·.differenceType)
  if differences = [] then .reconciled
  else if .dataInsufficient ∈ types then .dataInsufficient
  else if .corporateActionSuspected ∈ types then .manualReviewRequired
  else .reconciliationRequired

def reasonsOf : List String :=
  if differences = [] then ["ACCOUNT_AND_FILL_POSITION_RECONCILED"]
  else sortedDistinct (differences.map (·.reasonCode))

/-- What the report is made with. -/
def ReconcileAccount.values (call : ReconcileAccount)
    (differences : List ReconciliationDifference) : ReconciliationValues where
  accountId := call.observation.accountId
  tradingDate := call.observation.tradingDate
  asOfTime := call.asOfTime
  manualObservationId := call.observation.observationId
  positionSnapshotIds := call.positions.map (·.snapshotId)
  fillLedgerHead := call.fillLedgerHead
  fillLedgerComplete := call.fillLedgerComplete
  toleranceConfigurationId := call.tolerance.configurationId
  toleranceConfigurationHash := call.tolerance.configurationHash
  status := statusOf differences
  differences := differences
  reasonCodes := reasonsOf differences
  revision := call.revision
  previousReconciliationId := call.previousReconciliationId
  idempotencyKey := call.idempotencyKey
  createdAt := call.createdAt

def reconcileAccount (nfc : String → String)
    (canonicalHash : ReconciliationValues → Except Raised String)
    (call : ReconcileAccount) : Except Raised AccountReconciliationReport := do
  call.validate
  let differences ← call.differences nfc
  AccountReconciliationReport.create nfc canonicalHash (call.values differences)

end MarketRegimeAlpha.DecisionSystem
