/-
The complete-account Portfolio and its hard Risk.

# What stands for what

Floats are exact rationals, a timestamp is a number of microseconds, and
a dictionary is the list of its items. A dataclass that other code
constructs is a structure whose proof fields are the checks of its
`__post_init__`; those constructed here check their fields in a
`postInit` that raises. The hashes and the identities derived from a
record's own content are read by nothing here and are left out, with the
checks that compare them to that content.
-/
import Mathlib.Data.String.Basic
import MarketRegimeAlpha.Lib.Dict
import MarketRegimeAlpha.Lib.OrderStat

namespace MarketRegimeAlpha.Portfolio

open Lib

/-- A timestamp, in microseconds. -/
abbrev Instant := Int

/-- `(later - earlier).total_seconds()`. -/
def totalSeconds (later earlier : Instant) : ℚ := (later - earlier) / 1000000

-- ==== the account

inductive AccountPortfolioCompleteness where
  | completeAccount
  | partialAccount
  deriving DecidableEq

inductive AccountReconciliationState where
  | reconciled
  | reconciliationRequired
  | unknown
  deriving DecidableEq

structure AccountPosition where
  (symbol themeId : String)
  (totalQuantity availableQuantity : Int)
  (marketPrice lossPerShare : ℚ)
  quantity_positive : 0 < totalQuantity
  available_nonneg : 0 ≤ availableQuantity
  available_le : availableQuantity ≤ totalQuantity
  price_positive : 0 < marketPrice
  loss_positive : 0 < lossPerShare

structure AuthoritativeAccountPortfolioSnapshot where
  accountId : String
  asOf : Instant
  (netAssetValue availableCash : ℚ)
  allPositions : List AccountPosition
  completeness : AccountPortfolioCompleteness
  reconciliationState : AccountReconciliationState
  version : Nat
  nav_positive : 0 < netAssetValue
  cash_nonneg : 0 ≤ availableCash
  positions_sorted : allPositions.map (·.symbol) = sortedDistinct (allPositions.map (·.symbol))

structure RiskBudget where
  (maximumGrossExposure singleSymbolLimit themeLimit liquidityMaxParticipation
    minimumCashReserve maximumLossBudget : ℚ)
  tPlusOneEnforced : Bool
  riskServiceTimeoutSeconds : ℚ
  limits : ∀ limit ∈ [maximumGrossExposure, singleSymbolLimit, themeLimit,
    liquidityMaxParticipation, minimumCashReserve, maximumLossBudget],
    0 ≤ limit ∧ limit ≤ 1
  timeout_positive : 0 < riskServiceTimeoutSeconds

structure CompleteAccountRiskConfiguration where
  profileId : String
  riskBudget : RiskBudget
  maximumAccountSnapshotAgeSeconds : ℚ
  age_positive : 0 < maximumAccountSnapshotAgeSeconds

-- ==== the requests

inductive ThesisState where
  | approved
  | invalidated
  | closed
  deriving DecidableEq

structure TradingThesis where
  (thesisId symbol : String)
  timeInvalidation : Instant
  state : ThesisState

structure ThesisAllocationRequest where
  (thesisId symbol themeId : String)
  targetQuantity : Int
  (referencePrice averageDailyTradeValue lossPerShare : ℚ)
  target_nonneg : 0 ≤ targetQuantity
  price_positive : 0 < referencePrice
  trade_value_positive : 0 < averageDailyTradeValue
  loss_positive : 0 < lossPerShare

-- ==== the proposal

structure ProposedTradeDelta where
  (thesisId symbol themeId : String)
  (currentQuantity currentAvailableQuantity targetQuantity tradeQuantity : Int)
  (referencePrice averageDailyTradeValue lossPerShare : ℚ)

variable (d : ProposedTradeDelta)

def ProposedTradeDelta.postInit : Except Raised ProposedTradeDelta := do
  Lib.require (0 ≤ min (min d.currentQuantity d.currentAvailableQuantity)
    d.targetQuantity) (.valueError "complete-account trade quantities cannot be negative")
  Lib.require (d.currentAvailableQuantity ≤ d.currentQuantity) (.valueError
    "current available quantity exceeds current quantity")
  Lib.require (d.tradeQuantity = d.targetQuantity - d.currentQuantity)
    (.valueError "complete-account trade delta mismatch")
  Lib.require (0 < d.referencePrice) (.valueError "reference_price must be positive and finite")
  Lib.require (0 < d.averageDailyTradeValue)
    (.valueError "average_daily_trade_value must be positive and finite")
  Lib.require (0 < d.lossPerShare) (.valueError "loss_per_share must be positive and finite")
  return d

def ProposedTradeDelta.tradeValue : ℚ := d.tradeQuantity * d.referencePrice

structure PostTradePosition where
  (symbol themeId : String)
  (totalQuantity availableQuantity : Int)
  (marketPrice lossPerShare : ℚ)

variable (p : PostTradePosition)

def PostTradePosition.postInit : Except Raised PostTradePosition := do
  Lib.require (0 < p.totalQuantity) (.valueError "post-trade position quantity must be positive")
  Lib.require (0 ≤ p.availableQuantity ∧ p.availableQuantity ≤ p.totalQuantity)
    (.valueError "post-trade available quantity is invalid")
  Lib.require (0 < p.marketPrice) (.valueError "market_price must be positive and finite")
  Lib.require (0 < p.lossPerShare) (.valueError "loss_per_share must be positive and finite")
  return p

def PostTradePosition.marketValue : ℚ := p.totalQuantity * p.marketPrice

def PostTradePosition.maximumLoss : ℚ := p.totalQuantity * p.lossPerShare

structure PostTradePortfolioSnapshot where
  accountId : String
  asOf : Instant
  availableCash : ℚ
  positions : List PostTradePosition
  proposedDeltas : List ProposedTradeDelta

def PostTradePortfolioSnapshot.postInit (s : PostTradePortfolioSnapshot) :
    Except Raised PostTradePortfolioSnapshot := do
  Lib.require (s.positions.map (·.symbol) = sortedDistinct (s.positions.map (·.symbol)))
    (.valueError "post-trade positions must be sorted and unique")
  Lib.require (s.proposedDeltas.map (·.symbol) = sortedDistinct (s.proposedDeltas.map (·.symbol)))
    (.valueError "proposed deltas must be sorted and unique")
  return s

inductive PortfolioOutputMode where
  | simulation
  | manualConfirmation
  deriving DecidableEq

structure CompleteAccountPortfolioDecision where
  mode : PortfolioOutputMode
  configuration : CompleteAccountRiskConfiguration
  accountSnapshot : AuthoritativeAccountPortfolioSnapshot
  postTrade : PostTradePortfolioSnapshot
  thesisIds : List String
  version : Nat
  (actor reason : String)
  createdAt : Instant
  reasonCodes : List String

def CompleteAccountPortfolioDecision.postInit (d : CompleteAccountPortfolioDecision) :
    Except Raised CompleteAccountPortfolioDecision := do
  Lib.require (d.version = 0) (.valueError "complete-account PortfolioDecision must be version 0")
  Lib.require (d.thesisIds = sortBy id (d.postTrade.proposedDeltas.map (·.thesisId)))
    (.valueError "complete-account Portfolio thesis scope mismatch")
  return d

-- ==== constructing it

variable (account : AuthoritativeAccountPortfolioSnapshot)

def AuthoritativeAccountPortfolioSnapshot.current : List (String × AccountPosition) :=
  dictOf (account.allPositions.map fun item => (item.symbol, item))

def proposedDelta (allocationById : List (String × ThesisAllocationRequest))
    (createdAt : Instant) (pair : String × TradingThesis) :
    Except Raised ProposedTradeDelta := do
  let thesis := pair.2
  let allocation ← item allocationById pair.1
  Lib.require (thesis.state = .approved) (.valueError
    "only APPROVED Thesis can enter complete-account Portfolio")
  Lib.require (createdAt < thesis.timeInvalidation) (.valueError
    "time-invalidated Thesis cannot enter Portfolio")
  Lib.require (thesis.symbol = allocation.symbol)
    (.valueError "Thesis and allocation symbol mismatch")
  let position := account.current.lookup allocation.symbol
  Lib.require (∀ p ∈ position, p.themeId = allocation.themeId)
    (.valueError "allocation theme conflicts with account Position")
  let currentQuantity := (position.map (·.totalQuantity)).getD 0
  let availableQuantity := (position.map (·.availableQuantity)).getD 0
  ProposedTradeDelta.postInit
    { thesisId := pair.1
      symbol := allocation.symbol
      themeId := allocation.themeId
      currentQuantity := currentQuantity
      currentAvailableQuantity := availableQuantity
      targetQuantity := allocation.targetQuantity
      tradeQuantity := allocation.targetQuantity - currentQuantity
      referencePrice := allocation.referencePrice
      averageDailyTradeValue := allocation.averageDailyTradeValue
      lossPerShare := allocation.lossPerShare }

def AccountPosition.beforeTrade (p : AccountPosition) : PostTradePosition where
  symbol := p.symbol
  themeId := p.themeId
  totalQuantity := p.totalQuantity
  availableQuantity := p.availableQuantity
  marketPrice := p.marketPrice
  lossPerShare := p.lossPerShare

def applyDelta (positions : List (String × PostTradePosition)) (delta : ProposedTradeDelta) :
    Except Raised (List (String × PostTradePosition)) := do
  let existing := positions.lookup delta.symbol
  let observedCurrent := (existing.map (·.totalQuantity)).getD 0
  let observedAvailable := (existing.map (·.availableQuantity)).getD 0
  Lib.require (observedCurrent = delta.currentQuantity
      ∧ observedAvailable = delta.currentAvailableQuantity) (.valueError
    "trade delta current Position differs from account authority")
  if delta.targetQuantity = 0 then return delItem positions delta.symbol
  else
    let availableAfter :=
      if 0 < delta.tradeQuantity then observedAvailable
      else min (observedAvailable + delta.tradeQuantity) delta.targetQuantity
    let position ← PostTradePosition.postInit
      { symbol := delta.symbol
        themeId := delta.themeId
        totalQuantity := delta.targetQuantity
        availableQuantity := max 0 availableAfter
        marketPrice := delta.referencePrice
        lossPerShare := delta.lossPerShare }
    return setItem positions delta.symbol position

def applyDeltas (deltas : List ProposedTradeDelta) (asOf : Instant) :
    Except Raised PostTradePortfolioSnapshot := do
  let before ← account.allPositions.mapM fun item => do
    let position ← PostTradePosition.postInit item.beforeTrade
    return (item.symbol, position)
  let positions ← deltas.foldlM applyDelta (dictOf before)
  PostTradePortfolioSnapshot.postInit
    { accountId := account.accountId
      asOf := asOf
      availableCash := account.availableCash - (deltas.map (·.tradeValue)).sum
      positions := sortBy (·.symbol) (positions.map (·.2))
      proposedDeltas := deltas }

/-- `CompleteAccountPortfolioConstructionService.construct`. -/
def construct (theses : List TradingThesis) (allocations : List ThesisAllocationRequest)
    (account : AuthoritativeAccountPortfolioSnapshot)
    (configuration : CompleteAccountRiskConfiguration) (mode : PortfolioOutputMode)
    (actor reason : String) (createdAt : Instant) :
    Except Raised CompleteAccountPortfolioDecision := do
  Lib.require (account.asOf ≤ createdAt) (.valueError
    "future account Portfolio snapshot is unavailable")
  let thesisById := dictOf (theses.map fun item => (item.thesisId, item))
  let allocationById := dictOf (allocations.map fun item => (item.thesisId, item))
  Lib.require (thesisById.length = theses.length
      ∧ allocationById.length = allocations.length) (.valueError
    "complete-account inputs require unique Thesis identities")
  Lib.require ((∀ k : String, k ∈ keys thesisById → k ∈ keys allocationById)
      ∧ ∀ k : String, k ∈ keys allocationById → k ∈ keys thesisById)
    (.valueError
    "every complete-account Thesis requires one allocation")
  Lib.require ((allocations.map (·.symbol)).Nodup) (.valueError
    "one account cannot allocate multiple Thesis to one symbol")
  let deltas ← thesisById.mapM (proposedDelta account allocationById createdAt)
  let orderedDeltas := sortBy (·.symbol) deltas
  let postTrade ← applyDeltas account orderedDeltas createdAt
  CompleteAccountPortfolioDecision.postInit
    { mode := mode
      configuration := configuration
      accountSnapshot := account
      postTrade := postTrade
      thesisIds := sortBy id (keys thesisById)
      version := 0
      actor := actor
      reason := reason
      createdAt := createdAt
      reasonCodes := ["COMPLETE_ACCOUNT_POST_TRADE_PORTFOLIO_PROPOSED"] }

-- ==== the risk

inductive RiskDecisionState where
  | approved
  | rejected
  | timeout
  | dataInsufficient
  deriving DecidableEq

inductive PortfolioConstraintType where
  | maximumGrossExposure
  | singleSymbolLimit
  | themeLimit
  | liquidityLimit
  | availableCash
  | currentPosition
  | tPlusOne
  | maximumLossBudget
  deriving DecidableEq

structure PortfolioConstraint where
  constraintType : PortfolioConstraintType
  passed : Bool
  (observedValue limitValue : ℚ)
  reasonCode : String
  symbols : List String

def makeConstraint (kind : PortfolioConstraintType) (observed limit : ℚ)
    (failedReason : String) (symbols : List String) :
    PortfolioConstraint where
  constraintType := kind
  passed := observed ≤ limit
  observedValue := observed
  limitValue := limit
  reasonCode := if observed ≤ limit then "CONSTRAINT_PASSED" else failedReason
  symbols := sortedDistinct symbols

def ProposedTradeDelta.unavailable : ℚ :=
  (max 0 (-d.tradeQuantity - d.currentAvailableQuantity) : Int)

def ProposedTradeDelta.participation : ℚ :=
  |d.tradeValue| / d.averageDailyTradeValue

variable (portfolio : CompleteAccountPortfolioDecision)

def completeAccountConstraints : List PortfolioConstraint :=
  let budget := portfolio.configuration.riskBudget
  let nav := portfolio.accountSnapshot.netAssetValue
  let positions := portfolio.postTrade.positions
  let deltas := portfolio.postTrade.proposedDeltas
  let gross := (positions.map (·.marketValue)).sum / nav
  let symbolExposure := maxOr 0 (positions.map (·.marketValue / nav))
  let themeValues := groupSums (·.themeId) PostTradePosition.marketValue positions
  let themeExposure := maxOr 0 (themeValues.map (·.2 / nav))
  let liquidity := maxOr 0 (deltas.map (·.participation))
  let reserve := nav * budget.minimumCashReserve
  let cashShortfall := max 0 (reserve - portfolio.postTrade.availableCash)
  let unavailableSell := maxOr 0 (deltas.map (·.unavailable))
  let maximumLoss := (positions.map (·.maximumLoss)).sum / nav
  [makeConstraint .maximumGrossExposure gross budget.maximumGrossExposure
      "MAXIMUM_GROSS_EXPOSURE_EXCEEDED" (positions.map (·.symbol)),
    makeConstraint .singleSymbolLimit symbolExposure budget.singleSymbolLimit
      "SINGLE_SYMBOL_LIMIT_EXCEEDED"
      ((positions.filter fun item =>
        budget.singleSymbolLimit < item.marketValue / nav).map (·.symbol)),
    makeConstraint .themeLimit themeExposure budget.themeLimit "THEME_LIMIT_EXCEEDED"
      ((positions.filter fun item => budget.themeLimit
        < (themeValues.lookup item.themeId).getD 0 / nav).map (·.symbol)),
    makeConstraint .liquidityLimit liquidity budget.liquidityMaxParticipation
      "LIQUIDITY_LIMIT_EXCEEDED"
      ((deltas.filter fun item =>
        budget.liquidityMaxParticipation < item.participation).map
          (·.symbol)),
    makeConstraint .availableCash cashShortfall 0 "AVAILABLE_CASH_INSUFFICIENT"
      ((deltas.filter (0 < ·.tradeQuantity)).map (·.symbol)),
    makeConstraint .currentPosition 0 0 "LONG_ONLY_POSITION_CONSTRAINT_FAILED" [],
    makeConstraint .tPlusOne unavailableSell
      (if budget.tPlusOneEnforced then 0 else unavailableSell)
      "T_PLUS_ONE_AVAILABLE_QUANTITY_EXCEEDED"
      ((deltas.filter fun item =>
        item.currentAvailableQuantity < -item.tradeQuantity).map (·.symbol)),
    makeConstraint .maximumLossBudget maximumLoss budget.maximumLossBudget
      "MAXIMUM_LOSS_BUDGET_EXCEEDED" (positions.map (·.symbol))]

structure CompleteAccountRiskDecision where
  mode : PortfolioOutputMode
  state : RiskDecisionState
  constraints : List PortfolioConstraint
  (portfolioDecisionVersion version : Nat)
  (actor reason : String)
  (startedAt completedAt : Instant)
  reasonCodes : List String

def CompleteAccountRiskDecision.postInit (d : CompleteAccountRiskDecision) :
    Except Raised CompleteAccountRiskDecision := do
  Lib.require (d.portfolioDecisionVersion = 0 ∧ d.version = 0) (.valueError
    "complete-account RiskDecision versions must be zero")
  Lib.require (d.startedAt ≤ d.completedAt) (.valueError "RiskDecision completion precedes start")
  Lib.require (¬ (d.state = .approved ∧ ∃ c ∈ d.constraints, ¬ c.passed))
    (.valueError "approved complete-account Risk has failed constraints")
  Lib.require (d.state = .approved ∨ d.reasonCodes ≠ [])
    (.valueError "non-approved complete-account Risk requires reasons")
  return d

/-- The state, the constraints and the reasons of an assessment. -/
def verdict (startedAt completedAt : Instant) :
    RiskDecisionState × List PortfolioConstraint × List String :=
  let configuration := portfolio.configuration
  let budget := configuration.riskBudget
  let account := portfolio.accountSnapshot
  let elapsed := totalSeconds completedAt startedAt
  let age := totalSeconds startedAt account.asOf
  if budget.riskServiceTimeoutSeconds < elapsed then
    (.timeout, [], ["RISK_SERVICE_TIMEOUT_FAIL_CLOSED"])
  else if age < 0 then
    (.dataInsufficient, [], ["ACCOUNT_SNAPSHOT_NOT_AVAILABLE_AT_RISK_TIME"])
  else if configuration.maximumAccountSnapshotAgeSeconds < age then
    (.dataInsufficient, [], ["ACCOUNT_SNAPSHOT_STALE"])
  else if account.completeness ≠ .completeAccount then
    (.dataInsufficient, [], ["ACCOUNT_PORTFOLIO_INCOMPLETE"])
  else if account.reconciliationState ≠ .reconciled then
    (.dataInsufficient, [], ["ACCOUNT_RECONCILIATION_REQUIRED"])
  else
    let constraints := completeAccountConstraints portfolio
    let failed := constraints.filter fun c => !c.passed
    if failed = [] then
      (.approved, constraints, ["ALL_COMPLETE_ACCOUNT_HARD_RISK_CONSTRAINTS_PASSED"])
    else
      (.rejected, constraints, sortedDistinct (failed.map (·.reasonCode)))

/-- `CompleteAccountRiskService.assess`. -/
def assess (actor reason : String) (startedAt completedAt : Instant) :
    Except Raised CompleteAccountRiskDecision :=
  let (state, constraints, reasons) := verdict portfolio startedAt completedAt
  CompleteAccountRiskDecision.postInit
    { mode := portfolio.mode
      state := state
      constraints := constraints
      portfolioDecisionVersion := portfolio.version
      version := 0
      actor := actor
      reason := reason
      startedAt := startedAt
      completedAt := completedAt
      reasonCodes := reasons }

end MarketRegimeAlpha.Portfolio
