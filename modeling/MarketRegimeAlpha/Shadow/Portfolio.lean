/-
The records of the Shadow Portfolio and the functions that price one
trade of it.

# What stands for what

Decimals are exact rationals, a date is the number of a calendar day and
a timestamp a number of microseconds. A dataclass that other code
constructs is a structure whose proof fields are the checks of its
`__post_init__`; the day state is constructed here, so
`ShadowPortfolioDayState.construct` checks its values and raises. The
hashes of a record's own content, and the identities made of them, are
read by nothing here and are left out.
-/
import Mathlib.Data.Rat.Floor
import Mathlib.Data.Prod.Lex
import Mathlib.Data.String.Basic
import MarketRegimeAlpha.Lib.Dict
import MarketRegimeAlpha.Lib.OrderStat

namespace MarketRegimeAlpha.Shadow

open Lib

abbrev Day := Int

/-- A timestamp, in microseconds. -/
abbrev Instant := Int

structure ValidationArtifactReference where
  (artifactKind artifactId contentHash : String)
  deriving DecidableEq

def ValidationArtifactReference.key (r : ValidationArtifactReference) :
    String ×ₗ String ×ₗ String :=
  toLex (r.artifactKind, toLex (r.artifactId, r.contentHash))

/-- `tuple(sorted(set(references), key=...))`. -/
def sortedReferences (references : List ValidationArtifactReference) :
    List ValidationArtifactReference :=
  sortBy (·.key) references.dedup

-- ==== the policy

inductive ShadowParameterProvenance where
  | observedFact
  | engineeringAssumption
  | calibratedParameter
  | operatorInput
  deriving DecidableEq

inductive PortfolioWeightingMethod where
  | equalWeight
  | scoreWeight
  | riskWeight
  deriving DecidableEq

def PortfolioWeightingMethod.value : PortfolioWeightingMethod → String
  | .equalWeight => "EQUAL_WEIGHT"
  | .scoreWeight => "SCORE_WEIGHT"
  | .riskWeight => "RISK_WEIGHT"

inductive ShadowPortfolioTradeSession where
  | openCallAuction
  | continuousAm
  | continuousPm
  | closeCallAuction
  | closed
  | unknown
  deriving DecidableEq

def ShadowPortfolioTradeSession.value : ShadowPortfolioTradeSession → String
  | .openCallAuction => "OPEN_CALL_AUCTION"
  | .continuousAm => "CONTINUOUS_AM"
  | .continuousPm => "CONTINUOUS_PM"
  | .closeCallAuction => "CLOSE_CALL_AUCTION"
  | .closed => "CLOSED"
  | .unknown => "UNKNOWN"

def requiredParameters : List String :=
  ["commission_bps", "exit_cost_bps", "impact_bps", "max_participation_rate", "slippage_bps"]

structure ShadowPortfolioParameter where
  name : String
  value : ℚ
  provenance : ShadowParameterProvenance
  value_nonneg : 0 ≤ value

/-- `parameter` of a policy, over its parameters: the first of the
name. -/
def parameterOf (parameters : List ShadowPortfolioParameter) (name : String) : ℚ :=
  ((parameters.find? (·.name = name)).map (·.value)).getD 0

structure ShadowPortfolioPolicy where
  (policyId policyHash : String)
  topK : Nat
  weightingMethod : PortfolioWeightingMethod
  lotSize : Nat
  tPlusOne : Bool
  parameters : List ShadowPortfolioParameter
  allowedTradeSessions : List ShadowPortfolioTradeSession
  limitations : List String
  top_k_allowed : topK = 1 ∨ topK = 3 ∨ topK = 5
  lot_size_eq : lotSize = 100
  t_plus_one_enforced : tPlusOne = true
  parameters_known : ∀ p ∈ parameters, p.name ∈ requiredParameters
  parameters_required : ∀ name ∈ requiredParameters, name ∈ parameters.map (·.name)
  parameters_sorted : (parameters.map (·.name)).Pairwise (· ≤ ·)
  participation_positive : 0 < parameterOf parameters "max_participation_rate"
  participation_le_one : parameterOf parameters "max_participation_rate" ≤ 1
  sessions_continuous : allowedTradeSessions = [.continuousAm, .continuousPm]

namespace ShadowPortfolioPolicy

variable (policy : ShadowPortfolioPolicy)

def parameter (name : String) : ℚ := parameterOf policy.parameters name

theorem parameter_nonneg (name : String) : 0 ≤ policy.parameter name := by
  unfold parameter parameterOf
  cases policy.parameters.find? (·.name = name) with
  | none => exact le_refl _
  | some p => exact p.value_nonneg

theorem lotSize_pos : (0 : ℚ) < policy.lotSize := by
  rw [policy.lot_size_eq]
  norm_num

end ShadowPortfolioPolicy

structure ShadowPortfolio where
  (portfolioId portfolioHash : String)
  (policyReference researchReference candidateReference : ValidationArtifactReference)
  initialCash : ℚ
  limitations : List String
  initial_cash_positive : 0 < initialCash

-- ==== the observations

inductive TradingStatus where
  | trading
  | suspended
  | unknown
  deriving DecidableEq

inductive PriceLimitState where
  | normal
  | limitUp
  | limitDown
  | unknown
  deriving DecidableEq

structure ShadowPortfolioMarketObservation where
  symbol : String
  (score riskWeight referencePrice markPrice averageDailyAmount : Option ℚ)
  tradingStatus : TradingStatus
  priceLimitState : PriceLimitState
  tradeSession : ShadowPortfolioTradeSession
  sourceReferences : List ValidationArtifactReference
  reasonCodes : List String
  reference_price_positive : ∀ v ∈ referencePrice, 0 < v
  mark_price_positive : ∀ v ∈ markPrice, 0 < v
  average_daily_amount_positive : ∀ v ∈ averageDailyAmount, 0 < v
  risk_weight_positive : ∀ v ∈ riskWeight, 0 < v
  references_sorted : sourceReferences = sortedReferences sourceReferences
  reasons_sorted : reasonCodes = sortedDistinct reasonCodes

-- ==== the day's records

inductive ShadowTradeSide where
  | buy
  | sell
  deriving DecidableEq

inductive ShadowPortfolioFillStatus where
  | filled
  | partialFill
  | unfilled
  deriving DecidableEq

structure ShadowPortfolioOrderIntent where
  symbol : String
  side : ShadowTradeSide
  requestedQuantity : ℚ
  referencePrice : Option ℚ
  reasonCodes : List String
  deriving DecidableEq

structure ShadowPortfolioFill where
  symbol : String
  side : ShadowTradeSide
  status : ShadowPortfolioFillStatus
  filledQuantity : ℚ
  fillPrice : Option ℚ
  (notional totalCost : ℚ)
  parameterProvenance : List (String × ShadowParameterProvenance)
  limitations : List String
  deriving DecidableEq

structure ShadowPortfolioPosition where
  symbol : String
  (quantity averageCost : ℚ)
  openedOn : Day
  (markPrice marketValue unrealizedPnl : ℚ)
  deriving DecidableEq

structure ShadowPortfolioAttribution where
  symbol : String
  (marketValue unrealizedPnl realizedPnl cost : ℚ)
  deriving DecidableEq

/-- `state_values`: what a day leaves behind. -/
structure StateValues where
  (portfolioReference policyReference : ValidationArtifactReference)
  sequence : Nat
  tradingDate : Day
  cash : ℚ
  positions : List ShadowPortfolioPosition
  orderIntents : List ShadowPortfolioOrderIntent
  fills : List ShadowPortfolioFill
  (nav peakNav grossExposure turnover drawdown totalCost : ℚ)
  attribution : List ShadowPortfolioAttribution
  sourceReferences : List ValidationArtifactReference
  recordedAt : Instant
  limitations : List String
  deriving DecidableEq

/-- `quantity % Decimal("100") == 0`. -/
def wholeLots (quantity : ℚ) : Bool := (quantity / 100).den = 1

structure ShadowPortfolioDayState extends StateValues where
  sequence_positive : 0 < sequence
  cash_nonneg : 0 ≤ cash
  nav_nonneg : 0 ≤ nav
  whole_lots : ∀ p ∈ positions, wholeLots p.quantity
  deriving DecidableEq

/-- `ShadowPortfolioDayState(...)`, with the checks it makes. -/
def ShadowPortfolioDayState.construct (values : StateValues) :
    Except Raised ShadowPortfolioDayState :=
  if h : 0 < values.sequence ∧ 0 ≤ values.cash ∧ 0 ≤ values.nav then
    if hlots : ∀ p ∈ values.positions, wholeLots p.quantity then
      .ok { values with
        sequence_positive := h.1
        cash_nonneg := h.2.1
        nav_nonneg := h.2.2
        whole_lots := hlots }
    else .error (.valueError "Shadow Portfolio Positions must use 100-share lots")
  else .error (.valueError "Shadow Portfolio state sequence/cash/NAV is invalid")

theorem ShadowPortfolioDayState.construct_ok {values : StateValues}
    {state : ShadowPortfolioDayState} (h : construct values = .ok state) :
    state.toStateValues = values := by
  unfold construct at h
  split at h
  · split at h
    · injection h with h
      rw [← h]
    · cases h
  · cases h

-- ==== pricing a trade

def explicitCashCost (notional : ℚ) (policy : ShadowPortfolioPolicy) (selling : Bool) : ℚ :=
  let bps := policy.parameter "commission_bps"
    + if selling then policy.parameter "exit_cost_bps" else 0
  notional * bps / 10000

def roundDown (q : ℚ) : ℤ := if 0 ≤ q then ⌊q⌋ else ⌈q⌉

def lotFloor (quantity : ℚ) (lotSize : Nat) : ℚ := roundDown (quantity / lotSize) * lotSize

def weights (selected : List ShadowPortfolioMarketObservation) (method : PortfolioWeightingMethod) :
    Except Raised (List (String × ℚ)) :=
  if selected = [] then .ok []
  else if method = .equalWeight then
    .ok (dictOf (selected.map fun o => (o.symbol, 1 / (selected.length : ℚ))))
  else
    let values := dictOf (selected.map fun o =>
      (o.symbol, if method = .scoreWeight then o.score else o.riskWeight))
    if values.any fun pair => pair.2.all (· ≤ 0) then
      .error (.valueError (method.value ++ " requires positive explicit weights"))
    else
      let total := (values.filterMap (·.2)).sum
      .ok (values.filterMap fun pair => pair.2.map fun value => (pair.1, value / total))

def statusReasons (status : TradingStatus) : List String :=
  match status with
  | .unknown => ["TRADING_STATUS_UNKNOWN"]
  | .suspended => ["SECURITY_SUSPENDED"]
  | .trading => []

def limitReasons (state stop : PriceLimitState) (reason : String) :
    List String :=
  if state = .unknown then ["PRICE_LIMIT_STATE_UNKNOWN"]
  else if state = stop then [reason]
  else []

def sessionReasons (session : ShadowPortfolioTradeSession)
    (policy : ShadowPortfolioPolicy) : List String :=
  if session ∈ policy.allowedTradeSessions then []
  else ["TRADE_SESSION_NOT_ALLOWED:" ++ session.value]

def buyRejections (observation : ShadowPortfolioMarketObservation)
    (policy : ShadowPortfolioPolicy) : List String :=
  sortedDistinct (observation.reasonCodes ++ statusReasons observation.tradingStatus
    ++ limitReasons observation.priceLimitState .limitUp "BUY_LIMIT_UP"
    ++ sessionReasons observation.tradeSession policy
    ++ (if observation.referencePrice = none ∨ observation.markPrice = none
        then ["PRICE_EVIDENCE_MISSING"] else [])
    ++ (if observation.averageDailyAmount = none then ["CAPACITY_EVIDENCE_MISSING"] else []))

def sellRejections (observation : Option ShadowPortfolioMarketObservation)
    (position : ShadowPortfolioPosition) (tradingDate : Day)
    (policy : ShadowPortfolioPolicy) : List String :=
  let notSellable :=
    if policy.tPlusOne ∧ tradingDate ≤ position.openedOn then
      ["T_PLUS_ONE_NOT_SELLABLE"]
    else []
  match observation with
  | none => sortedDistinct (notSellable ++ ["MARKET_OBSERVATION_MISSING"])
  | some observation => sortedDistinct (notSellable
      ++ observation.reasonCodes
      ++ statusReasons observation.tradingStatus
      ++ limitReasons observation.priceLimitState .limitDown "SELL_LIMIT_DOWN"
      ++ sessionReasons observation.tradeSession policy
      ++ (if observation.referencePrice = none then ["PRICE_EVIDENCE_MISSING"] else [])
      ++ (if observation.averageDailyAmount = none then ["CAPACITY_EVIDENCE_MISSING"] else []))

def intent (symbol : String) (side : ShadowTradeSide) (quantity : ℚ)
    (referencePrice : Option ℚ) (reasonCodes : List String) :
    ShadowPortfolioOrderIntent where
  symbol := symbol
  side := side
  requestedQuantity := quantity
  referencePrice := referencePrice
  reasonCodes := reasonCodes

variable (intent : ShadowPortfolioOrderIntent)

def buildFill (policy : ShadowPortfolioPolicy)
    (status : ShadowPortfolioFillStatus) (quantity : ℚ) (fillPrice : Option ℚ) (notional cost : ℚ) :
    ShadowPortfolioFill where
  symbol := intent.symbol
  side := intent.side
  status := status
  filledQuantity := quantity
  fillPrice := fillPrice
  notional := notional
  totalCost := cost
  parameterProvenance := policy.parameters.map fun p => (p.name, p.provenance)
  limitations := sortedDistinct (policy.limitations ++ ["NOT_REAL_FILL"])

def fill (observation : Option ShadowPortfolioMarketObservation)
    (policy : ShadowPortfolioPolicy) (maximumQuantity : Option ℚ) :
    ShadowPortfolioFill :=
  let blocked : Bool := intent.reasonCodes ≠ [] ∨ intent.requestedQuantity ≤ 0
  match observation.bind (·.referencePrice) with
  | none => buildFill intent policy .unfilled 0 none 0 0
  | some referencePrice =>
    if blocked then buildFill intent policy .unfilled 0 none 0 0
    else
      let quantity := min intent.requestedQuantity (maximumQuantity.getD intent.requestedQuantity)
      if quantity ≤ 0 then buildFill intent policy .unfilled 0 none 0 0
      else
        let status : ShadowPortfolioFillStatus :=
          if quantity = intent.requestedQuantity then .filled
          else .partialFill
        let direction : ℚ := if intent.side = .buy then 1 else -1
        let fillPrice := referencePrice * (1 + direction
            * (policy.parameter "slippage_bps" + policy.parameter "impact_bps") / 10000)
        let notional := fillPrice * quantity
        let referenceNotional := referencePrice * quantity
        let cost := |notional - referenceNotional|
          + explicitCashCost notional policy (intent.side = .sell)
        buildFill intent policy status quantity (some fillPrice) notional cost

end MarketRegimeAlpha.Shadow
