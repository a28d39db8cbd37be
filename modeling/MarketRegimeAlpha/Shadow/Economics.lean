/-
The economics of one strategy trade that is bound to a target.

The liquidity assessment is made of the bars of a symbol; the evaluation fills whole
lots within it, and takes the return from the label of the target or from the barrier
that was touched. Of a bar, of a label and of its semantic result there is what is read
here; the statuses, the coverage and the lineage of the semantic result are left out, and
so is the order of market conditions.
-/
import MarketRegimeAlpha.Lib.Record
import MarketRegimeAlpha.Shadow.Portfolio

namespace MarketRegimeAlpha.Shadow

open Lib

-- == the liquidity assessment

inductive CapacityValueProvenance
  | observedFact
  | engineeringAssumption
  | calibratedParameter
  deriving DecidableEq

structure CapacityParameter where
  name : String
  value : ℚ
  provenance : CapacityValueProvenance
  evidenceReference : Option ValidationArtifactReference
  calibrated : provenance = .calibratedParameter →
    ∃ reference ∈ evidenceReference, reference.artifactKind = "CALIBRATION_ARTIFACT"
  not_observed : provenance ≠ .observedFact

structure LiquidityCapacityProtocol where
  (protocolId protocolHash : String)
  parameters : List CapacityParameter
  parameters_sorted : (parameters.map (·.name)).Pairwise (· < ·)

/-- `parameter_map.get`. -/
def LiquidityCapacityProtocol.parameter (protocol : LiquidityCapacityProtocol)
    (name : String) : Option CapacityParameter :=
  protocol.parameters.find? (·.name = name)

/-- What the assessment reads of `CanonicalMarketBar`. -/
structure LiquidityBar where
  symbol : String
  marketDate : Day
  (amount turnoverRate : Option ℚ)
  tradingStatus : TradingStatus
  priceLimitState : PriceLimitState
  amount_nonneg : ∀ value ∈ amount, 0 ≤ value

def PriceLimitState.value : PriceLimitState → String
  | .normal => "NORMAL"
  | .limitUp => "LIMIT_UP"
  | .limitDown => "LIMIT_DOWN"
  | .unknown => "UNKNOWN"

structure LiquidityCapacityAssessment where
  symbol : String
  asOfDate : Day
  (marketDataReference protocolReference : ValidationArtifactReference)
  (adv5 adv20 medianAmount turnoverRate : Option ℚ)
  (requestedPosition requestedOrder : ℚ)
  (participationRate positionAdvRatio orderAdvRatio : Option ℚ)
  limitState : String
  suspended : Bool
  (estimatedSlippageBps estimatedMarketImpactBps : Option ℚ)
  fillability : ℚ
  capacityCeiling : Option ℚ
  parameters : List CapacityParameter
  (observedFields assumptionFields calibratedFields reasonCodes : List String)
  createdAt : Instant

namespace LiquidityCapacityAssessment

/-- `__post_init__`, where the order of the texts is that of their construction. -/
def check (assessment : LiquidityCapacityAssessment) : Except Raised Unit := do
  require (0 ≤ assessment.fillability ∧ assessment.fillability ≤ 1)
    (.valueError "fillability must be within [0, 1]")
  require (0 ≤ assessment.requestedPosition ∧ 0 ≤ assessment.requestedOrder)
    (.valueError "requested values must be non-negative")
  require (∀ field ∈ assessment.observedFields,
      field ∉ assessment.assumptionFields ++ assessment.calibratedFields)
    (.valueError "observed and modeled Capacity fields cannot overlap")

def mean (values : List ℚ) : Option ℚ :=
  if values = [] then none else some (values.sum / values.length)

/-- `statistics.median`. -/
def median (values : List ℚ) : Option ℚ := do
  let ordered := sortBy id values
  let high ← ordered[ordered.length / 2]?
  let low ← ordered[(ordered.length - 1) / 2]?
  return (low + high) / 2

def lastOf {α : Type} (count : Nat) (values : List α) : List α :=
  values.drop (values.length - count)

def advRatio (adv20 : Option ℚ) (requested : ℚ) : Option ℚ :=
  (adv20.filter (· ≠ 0)).map (requested / ·)

variable (latest : Option LiquidityBar)

/-- The fillability of a latest bar, with the average amount and the ratio of the
order. -/
def fillabilityOf (adv20 orderAdv : Option ℚ) : ℚ :=
  if latest.all (fun bar => bar.tradingStatus ≠ .trading ∨ bar.priceLimitState ≠ .normal)
      ∨ adv20.all (· = 0) then 0
  else max 0 (1 - min 1 (orderAdv.getD 0))

def reasonsOf (impact slippage : Option CapacityParameter) : List String :=
  (if latest.isNone then ["LIQUIDITY_OBSERVATION_MISSING"] else [])
    ++ (if latest.all (·.tradingStatus ≠ .trading) then ["SUSPENDED_OR_NOT_NORMAL"] else [])
    ++ (if latest.any (·.priceLimitState ≠ .normal) then ["PRICE_LIMIT_FILLABILITY_BLOCKED"]
      else [])
    ++ (if impact.any (·.provenance = .engineeringAssumption)
      then ["IMPACT_PARAMETER_UNCALIBRATED"] else [])
    ++ (if slippage.any (·.provenance = .engineeringAssumption)
      then ["SLIPPAGE_PARAMETER_UNCALIBRATED"] else [])

def namesOf (provenance : CapacityValueProvenance) (parameters : List CapacityParameter) :
    List String :=
  sortBy id ((parameters.filter (·.provenance = provenance)).map (·.name))

def create (symbol : String) (asOfDate : Day) (marketDataReference : ValidationArtifactReference)
    (bars : List LiquidityBar) (requestedPosition requestedOrder : ℚ)
    (protocol : LiquidityCapacityProtocol) (createdAt : Instant) :
    Except Raised LiquidityCapacityAssessment := do
  let ofSymbol := sortBy (·.marketDate)
    (bars.filter fun item => item.symbol = symbol ∧ item.marketDate ≤ asOfDate)
  let amounts := ofSymbol.filterMap (·.amount)
  let adv20 := mean (lastOf 20 amounts)
  let latest := ofSymbol.getLast?
  let participation := protocol.parameter "participation_rate"
  let impact := protocol.parameter "impact_coefficient_bps"
  let slippage := protocol.parameter "slippage_bps"
  let orderAdv := advRatio adv20 requestedOrder
  let assessment : LiquidityCapacityAssessment :=
    { symbol, asOfDate, marketDataReference, requestedPosition, requestedOrder, adv20, createdAt
      protocolReference :=
        ⟨"LIQUIDITY_CAPACITY_PROTOCOL", protocol.protocolId, protocol.protocolHash⟩
      adv5 := mean (lastOf 5 amounts)
      medianAmount := median (lastOf 20 amounts)
      turnoverRate := latest.bind (·.turnoverRate)
      participationRate := participation.map (·.value)
      positionAdvRatio := advRatio adv20 requestedPosition
      orderAdvRatio := orderAdv
      limitState := latest.elim "UNKNOWN" (·.priceLimitState.value)
      suspended := latest.all (·.tradingStatus ≠ .trading)
      estimatedSlippageBps := slippage.map (·.value)
      estimatedMarketImpactBps := impact.bind fun item => orderAdv.map (item.value * ·)
      fillability := fillabilityOf latest adv20 orderAdv
      capacityCeiling := participation.bind fun item => adv20.map (· * item.value)
      parameters := protocol.parameters
      observedFields :=
        ["adv20", "adv5", "limit_state", "median_amount", "suspended", "turnover_rate"]
      assumptionFields := namesOf .engineeringAssumption protocol.parameters
      calibratedFields := namesOf .calibratedParameter protocol.parameters
      reasonCodes := sortedDistinct (reasonsOf latest impact slippage) }
  assessment.check
  return assessment

end LiquidityCapacityAssessment

-- ==== the label

inductive OutcomeMarketCondition
  | trading
  | suspended
  | limitUp
  | limitDown
  | missingQuote
  | nonTradingDay
  | corporateAction
  | unavailable
  deriving DecidableEq

inductive OutcomeAvailabilityStatus
  | complete
  | partiallyAvailable
  | unavailable
  deriving DecidableEq

inductive BarrierOrderingOutcome
  | notApplicable
  | noTouch
  | upFirst
  | downFirst
  | ambiguousNotObservable
  deriving DecidableEq

structure LabelValues where
  symbol : String
  (labelIntervalStart labelIntervalEnd : Instant)
  (decisionReferencePrice checkpointPrice checkpointReturn mfe mae : Option ℚ)
  barrierPassages : List (String × Option Instant)
  barrierOrdering : BarrierOrderingOutcome

structure TargetSemanticResult extends LabelValues where
  reasonCodes : List String
  return_eq : ∀ value ∈ checkpointReturn, ∃ reference ∈ decisionReferencePrice,
    ∃ price ∈ checkpointPrice, reference ≠ 0 ∧ value = (price - reference) / reference
  passages_sorted : (barrierPassages.map (·.1)).Pairwise (· < ·)
  reasons_sorted : reasonCodes.Pairwise (· < ·)

inductive LabelSchema
  | v1
  | v2
  | v3
  deriving DecidableEq

structure TargetOutcomeLabel extends LabelValues where
  (labelId labelHash : String)
  target : ValidationArtifactReference
  availabilityStatus : OutcomeAvailabilityStatus
  outcomeAvailableAt : Instant
  reasonCodes : List String
  schemaVersion : LabelSchema
  semanticResult : Option TargetSemanticResult
  interval_advances : labelIntervalStart < labelIntervalEnd
  available_after : labelIntervalEnd ≤ outcomeAvailableAt
  legacy_reference : schemaVersion ≠ .v3 → decisionReferencePrice ≠ none
  legacy_return : schemaVersion ≠ .v3 → ∀ reference ∈ decisionReferencePrice,
    (checkpointPrice ≠ none → reference ≠ 0)
      ∧ checkpointReturn = checkpointPrice.map fun price => (price - reference) / reference
  semantic_v3 : schemaVersion = .v3 ↔ semanticResult ≠ none
  semantic_eq : ∀ result ∈ semanticResult,
    toLabelValues = result.toLabelValues ∧ result.reasonCodes ⊆ reasonCodes
  passages_sorted : (barrierPassages.map (·.1)).Pairwise (· ≤ ·)
  ambiguous_reason : barrierOrdering = .ambiguousNotObservable →
    "BARRIER_ORDERING_NOT_OBSERVABLE" ∈ reasonCodes
  reasons_sorted : reasonCodes.Pairwise (· < ·)

-- ==== the inputs

inductive StrategyExitKind
  | fixedTime
  | barrier
  | forecastAware
  deriving DecidableEq

inductive StrategyEconomicsStatus
  | available
  | noEntry
  | notEstimable
  deriving DecidableEq

inductive StrategyExecutionPhase
  | entry
  | exit
  deriving DecidableEq

structure StrategyExecutionObservation where
  phase : StrategyExecutionPhase
  symbol : String
  price : Option ℚ
  marketConditions : List OutcomeMarketCondition
  (effectiveAt availableAt : Instant)
  sourceReference : ValidationArtifactReference
  price_pos : ∀ value ∈ price, 0 < value
  available_after : effectiveAt ≤ availableAt

structure StrategyEconomicsPolicy where
  (policyId policyHash : String)
  predictionTargetReference : ValidationArtifactReference
  exitKind : StrategyExitKind
  barrierId : Option String
  (barrierReturn forecastRawScoreThreshold : Option ℚ)
  lotSize : Nat
  parameters : List ShadowPortfolioParameter
  limitations : List String
  lot_size_eq : lotSize = 100
  parameters_exact : ∀ name, name ∈ parameters.map (·.name) ↔
    name ∈ ["commission_bps", "stamp_duty_bps", "spread_slippage_bps"]
  parameters_sorted : (parameters.map (·.name)).Pairwise (· ≤ ·)
  barrier_bound : exitKind = .barrier → barrierId ≠ none ∧ barrierReturn ≠ none
  barrier_unbound : exitKind ≠ .barrier → barrierId = none ∧ barrierReturn = none
  threshold_bound : exitKind = .forecastAware ↔ forecastRawScoreThreshold ≠ none

def StrategyEconomicsPolicy.parameter (policy : StrategyEconomicsPolicy) (name : String) : ℚ :=
  parameterOf policy.parameters name

/-- The arguments of `evaluate_strategy_economics`, and the identity of the assessment. -/
structure EconomicsInputs where
  policy : StrategyEconomicsPolicy
  label : TargetOutcomeLabel
  liquidity : LiquidityCapacityAssessment
  liquidityReference : ValidationArtifactReference
  (entryExecution exitExecution : StrategyExecutionObservation)
  requestedNotional : ℚ
  evaluatedAt : Instant
  forecastRawScore : Option ℚ

/-- What `_make_result` is given that is not an input. -/
structure EconomicsValues where
  status : StrategyEconomicsStatus
  filledQuantity : ℚ
  (entryPrice exitPrice grossReturn costReturn netReturn : Option ℚ)
  turnover : ℚ
  reasonCodes : List String
  deriving DecidableEq

structure StrategyEconomicsResult extends EconomicsValues where
  (policyReference targetLabelReference liquidityReference entryExecutionReference
    exitExecutionReference : ValidationArtifactReference)
  symbol : String
  requestedNotional : ℚ
  (capacityCeiling mfe mae : Option ℚ)
  evaluatedAt : Instant
  limitations : List String

-- ==== the evaluation

def unavailableConditions : List OutcomeMarketCondition :=
  [.suspended, .missingQuote, .unavailable, .nonTradingDay, .corporateAction]

def StrategyExecutionObservation.Unfillable (execution : StrategyExecutionObservation)
    (limit : OutcomeMarketCondition) : Prop :=
  execution.price = none
    ∨ ∃ condition ∈ limit :: unavailableConditions, condition ∈ execution.marketConditions

instance (execution : StrategyExecutionObservation) (limit : OutcomeMarketCondition) :
    Decidable (execution.Unfillable limit) :=
  inferInstanceAs (Decidable (_ ∨ _))

/-- The values of a trade that is not entered. -/
def noEntry (reasons : List String) : EconomicsValues :=
  ⟨.noEntry, 0, none, none, none, none, none, 0, sortedDistinct reasons⟩

namespace EconomicsInputs

variable (inputs : EconomicsInputs)

def check : Except Raised Unit := do
  require (0 < inputs.requestedNotional)
    (.valueError "Strategy Economics requested notional must be positive")
  require (inputs.label.target.artifactId = inputs.policy.predictionTargetReference.artifactId
      ∧ inputs.label.target.contentHash = inputs.policy.predictionTargetReference.contentHash)
    (.valueError "Strategy/Outcome TargetDefinition identity mismatch")
  require (inputs.liquidity.symbol = inputs.label.symbol)
    (.valueError "Strategy Liquidity assessment symbol mismatch")
  require (inputs.entryExecution.phase = .entry ∧ inputs.exitExecution.phase = .exit
      ∧ inputs.entryExecution.symbol = inputs.label.symbol
      ∧ inputs.exitExecution.symbol = inputs.label.symbol)
    (.valueError "Strategy execution phase/symbol lineage mismatch")
  require (inputs.entryExecution.effectiveAt < inputs.exitExecution.effectiveAt)
    (.valueError "Strategy Entry must precede Exit execution evidence")
  require (inputs.entryExecution.effectiveAt ≤ inputs.label.labelIntervalStart)
    (.valueError "Strategy Entry occurs after the holding path starts")
  require (inputs.label.labelIntervalEnd ≤ inputs.exitExecution.effectiveAt)
    (.valueError "Strategy Exit precedes the intended checkpoint")
  require (inputs.label.outcomeAvailableAt ≤ inputs.evaluatedAt
      ∧ inputs.liquidity.createdAt ≤ inputs.evaluatedAt
      ∧ inputs.entryExecution.availableAt ≤ inputs.evaluatedAt
      ∧ inputs.exitExecution.availableAt ≤ inputs.evaluatedAt)
    (.valueError "Strategy Economics cannot precede required input availability")

def reasons : List String :=
  inputs.label.reasonCodes ++ (if inputs.entryExecution.Unfillable .limitUp
      then ["ENTRY_MARKET_CONDITION_NOT_FILLABLE"] else [])
    ++ (if inputs.exitExecution.Unfillable .limitDown
      then ["EXIT_MARKET_CONDITION_NOT_FILLABLE"] else [])
    ++ (if inputs.liquidity.fillability ≤ 0 then ["LIQUIDITY_FILLABILITY_ZERO"] else [])
    ++ (if inputs.label.availabilityStatus = .unavailable
      then ["TARGET_OUTCOME_UNAVAILABLE"] else [])
    ++ (if inputs.label.checkpointPrice = none ∨ inputs.exitExecution.price = none
      then ["EXIT_PRICE_NOT_ESTIMABLE"] else [])
    ++ (if inputs.policy.exitKind = .barrier
        ∧ inputs.label.barrierOrdering = .ambiguousNotObservable
      then ["BARRIER_ORDERING_NOT_OBSERVABLE"] else [])
    ++ (if inputs.policy.exitKind = .forecastAware ∧ inputs.forecastRawScore = none
      then ["FORECAST_RAW_SCORE_MISSING"] else [])

def ScoreBelow : Prop :=
  inputs.policy.exitKind = .forecastAware ∧ ∃ score ∈ inputs.forecastRawScore,
    score < inputs.policy.forecastRawScoreThreshold.getD 0

instance : Decidable inputs.ScoreBelow := inferInstanceAs (Decidable (_ ∧ _))

def HasReason (codes : List String) : Prop := ∃ code ∈ codes, code ∈ inputs.reasons

instance (codes : List String) : Decidable (inputs.HasReason codes) :=
  inferInstanceAs (Decidable (∃ _ ∈ _, _))

def entryReasons : List String :=
  ["ENTRY_MARKET_CONDITION_NOT_FILLABLE", "LIQUIDITY_FILLABILITY_ZERO"]

def exitReasons : List String :=
  ["TARGET_OUTCOME_UNAVAILABLE", "EXIT_PRICE_NOT_ESTIMABLE",
    "EXIT_MARKET_CONDITION_NOT_FILLABLE", "BARRIER_ORDERING_NOT_OBSERVABLE",
    "FORECAST_RAW_SCORE_MISSING"]

/-- `executable_notional`; a ceiling of zero is false, and the request stands for it. -/
def executableNotional : ℚ :=
  min (min inputs.requestedNotional
      ((inputs.liquidity.capacityCeiling.filter (· ≠ 0)).getD inputs.requestedNotional))
    (inputs.requestedNotional * inputs.liquidity.fillability)

variable (entryPrice : ℚ)

/-- The whole lots that the executable notional pays for. -/
def filledQuantity : ℚ :=
  lotFloor (inputs.executableNotional / entryPrice) inputs.policy.lotSize

def makeResult (values : EconomicsValues) : Except Raised StrategyEconomicsResult := do
  let returns := [values.grossReturn, values.costReturn, values.netReturn]
  require (values.status = .available → none ∉ values.entryPrice :: values.exitPrice :: returns)
    (.valueError "Available Strategy Economics requires complete economics")
  require (values.status ≠ .available → ∀ value ∈ returns, value = none)
    (.valueError "Unavailable Strategy Economics cannot contain returns")
  return { values with
    policyReference :=
      ⟨"STRATEGY_ECONOMICS_POLICY", inputs.policy.policyId, inputs.policy.policyHash⟩
    targetLabelReference := ⟨"TARGET_OUTCOME_LABEL", inputs.label.labelId, inputs.label.labelHash⟩
    liquidityReference := inputs.liquidityReference
    entryExecutionReference := inputs.entryExecution.sourceReference
    exitExecutionReference := inputs.exitExecution.sourceReference
    symbol := inputs.label.symbol
    requestedNotional := inputs.requestedNotional
    capacityCeiling := inputs.liquidity.capacityCeiling
    mfe := inputs.label.mfe
    mae := inputs.label.mae
    evaluatedAt := inputs.evaluatedAt
    limitations := inputs.policy.limitations }

def fixedExit : Except Raised (ℚ × ℚ) :=
  match inputs.exitExecution.price, inputs.label.checkpointReturn with
  | some price, some gross => .ok (price, gross)
  | _, _ => .error (.assertionError "")

def selectedPassage : Option (Option Instant) :=
  (inputs.label.barrierPassages.find? fun passage =>
    some passage.1 = inputs.policy.barrierId).map (·.2)

/-- The exit price, the gross return and the reasons that are added. -/
def exitValues : Except Raised ((ℚ × ℚ) × List String) := do
  if inputs.policy.exitKind = .barrier then
    let barrierReturn ← orRaise inputs.policy.barrierReturn (.assertionError "")
    let passage ← orRaise inputs.selectedPassage (.lookupError "")
    if passage = none then
      let values ← inputs.fixedExit
      return (values, ["SELECTED_BARRIER_NOT_TOUCHED_FIXED_TIME_FALLBACK"])
    else
      let exitPrice := entryPrice * (1 + barrierReturn)
      require (inputs.exitExecution.price = some exitPrice)
        (.valueError "Strategy barrier Exit price diverges from execution owner")
      return ((exitPrice, barrierReturn), [])
  else
    let values ← inputs.fixedExit
    require (inputs.exitExecution.price = inputs.label.checkpointPrice)
      (.valueError "Strategy Exit price diverges from Target checkpoint owner")
    return (values, [])

def costReturn : ℚ :=
  (inputs.policy.parameter "commission_bps" * 2 + inputs.policy.parameter "stamp_duty_bps"
    + inputs.policy.parameter "spread_slippage_bps" * 2
    + inputs.liquidity.estimatedMarketImpactBps.getD 0 * 2) / 10000

def filledValues : Except Raised EconomicsValues := do
  let filled := inputs.filledQuantity entryPrice
  if inputs.HasReason exitReasons then
    return ⟨.notEstimable, filled, some entryPrice, none, none, none, none, 1,
      sortedDistinct inputs.reasons⟩
  else
    let ((exitPrice, gross), added) ← inputs.exitValues entryPrice
    let reasons := added ++ inputs.reasons
    return ⟨.available, filled, some entryPrice, some exitPrice, some gross,
      some inputs.costReturn, some (gross - inputs.costReturn), 2,
      sortedDistinct (if reasons = [] then ["ECONOMICS_AVAILABLE"] else reasons)⟩

def evaluateStrategyEconomics : Except Raised StrategyEconomicsResult := do
  inputs.check
  if inputs.ScoreBelow then
    inputs.makeResult (noEntry ("FORECAST_RAW_SCORE_BELOW_ENTRY_THRESHOLD" :: inputs.reasons))
  else if inputs.HasReason entryReasons then
    inputs.makeResult (noEntry inputs.reasons)
  else
    let entryPrice ← orRaise inputs.entryExecution.price (.assertionError "")
    if inputs.filledQuantity entryPrice = 0 then
      inputs.makeResult (noEntry ("ZERO_EXECUTABLE_ROUND_LOT" :: inputs.reasons))
    else
      let values ← inputs.filledValues entryPrice
      inputs.makeResult values

end EconomicsInputs

end MarketRegimeAlpha.Shadow
