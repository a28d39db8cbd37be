/-
The version 1 Backtest formulas, with their parameters and their groups.

# What stands for what

A `Decimal` is the rational it spells, and the statistics are written
over an `Arithmetic`, so that the same text is run in the context of a
formula and studied in exact arithmetic. The value of a parameter is a
sum of the four types, which is what exactly one typed scalar means. An
identifier is a number and a timestamp a number of microseconds. The
content hashes, which no formula reads, are left out, and so is the
contract of version 2, which a definition of version 1 does not check;
the evaluation of version 2 is the argument `episode`.
-/
import Mathlib.Data.Prod.Lex
import MarketRegimeAlpha.Lib.Arithmetic
import MarketRegimeAlpha.Lib.Dict
import MarketRegimeAlpha.Lib.OrderStat

namespace MarketRegimeAlpha.ResearchQualification.EvaluationFormula

open Lib

-- ==== the vocabulary

inductive FormulaParameterType where
  | decimal
  | integer
  | boolean
  | text
  deriving DecidableEq

/-- `kind.value`. -/
def FormulaParameterType.name : FormulaParameterType → String
  | .decimal => "DECIMAL"
  | .integer => "INTEGER"
  | .boolean => "BOOLEAN"
  | .text => "TEXT"

inductive BacktestMetricSurface where
  | data
  | candidate
  | context
  | signalForecast
  | portfolioRisk
  | economics
  | stability
  deriving DecidableEq

inductive BacktestFormulaCode where
  | coverageRate
  | missingnessRate
  | sourceGapRate
  | unavailableRate
  | mean
  | sampleStddev
  | icir
  | rankIc
  | topKReturn
  | topBottomSpread
  | hitRate
  | selectedRatio
  | predictiveBias
  | predictiveMae
  | predictiveRmse
  | grossExposure
  | netExposure
  | turnover
  | netReturnAssumedCost
  | cumulativeReturn
  | annualizedReturn
  | volatility
  | sharpe
  | sortino
  | calmar
  | maxDrawdown
  | winRate
  | mfeMean
  | maxAdverseExcursionMean
  deriving DecidableEq

/-- `code.value`. -/
def BacktestFormulaCode.text : BacktestFormulaCode → String
  | .coverageRate => "coverage_rate"
  | .missingnessRate => "missingness_rate"
  | .sourceGapRate => "source_gap_rate"
  | .unavailableRate => "unavailable_rate"
  | .mean => "mean"
  | .sampleStddev => "sample_stddev"
  | .icir => "icir"
  | .rankIc => "rank_ic"
  | .topKReturn => "top_k_return"
  | .topBottomSpread => "top_bottom_spread"
  | .hitRate => "hit_rate"
  | .selectedRatio => "selected_ratio"
  | .predictiveBias => "predictive_bias"
  | .predictiveMae => "predictive_mae"
  | .predictiveRmse => "predictive_rmse"
  | .grossExposure => "gross_exposure"
  | .netExposure => "net_exposure"
  | .turnover => "turnover"
  | .netReturnAssumedCost => "net_return_assumed_cost"
  | .cumulativeReturn => "cumulative_return"
  | .annualizedReturn => "annualized_return"
  | .volatility => "volatility"
  | .sharpe => "sharpe"
  | .sortino => "sortino"
  | .calmar => "calmar"
  | .maxDrawdown => "max_drawdown"
  | .winRate => "win_rate"
  | .mfeMean => "mfe_mean"
  | .maxAdverseExcursionMean => "max_adverse_excursion_mean"

inductive FormulaSourceState where
  | available
  | missing
  | sourceGap
  | unavailable
  | failed
  | unknown
  deriving DecidableEq

inductive FrozenRankingMembership where
  | none
  | eligible
  | selected
  | top
  | bottom
  deriving DecidableEq

inductive FormulaResultState where
  | estimable
  | notEstimable
  deriving DecidableEq

-- ==== the definition

inductive FormulaParameterValue where
  | decimal (value : ℚ)
  | integer (value : Int)
  | boolean (value : Bool)
  | text (value : String)
  deriving DecidableEq

def FormulaParameterValue.type : FormulaParameterValue → FormulaParameterType
  | .decimal _ => .decimal
  | .integer _ => .integer
  | .boolean _ => .boolean
  | .text _ => .text

/-- `_CODE.fullmatch(value)`. -/
def isCode : String → Bool :=
  fullmatch isLower (fun c => isLower c || isDigit c || c == '_' || c == '-') 99

structure EvaluationFormulaParameter where
  ordinal : Int
  parameterCode : String
  value : FormulaParameterValue
  ordinal_positive : 1 ≤ ordinal
  code_valid : isCode parameterCode
  text_nonempty : value ≠ .text ""

structure EvaluationFormulaDefinition where
  formulaCode : BacktestFormulaCode
  formulaVersion : Int
  decimalPrecision : Nat
  roundingMode : RoundingMode
  parameters : List EvaluationFormulaParameter
  surface : BacktestMetricSurface
  version_positive : 1 ≤ formulaVersion
  precision_bounds : 16 ≤ decimalPrecision ∧ decimalPrecision ≤ 100
  ordinals_contiguous : parameters.map (·.ordinal)
    = (List.range' 1 parameters.length).map fun k : Nat => (k : Int)
  codes_unique : (parameters.map (·.parameterCode)).Nodup

structure FormulaObservation where
  observationId : Nat
  ordinal : Int
  groupKey : String
  sourceState : FormulaSourceState
  value : Option ℚ
  secondaryValue : Option ℚ
  rankingMembership : FrozenRankingMembership
  decisionTime : Option Int
  outcomeKnownAt : Option Int
  buyTurnover : Option ℚ
  sellTurnover : Option ℚ
  ordinal_positive : 1 ≤ ordinal
  group_named : groupKey ≠ ""
  times_together : decisionTime.isNone = outcomeKnownAt.isNone
  buy_nonneg : ∀ turnover ∈ buyTurnover, 0 ≤ turnover
  sell_nonneg : ∀ turnover ∈ sellTurnover, 0 ≤ turnover

structure FormulaEvaluationResult where
  state : FormulaResultState
  decimalValue : Option ℚ
  estimableCount : Nat
  reasonCode : String

/-- `_estimated`; the decimals here are finite. -/
def estimated (value : ℚ) (count : Nat) : FormulaEvaluationResult :=
  ⟨.estimable, some value, count, "ESTIMATED_BY_FROZEN_FORMULA"⟩

def notEstimable (reason : String) (count : Nat) : FormulaEvaluationResult :=
  ⟨.notEstimable, none, count, reason⟩

inductive FormulaError where
  | valueError (message : String)
  | assertionError
  | signal (signal : Signal)

def signalled {α : Type _} : Except Signal α → Except FormulaError α
  | .ok value => .ok value
  | .error signal => .error (.signal signal)

-- ==== the parameters

def parameter (formula : EvaluationFormulaDefinition) (code : String)
    (kind : FormulaParameterType) : Except FormulaError FormulaParameterValue :=
  match formula.parameters.filter fun item =>
      item.parameterCode = code && item.value.type = kind with
  | [item] => .ok item.value
  | _ => .error (.valueError ("formula " ++ formula.formulaCode.text
      ++ " requires one " ++ kind.name ++ " " ++ code))

def integerParameter (formula : EvaluationFormulaDefinition) (code : String) :
    Except FormulaError Int := do
  match ← parameter formula code .integer with
  | .integer value => return value
  | _ => .error .assertionError

def optionalIntegerParameter (formula : EvaluationFormulaDefinition)
    (code : String) (default : Int) : Except FormulaError Int :=
  if formula.parameters.filter (·.parameterCode = code) = [] then .ok default
  else integerParameter formula code

def decimalParameter (formula : EvaluationFormulaDefinition) (code : String) :
    Except FormulaError ℚ := do
  match ← parameter formula code .decimal with
  | .decimal value => return value
  | _ => .error .assertionError

def booleanParameter (formula : EvaluationFormulaDefinition) (code : String) :
    Except FormulaError Bool := do
  match ← parameter formula code .boolean with
  | .boolean value => return value
  | _ => .error .assertionError

def textParameter (formula : EvaluationFormulaDefinition) (code : String) :
    Except FormulaError String := do
  match ← parameter formula code .text with
  | .text value => return value
  | _ => .error .assertionError

-- ==== the statistics

section Statistics

variable {K : Type _} [Field K] [LinearOrder K] (A : Arithmetic K)

def mean (values : List K) : Except Signal K := A.quotient (A.sum values) values.length

def sampleStd (values : List K) : Except Signal (Option K) :=
  if values.length < 2 then return none
  else do
    let mean ← mean A values
    let squares := values.map fun item => A.square (A.round (item - mean))
    let variance ← A.quotient (A.sum squares) ((values.length - 1 : Nat) : K)
    let deviation ← A.sqrt variance
    return some deviation

/-- The ranks of the rest of the order, from a place in it on. -/
def midranksFrom (cursor : Nat) : List (K × Nat) → List K → List K
  | [], ranks => ranks
  | first :: rest, ranks =>
    let tied := first :: rest.takeWhile (·.1 = first.1)
    let stop := cursor + tied.length
    let rank := A.round (A.round (((cursor + 1 : Nat) : K) + (stop : K)) / 2)
    midranksFrom stop (rest.dropWhile (·.1 = first.1))
      (tied.foldl (fun ranks item => ranks.set item.2 rank) ranks)
  termination_by ordered => ordered.length
  decreasing_by
    exact Nat.lt_succ_of_le (List.dropWhile_suffix _).length_le

def midranks (values : List K) : List K :=
  let ordered := sortBy (fun item : K × Nat => toLex item) values.zipIdx
  midranksFrom A 0 ordered (List.replicate values.length 0)

/-- `numerator` of `_spearman`, of the ranks and their means. -/
def rankNumerator (left right : List K) (leftMean rightMean : K) : K :=
  A.sum ((left.zip right).map fun (x, y) =>
    A.round (A.round (x - leftMean) * A.round (y - rightMean)))

/-- `left_sum` and `right_sum` of `_spearman`. -/
def rankSquares (ranks : List K) (mean : K) : K :=
  A.sum (ranks.map fun item => A.square (A.round (item - mean)))

def spearman (pairs : List (K × K)) : Except Signal (Option K) := do
  let left := midranks A (pairs.map (·.1))
  let right := midranks A (pairs.map (·.2))
  let leftMean ← mean A left
  let rightMean ← mean A right
  let numerator := rankNumerator A left right leftMean rightMean
  let leftSum := rankSquares A left leftMean
  let rightSum := rankSquares A right rightMean
  let denominator ← A.sqrt (A.round (leftSum * rightSum))
  if denominator = 0 then return none
  else do
    let correlation ← A.quotient numerator denominator
    return some correlation

def cumulative (values : List K) : K :=
  let wealth := values.foldl (fun wealth value => A.round (wealth * A.round (1 + value))) 1
  A.round (wealth - 1)

/-- The wealth, the peak and the maximum after one more value. -/
def drawdownStep : K × K × K → K → K × K × K
  | (wealth, peak, maximum), value =>
    let wealth := A.round (wealth * A.round (1 + value))
    let peak := max peak wealth
    if 0 < peak then
      (wealth, peak, max maximum (A.round (1 - A.round (wealth / peak))))
    else (wealth, peak, maximum)

def maximumDrawdown (values : List K) : K := (values.foldl (drawdownStep A) (1, 1, 0)).2.2

def annualizedReturn (values : List K) (annualization : Int) : Except Signal (Option K) :=
  let wealth := A.round (1 + cumulative A values)
  if wealth ≤ 0 then return none
  else do
    let exponent ← A.quotient (annualization : K) (values.length : K)
    return some (A.round (A.power wealth exponent - 1))

end Statistics

-- ==== the groups

def values (observations : List FormulaObservation) : List ℚ := observations.filterMap (·.value)

def groups (observations : List FormulaObservation) : List (List FormulaObservation) :=
  (firsts (observations.map (·.groupKey))).map fun key => observations.filter (·.groupKey = key)

def FormulaObservation.pair (o : FormulaObservation) : Option (ℚ × ℚ) :=
  match o.value, o.secondaryValue with
  | some value, some secondary => some (value, secondary)
  | _, _ => none

def pairs (observations : List FormulaObservation) : List (ℚ × ℚ) := observations.filterMap (·.pair)

-- ==== the formulas

section Formulas

variable (A : Arithmetic ℚ) (formula : EvaluationFormulaDefinition)
  (observations : List FormulaObservation)

/-- The states that a rate counts. -/
def wanted : BacktestFormulaCode → List FormulaSourceState
  | .coverageRate => [.available]
  | .missingnessRate => [.missing]
  | .sourceGapRate => [.sourceGap]
  | _ => [.unavailable, .failed, .unknown]

def rosterRate : Except FormulaError FormulaEvaluationResult := do
  let expected ← integerParameter formula "expected_roster_size"
  if expected ≤ 0 then return notEstimable "EMPTY_EXPECTED_ROSTER" 0
  else
    let rosterMode := formula.parameters.find? (·.parameterCode = "roster_mode")
    require (∀ mode ∈ rosterMode, mode.value = .text "declared_context_subset"
        ∧ formula.surface = .context ∧ formula.formulaCode = .coverageRate)
      (.valueError "formula roster_mode is unsupported")
    if expected < observations.length
        ∨ (rosterMode.isNone ∧ (observations.length : Int) ≠ expected) then
      return notEstimable "EXPECTED_ROSTER_MISMATCH" 0
    else
      let numerator := (observations.filter
        (·.sourceState ∈ wanted formula.formulaCode)).length
      let rate ← signalled (A.quotient numerator expected)
      return estimated rate numerator

def groupCorrelation (minimum : Int) (found : List ℚ × Nat)
    (members : List FormulaObservation) : Except Signal (List ℚ × Nat) := do
  let pairs := pairs members
  if (pairs.length : Int) < minimum then return found
  else
    match ← spearman A pairs with
    | none => return found
    | some correlation => return (found.1 ++ [correlation], found.2 + pairs.length)

def rankCorrelations : Except FormulaError (List ℚ × Nat) := do
  let minimum ← optionalIntegerParameter formula "minimum_pairs_per_group" 2
  signalled ((groups observations).foldlM (groupCorrelation A minimum) ([], 0))

def rankIc : Except FormulaError FormulaEvaluationResult := do
  let (correlations, pairCount) ← rankCorrelations A formula observations
  if correlations = [] then return notEstimable "NO_ESTIMABLE_RANK_GROUP" 0
  else
    let value ← signalled (mean A correlations)
    return estimated value pairCount

def icSummary : Except FormulaError FormulaEvaluationResult := do
  let available := observations.filter (·.sourceState = .available)
  let (values, _) ← rankCorrelations A formula available
  if values = [] then return notEstimable "NO_ESTIMABLE_RANK_GROUP" 0
  else
    let minimum ← optionalIntegerParameter formula "minimum_observations" 1
    if (values.length : Int) < minimum then
      return notEstimable "INSUFFICIENT_OBSERVATIONS" values.length
    else if formula.formulaCode = .mean then
      let value ← signalled (mean A values)
      return estimated value values.length
    else
      match ← signalled (sampleStd A values) with
      | none => return notEstimable "INSUFFICIENT_OBSERVATIONS" values.length
      | some deviation =>
        if formula.formulaCode = .sampleStddev then
          return estimated deviation values.length
        else if deviation = 0 then
          return notEstimable "ZERO_VARIANCE" values.length
        else
          let average ← signalled (mean A values)
          let value ← signalled (A.quotient average deviation)
          return estimated value values.length

def ranked (membership : FrozenRankingMembership) (members : List FormulaObservation) : List ℚ :=
  values (members.filter (·.rankingMembership = membership))

def groupReturn (width : Int) (found : List ℚ × Nat)
    (members : List FormulaObservation) : Except Signal (List ℚ × Nat) := do
  let top := ranked .top members
  let bottom := ranked .bottom members
  if (top.length : Int) ≠ width then return found
  else if formula.formulaCode = .topKReturn then
    let value ← mean A top
    return (found.1 ++ [value], found.2 + top.length)
  else if (bottom.length : Int) = width then
    let topMean ← mean A top
    let bottomMean ← mean A bottom
    return (found.1 ++ [A.round (topMean - bottomMean)], found.2 + (top.length + bottom.length))
  else return found

/-- A member of a frozen ranking whose Outcome was not known later. -/
def notFrozen (o : FormulaObservation) : Bool :=
  o.rankingMembership ∈ [.top, .bottom] && match o.decisionTime, o.outcomeKnownAt with
      | some decision, some known => known ≤ decision
      | _, _ => true

def rankedReturn : Except FormulaError FormulaEvaluationResult := do
  let width ← integerParameter formula "top_k"
  require (1 ≤ width) (.valueError "top_k must be positive")
  if observations.any notFrozen then
    return notEstimable "RANKING_NOT_FROZEN_BEFORE_OUTCOME" 0
  else
    let (results, count) ← signalled
      ((groups observations).foldlM (groupReturn A formula width) ([], 0))
    if results = [] then
      return notEstimable "INCOMPLETE_FROZEN_RANKING_MEMBERSHIP" 0
    else
      let value ← signalled (mean A results)
      return estimated value count

def predictive : Except FormulaError FormulaEvaluationResult := do
  let pairs := pairs observations
  if pairs = [] then return notEstimable "NO_COMPLETE_FORECAST_OUTCOME_PAIR" 0
  else
    let errors := pairs.map fun (forecast, target) => A.round (forecast - target)
    let value ← signalled <|
      match formula.formulaCode with
      | .predictiveBias => mean A errors
      | .predictiveMae => mean A (errors.map fun item => A.round |item|)
      | _ => do
          let value ← mean A (errors.map fun item => A.round (item * item))
          A.sqrt value
    return estimated value pairs.length

/-- The value of one group of `_portfolio_formula`. -/
def groupExposure (members : List FormulaObservation) : ℚ :=
  match formula.formulaCode with
  | .grossExposure => A.sum ((values members).map fun item => A.round |item|)
  | .netExposure => A.sum (values members)
  | _ => A.round (1 / 2 * A.sum ((pairs members).map fun (value, secondary) =>
    A.round |A.round (value - secondary)|))

def portfolioFormula : Except FormulaError FormulaEvaluationResult := do
  if formula.formulaCode = .turnover then
    let _ ← booleanParameter formula "initial_cash"
    let _ ← booleanParameter formula "final_liquidation"
    let _ ← textParameter formula "carry_forward"
    let _ ← textParameter formula "corporate_action_convention"
  if formula.formulaCode = .turnover ∧ ∃ o ∈ observations, o.secondaryValue = none then
    return notEstimable "INCOMPLETE_PREVIOUS_WEIGHT_ROSTER" 0
  else
    let groups := groups observations
    let value ← signalled (mean A (groups.map (groupExposure A formula)))
    return estimated value (groups.map (·.length)).sum

/-- The net value of one group of `_net_assumed_cost`. -/
def netPeriod (commission slippage stamp : ℚ) (members : List FormulaObservation) : ℚ :=
  let gross := A.sum (values members)
  let buy := A.sum (members.filterMap (·.buyTurnover))
  let sell := A.sum (members.filterMap (·.sellTurnover))
  let cost := A.round (A.round (buy + sell) * A.round (commission + slippage))
  A.round (A.round (gross - cost) - A.round (sell * stamp))

/-- An observation without a value or a turnover. -/
def incompleteCost (o : FormulaObservation) : Bool :=
  o.buyTurnover.isNone || o.sellTurnover.isNone || o.value.isNone

/-- `_net_assumed_cost`: the groups before the first that is incomplete are
counted. -/
def netAssumedCost : Except FormulaError FormulaEvaluationResult := do
  let commission ← decimalParameter formula "commission_bps"
  let slippage ← decimalParameter formula "slippage_bps"
  let stamp ← decimalParameter formula "stamp_duty_bps"
  let bps := fun x : ℚ => A.round (x / 10000)
  let groups := groups observations
  let complete := groups.takeWhile fun members => !members.any incompleteCost
  let count := (complete.map (·.length)).sum
  if complete.length < groups.length then
    return notEstimable "INCOMPLETE_COST_TURNOVER" count
  else
    let value ← signalled (mean A (groups.map
      (netPeriod A (bps commission) (bps slippage) (bps stamp))))
    return estimated value count

/-- `annualization_sessions`, which must be positive. -/
def annualizationSessions : Except FormulaError Int := do
  let annualization ← integerParameter formula "annualization_sessions"
  require (0 < annualization) (.valueError "annualization_sessions must be positive")
  return annualization

def periods : List ℚ :=
  (groups (sortBy (·.ordinal) observations)).map fun members => A.sum (values members)

def economicVolatility (values : List ℚ) :
    Except FormulaError FormulaEvaluationResult := do
  let annualization ← annualizationSessions formula
  match ← signalled (sampleStd A values) with
  | none => return notEstimable "INSUFFICIENT_OBSERVATIONS" values.length
  | some deviation =>
    let scale ← signalled (A.sqrt (annualization : ℚ))
    return estimated (A.round (deviation * scale)) values.length

def economicSharpe (values : List ℚ) :
    Except FormulaError FormulaEvaluationResult := do
  let annualization ← annualizationSessions formula
  let riskFree ← decimalParameter formula "risk_free_per_session"
  let excess := values.map fun item => A.round (item - riskFree)
  match ← signalled (sampleStd A excess) with
  | none => return notEstimable "INSUFFICIENT_OBSERVATIONS" values.length
  | some deviation =>
    if deviation = 0 then return notEstimable "ZERO_VARIANCE" values.length
    else
      let average ← signalled (mean A excess)
      let ratio ← signalled (A.quotient average deviation)
      let scale ← signalled (A.sqrt (annualization : ℚ))
      return estimated (A.round (ratio * scale)) values.length

def economicSortino (values : List ℚ) :
    Except FormulaError FormulaEvaluationResult := do
  let annualization ← annualizationSessions formula
  let mar ← decimalParameter formula "mar_per_session"
  let excess := values.map fun item => A.round (item - mar)
  let below ← signalled (A.quotient
    (A.sum (excess.map fun item => A.square (min 0 item))) (excess.length : ℚ))
  let downside ← signalled (A.sqrt below)
  if downside = 0 then
    return notEstimable "NO_DOWNSIDE_DEVIATION" values.length
  else
    let average ← signalled (mean A excess)
    let ratio ← signalled (A.quotient average downside)
    let scale ← signalled (A.sqrt (annualization : ℚ))
    return estimated (A.round (ratio * scale)) values.length

def economicCalmar (values : List ℚ) :
    Except FormulaError FormulaEvaluationResult := do
  let annualization ← annualizationSessions formula
  match ← signalled (annualizedReturn A values annualization) with
  | none => return notEstimable "NON_POSITIVE_WEALTH" values.length
  | some annualized =>
    let drawdown := maximumDrawdown A values
    if drawdown = 0 then return notEstimable "ZERO_DRAWDOWN" values.length
    else
      let value ← signalled (A.quotient annualized (A.round |drawdown|))
      return estimated value values.length

def economics : Except FormulaError FormulaEvaluationResult := do
  let values := periods A observations
  match formula.formulaCode with
  | .cumulativeReturn => return estimated (cumulative A values) values.length
  | .maxDrawdown => return estimated (maximumDrawdown A values) values.length
  | .winRate =>
    let rate ← signalled (A.quotient
      ((values.filter fun item => 0 < item).length : ℚ) (values.length : ℚ))
    return estimated rate values.length
  | .annualizedReturn =>
    let annualization ← annualizationSessions formula
    match ← signalled (annualizedReturn A values annualization) with
    | none => return notEstimable "NON_POSITIVE_WEALTH" values.length
    | some value => return estimated value values.length
  | .volatility => economicVolatility A formula values
  | .sharpe => economicSharpe A formula values
  | .sortino => economicSortino A formula values
  | .calmar => economicCalmar A formula values
  | _ => do
      let _ ← annualizationSessions formula
      .error (.valueError ("unsupported economic formula: " ++ formula.formulaCode.text))

def meanFormula : Except FormulaError FormulaEvaluationResult := do
  let value ← signalled (mean A (values observations))
  return estimated value observations.length

def deviationFormula : Except FormulaError FormulaEvaluationResult := do
  match ← signalled (sampleStd A (values observations)) with
  | none => return notEstimable "INSUFFICIENT_OBSERVATIONS" observations.length
  | some deviation => return estimated deviation observations.length

/-- The mean of the available values over their deviation. -/
def icirFormula : Except FormulaError FormulaEvaluationResult := do
  let values := values observations
  match ← signalled (sampleStd A values) with
  | none => return notEstimable "INSUFFICIENT_OBSERVATIONS" values.length
  | some deviation =>
    if deviation = 0 then return notEstimable "ZERO_VARIANCE" values.length
    else
      let average ← signalled (mean A values)
      let value ← signalled (A.quotient average deviation)
      return estimated value values.length

def isSelected (o : FormulaObservation) : Bool := o.rankingMembership ∈ [.selected, .top]

/-- The share of the selected members with a positive value. -/
def hitRate : Except FormulaError FormulaEvaluationResult := do
  let selected := observations.filter isSelected
  if selected = [] then return notEstimable "NO_SELECTED_MEMBERS" 0
  else
    let hits := selected.filter fun item => item.value.any (0 < ·)
    let rate ← signalled (A.quotient (hits.length : ℚ) (selected.length : ℚ))
    return estimated rate selected.length

/-- The share of the eligible members that were selected, of all the
observations. -/
def selectedRatio : Except FormulaError FormulaEvaluationResult := do
  let eligible := observations.filter (·.rankingMembership ≠ .none)
  if eligible = [] then return notEstimable "NO_ELIGIBLE_MEMBERS" 0
  else
    let count := (eligible.filter isSelected).length
    let rate ← signalled (A.quotient (count : ℚ) (eligible.length : ℚ))
    return estimated rate count

def available : List FormulaObservation :=
  observations.filter fun item => item.sourceState = .available && item.value.isSome

def evaluateAvailable : Except FormulaError FormulaEvaluationResult := do
  let available := available observations
  let minimum ← optionalIntegerParameter formula "minimum_observations" 1
  if (available.length : Int) < minimum then
    return notEstimable "INSUFFICIENT_OBSERVATIONS" available.length
  else
    match formula.formulaCode with
    | .mean | .mfeMean | .maxAdverseExcursionMean => meanFormula A available
    | .sampleStddev => deviationFormula A available
    | .icir => icirFormula A available
    | .rankIc => rankIc A formula available
    | .topKReturn | .topBottomSpread => rankedReturn A formula available
    | .hitRate => hitRate A available
    | .selectedRatio => selectedRatio A observations
    | .predictiveBias | .predictiveMae | .predictiveRmse => predictive A formula available
    | .grossExposure | .netExposure | .turnover => portfolioFormula A formula available
    | .netReturnAssumedCost => netAssumedCost A formula available
    | _ => economics A formula available

def evaluateV1 : Except FormulaError FormulaEvaluationResult :=
  match formula.parameters.find? (·.parameterCode = "input_series") with
  | some inputSeries => do
      require (inputSeries.value = .text "group_rank_ic"
          ∧ formula.formulaCode ∈ [.mean, .sampleStddev, .icir])
        (.valueError "formula input_series is unsupported")
      icSummary A formula observations
  | none =>
    match formula.formulaCode with
    | .coverageRate | .missingnessRate | .sourceGapRate | .unavailableRate =>
      rosterRate A formula observations
    | _ => evaluateAvailable A formula observations

end Formulas

def requireUniqueObservations (observations : List FormulaObservation) :
    Except FormulaError Unit := do
  require ((observations.map (·.observationId)).Nodup)
    (.valueError "formula observation identities must be unique")
  require ((observations.map (·.ordinal)).Pairwise (· < ·))
    (.valueError "formula observation ordinals must be ordered and unique")

def EvaluationFormulaDefinition.context (formula : EvaluationFormulaDefinition) :
    DecimalContext where
  prec := formula.decimalPrecision
  rounding := formula.roundingMode

def evaluateBacktestFormula (power : ℚ → ℚ → ℚ)
    (episode : EvaluationFormulaDefinition → List FormulaObservation →
      Except FormulaError FormulaEvaluationResult)
    (formula : EvaluationFormulaDefinition)
    (observations : List FormulaObservation) :
    Except FormulaError FormulaEvaluationResult := do
  require (formula.formulaVersion ∈ [1, 2])
    (.valueError "formula implementation version is unsupported")
  requireUniqueObservations observations
  if formula.formulaVersion = 2 then episode formula observations
  else evaluateV1 (formula.context.arithmetic power) formula observations

end MarketRegimeAlpha.ResearchQualification.EvaluationFormula
