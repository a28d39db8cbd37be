/-
Read-only statistics of model and baseline forecasts over common pairs.

# The reports

A dictionary of fixed keys is a structure, with its keys as field names; the
metrics of a session have in addition its rank IC. A UUID is its number,
whose order is that of its text, and a session is the number of its day. The
members of `_comparison` are compared one by one under their names.

The texts that do not depend on the arguments (`population_basis`,
`uncertainty_policy`, `evidence_class` and the like) are left out.
-/
import MarketRegimeAlpha.Lib.Dict
import MarketRegimeAlpha.ResearchQualification.Formula

namespace MarketRegimeAlpha.ResearchQualification

open Lib

abbrev Session := Int

structure ValidityPair where
  commitmentId : Nat
  session : Session
  (model baseline label : ℚ)
  instrumentId : Option Nat
  deriving DecidableEq

-- ==== the metrics

/-- What `_metric` returns. -/
structure ValidityMetric where
  state : String
  value : Option ℚ
  (observationCount denominator : Nat)
  denominatorKind : String
  numerator : Option Nat
  (reasonCode formulaCode : String)
  formulaVersion : Nat
  deriving DecidableEq

def estimatedReason : String := "ESTIMATED_BY_FROZEN_FORMULA"

def commonObservations : String := "COMMON_OBSERVATIONS"

def estimableCommonSessions : String := "ESTIMABLE_COMMON_SESSIONS"

def metric (value : Option ℚ) (count : Nat) (code reason denominatorKind : String)
    (numerator : Option Nat) : ValidityMetric where
  state := if value.isSome then "ESTIMABLE" else "NOT_ESTIMABLE"
  value
  observationCount := count
  denominator := count
  denominatorKind
  numerator
  reasonCode := reason
  formulaCode := code
  formulaVersion := 1

def formulaMinimum : BacktestFormulaCode → Nat
  | .rankIc => 3
  | _ => 1

def formula (code : BacktestFormulaCode) (values secondary : List ℚ)
    (denominatorKind : String) : ValidityMetric :=
  let result := evaluateFormula code (formulaMinimum code) values secondary
  metric result.decimalValue values.length code.text result.reasonCode denominatorKind none

def ratio (numerator denominator : Nat) (code kind : String) :
    ValidityMetric :=
  metric (if denominator = 0 then none
      else some (decimal ((numerator : ℚ) / denominator)))
    denominator code
    (if denominator = 0 then "EMPTY_DENOMINATOR" else estimatedReason)
    kind (some numerator)

def sign (value : ℚ) : Int := if 0 < value then 1 else if value < 0 then -1 else 0

variable (values : List ℚ)

/-- `min(values) if values else None`. -/
def minimum? : Option ℚ := (sortBy id values).head?

/-- `max(values) if values else None`. -/
def maximum? : Option ℚ := (sortBy id values).getLast?

structure Distribution where
  (observationCount positiveCount negativeCount flatCount : Nat)
  (positiveProportion mean sampleStd minimum maximum : ValidityMetric)

def distribution (code : String) : Distribution :=
  let reason := if values = [] then "INSUFFICIENT_OBSERVATIONS" else estimatedReason
  { observationCount := values.length
    positiveCount := values.countP (0 < ·)
    negativeCount := values.countP (· < 0)
    flatCount := values.countP (· = 0)
    positiveProportion := ratio (values.countP (0 < ·)) values.length
      (code ++ "_positive_proportion") commonObservations
    mean := formula .mean values [] commonObservations
    sampleStd := formula .sampleStddev values [] commonObservations
    minimum := metric (minimum? values) values.length (code ++ "_minimum")
      reason commonObservations none
    maximum := metric (maximum? values) values.length (code ++ "_maximum")
      reason commonObservations none }

/-- What `_pair_metrics` returns without `rank_ic`. -/
structure PairMetrics where
  (bias mae rmse directionalHitRate predictedPositiveProportion actualPositiveProportion
    forecastDispersion actualDispersion calibrationSlope calibrationIntercept : ValidityMetric)

/-- What `_pair_metrics` returns with `rank_ic`. -/
structure SessionMetrics extends PairMetrics where
  rankIc : ValidityMetric

variable (forecasts labels : List ℚ)

/-- `_calibration`: the slope, the intercept and the reason. -/
def calibration : Option ℚ × Option ℚ × String :=
  if forecasts.length < 3 then (none, none, "INSUFFICIENT_OBSERVATIONS")
  else
    let xmean := decimal (decimalSum forecasts / forecasts.length)
    let ymean := decimal (decimalSum labels / labels.length)
    let xx := decimalSum (forecasts.map fun value => square (decimal (value - xmean)))
    if xx = 0 then (none, none, "ZERO_FORECAST_VARIANCE")
    else
      let products := (forecasts.zip labels).map fun (x, y) =>
        decimal (decimal (x - xmean) * decimal (y - ymean))
      let slope := decimal (decimalSum products / xx)
      let intercept := decimal (ymean - decimal (slope * xmean))
      (some slope, some intercept, estimatedReason)

def pairMetrics : PairMetrics :=
  let (slope, intercept, reason) := calibration forecasts labels
  let count := forecasts.length
  { bias := formula .predictiveBias forecasts labels commonObservations
    mae := formula .predictiveMae forecasts labels commonObservations
    rmse := formula .predictiveRmse forecasts labels commonObservations
    directionalHitRate := ratio ((forecasts.zip labels).countP fun (forecast, label) =>
        sign forecast = sign label)
      count "directional_hit_rate_exact_zero_flat" commonObservations
    predictedPositiveProportion := ratio (forecasts.countP (0 < ·)) count
      "predicted_positive_proportion" commonObservations
    actualPositiveProportion := ratio (labels.countP (0 < ·)) labels.length
      "actual_positive_proportion" commonObservations
    forecastDispersion := formula .sampleStddev forecasts [] commonObservations
    actualDispersion := formula .sampleStddev labels [] commonObservations
    calibrationSlope := metric slope count "ols_actual_on_forecast_slope"
      reason commonObservations none
    calibrationIntercept := metric intercept count
      "ols_actual_on_forecast_intercept" reason commonObservations none }

/-- `_pair_metrics(..., rank_ic=True)`. -/
def sessionMetrics : SessionMetrics where
  toPairMetrics := pairMetrics forecasts labels
  rankIc := formula .rankIc forecasts labels commonObservations

/-- `x - y`, or `None` when one of them is. -/
def difference (x y : Option ℚ) : Option ℚ :=
  match x, y with
  | some x, some y => some (decimal (x - y))
  | _, _ => none

/-- A member of `_comparison`. -/
def compared (name : String) (model baseline : ValidityMetric) :
    ValidityMetric :=
  let value := difference model.value baseline.value
  metric value model.denominator ("model_minus_baseline_" ++ name)
    (if value.isSome then estimatedReason else "COMPARISON_MEMBER_NOT_ESTIMABLE")
    model.denominatorKind none

def comparePairs (model baseline : PairMetrics) : PairMetrics where
  bias := compared "bias" model.bias baseline.bias
  mae := compared "mae" model.mae baseline.mae
  rmse := compared "rmse" model.rmse baseline.rmse
  directionalHitRate := compared "directional_hit_rate"
    model.directionalHitRate baseline.directionalHitRate
  predictedPositiveProportion := compared "predicted_positive_proportion"
    model.predictedPositiveProportion baseline.predictedPositiveProportion
  actualPositiveProportion := compared "actual_positive_proportion"
    model.actualPositiveProportion baseline.actualPositiveProportion
  forecastDispersion := compared "forecast_dispersion"
    model.forecastDispersion baseline.forecastDispersion
  actualDispersion := compared "actual_dispersion" model.actualDispersion baseline.actualDispersion
  calibrationSlope := compared "calibration_slope" model.calibrationSlope baseline.calibrationSlope
  calibrationIntercept := compared "calibration_intercept"
    model.calibrationIntercept baseline.calibrationIntercept

def compareSessions (model baseline : SessionMetrics) : SessionMetrics where
  toPairMetrics := comparePairs model.toPairMetrics baseline.toPairMetrics
  rankIc := compared "rank_ic" model.rankIc baseline.rankIc

-- ==== the ranking

structure RankingMetrics where
  (topKRealizedReturn bottomKRealizedReturn topBottomSpread quantileSpread : ValidityMetric)

structure QuantileTail where
  bucket : Nat
  tail : String
  commitments : List Nat
  metric : ValidityMetric

structure Ranking where
  metrics : RankingMetrics
  (topCommitments bottomCommitments : List Nat)
  quantileTailSize : Nat
  unselectedQuantileMiddleCount : Int
  quantiles : List QuantileTail

/-- `values[-n:]`, of a positive `n`. -/
def lastOf {α : Type} (n : Nat) (values : List α) : List α := values.drop (values.length - n)

def basket (members : List ValidityPair) (code : String) : ValidityMetric :=
  metric (if members = [] then none
      else some (decimal (decimalSum (members.map (·.label)) / members.length)))
    members.length code
    (if members = [] then "INSUFFICIENT_OBSERVATIONS" else estimatedReason)
    commonObservations none

variable (pairs : List ValidityPair)

def ranking (role : ValidityPair → ℚ) (k quantiles : Nat) : Ranking :=
  let ordered := sortBy (fun pair => toLex (-role pair, pair.commitmentId)) pairs
  let top := if 2 * k ≤ ordered.length then ordered.take k else []
  let bottom := if 2 * k ≤ ordered.length then lastOf k ordered else []
  let topMetric := basket top "forecast_top_k_equal_weight_label_mean"
  let bottomMetric := basket bottom "forecast_bottom_k_equal_weight_label_mean"
  let tailSize := ordered.length / quantiles
  let rosters :=
    if tailSize = 0 then []
    else [(1, "TOP", ordered.take tailSize), (quantiles, "BOTTOM", lastOf tailSize ordered)]
  let tails := rosters.map fun (bucket, tail, members) =>
    { bucket, tail
      commitments := members.map (·.commitmentId)
      metric := basket members "forecast_quantile_equal_weight_label_mean"
      : QuantileTail }
  let spread := difference topMetric.value bottomMetric.value
  let quantileSpread := difference (tails.head?.bind (·.metric.value))
    (tails.getLast?.bind (·.metric.value))
  { metrics :=
      { topKRealizedReturn := topMetric
        bottomKRealizedReturn := bottomMetric
        topBottomSpread := metric spread (if spread.isSome then 2 * k else ordered.length)
          "forecast_disjoint_top_minus_bottom_k"
          (if spread.isSome then estimatedReason
            else "INSUFFICIENT_DISJOINT_RANKING_MEMBERS")
          commonObservations none
        quantileSpread := metric quantileSpread (2 * tailSize) "forecast_top_minus_bottom_quantile"
          (if quantileSpread.isSome then estimatedReason
            else "INSUFFICIENT_QUANTILE_MEMBERS")
          commonObservations none }
    topCommitments := top.map (·.commitmentId)
    bottomCommitments := bottom.map (·.commitmentId)
    quantileTailSize := tailSize
    unselectedQuantileMiddleCount := (ordered.length : Int) - 2 * tailSize
    quantiles := tails }

def compareRankings (model baseline : RankingMetrics) : RankingMetrics where
  topKRealizedReturn := compared "top_k_realized_return"
    model.topKRealizedReturn baseline.topKRealizedReturn
  bottomKRealizedReturn := compared "bottom_k_realized_return"
    model.bottomKRealizedReturn baseline.bottomKRealizedReturn
  topBottomSpread := compared "top_bottom_spread" model.topBottomSpread baseline.topBottomSpread
  quantileSpread := compared "quantile_spread" model.quantileSpread baseline.quantileSpread

-- ==== the sessions

structure RankingReport where
  (model baseline : Ranking)
  delta : RankingMetrics

structure SessionReport where
  session : Session
  (state reasonCode : String)
  commonObservationCount : Nat
  commitmentRoster : List Nat
  (model baseline delta : SessionMetrics)
  (modelForecastDistribution baselineForecastDistribution actualDistribution : Distribution)
  ranking : RankingReport

/-- An entry of `per_session`. -/
structure SessionRow extends SessionReport where
  cumulativeCommonObservationCount : Nat

def sessionReport (session : Session) (rankingK quantiles : Nat) : SessionReport :=
  let labels := pairs.map (·.label)
  let model := sessionMetrics (pairs.map (·.model)) labels
  let baseline := sessionMetrics (pairs.map (·.baseline)) labels
  let modelRanking := ResearchQualification.ranking pairs (·.model) rankingK quantiles
  let baselineRanking := ResearchQualification.ranking pairs (·.baseline) rankingK quantiles
  { session
    state := if pairs = [] then "NOT_ESTIMABLE"
      else "DESCRIPTIVE_STATISTICS_AVAILABLE"
    reasonCode := if pairs = [] then "SESSION_COMMON_POPULATION_UNAVAILABLE"
      else "EXACT_COMMON_PAIRS"
    commonObservationCount := pairs.length
    commitmentRoster := pairs.map (·.commitmentId)
    model, baseline
    delta := compareSessions model baseline
    modelForecastDistribution := distribution (pairs.map (·.model)) "model_forecast"
    baselineForecastDistribution := distribution (pairs.map (·.baseline)) "baseline_forecast"
    actualDistribution := distribution labels "actual"
    ranking :=
      { model := modelRanking
        baseline := baselineRanking
        delta := compareRankings modelRanking.metrics baselineRanking.metrics } }

-- ==== the aggregates

structure Summary where
  state : String
  sessionCount : Nat
  (mean median sampleStd : ValidityMetric)
  (positiveCount negativeCount zeroCount : Nat)
  (positiveSessionRatio minimum maximum descriptiveStandardError : ValidityMetric)
  icir : Option ValidityMetric

/-- The median of `_summary`. -/
def median : Option ℚ :=
  let ordered := sortBy id values
  let midpoint := ordered.length / 2
  if values.length % 2 = 1 then ordered[midpoint]?
  else
    match ordered[midpoint - 1]?, ordered[midpoint]? with
    | some low, some high => some (decimal (decimal (low + high) / 2))
    | _, _ => none

def sessionMetric (value : Option ℚ) (count : Nat) (code : String) :
    ValidityMetric :=
  metric value count code (if value.isSome then estimatedReason else "INSUFFICIENT_SESSIONS")
    estimableCommonSessions none

def summary (minimumSessions : Nat) (includeIcir : Bool) : Summary :=
  let count := values.length
  let std := formula .sampleStddev values [] estimableCommonSessions
  { state := if count < minimumSessions then "INSUFFICIENT_SESSIONS"
      else "DESCRIPTIVE_STATISTICS_AVAILABLE"
    sessionCount := count
    mean := formula .mean values [] estimableCommonSessions
    median := sessionMetric (median values) count "session_median"
    sampleStd := std
    positiveCount := values.countP (0 < ·)
    negativeCount := values.countP (· < 0)
    zeroCount := values.countP (· = 0)
    positiveSessionRatio := ratio (values.countP (0 < ·)) count
      "positive_session_ratio" estimableCommonSessions
    minimum := sessionMetric (minimum? values) count "session_minimum"
    maximum := sessionMetric (maximum? values) count "session_maximum"
    descriptiveStandardError := sessionMetric
      (std.value.map fun value => decimal (value / squareRoot count))
      count "session_sample_std_div_sqrt_n"
    icir :=
      if includeIcir then
        some (formula .icir values [] estimableCommonSessions)
      else none }

structure PairedRow where
  session : Session
  commonObservationCount : Nat
  (model baseline : ValidityMetric)
  deriving DecidableEq

structure ExcludedSession where
  session : Session
  (modelReason baselineReason : String)

structure PairedSummary where
  (modelEstimableSessionCount baselineEstimableSessionCount commonEstimableSessionCount : Nat)
  commonSessionRoster : List Session
  commonObservationCount : Nat
  excludedSessions : List ExcludedSession
  (model baseline pairedDelta : Summary)

def pairedSessionSummary (rows : List PairedRow) (minimumSessions : Nat)
    (includeIcir : Bool) : PairedSummary :=
  let common := rows.filter fun row => row.model.value.isSome && row.baseline.value.isSome
  let modelValues := common.filterMap (·.model.value)
  let baselineValues := common.filterMap (·.baseline.value)
  { modelEstimableSessionCount := rows.countP (·.model.value.isSome)
    baselineEstimableSessionCount := rows.countP (·.baseline.value.isSome)
    commonEstimableSessionCount := common.length
    commonSessionRoster := common.map (·.session)
    commonObservationCount := (common.map (·.commonObservationCount)).sum
    excludedSessions := (rows.filter (· ∉ common)).map fun row =>
      { session := row.session
        modelReason := row.model.reasonCode
        baselineReason := row.baseline.reasonCode }
    model := summary modelValues minimumSessions includeIcir
    baseline := summary baselineValues minimumSessions includeIcir
    pairedDelta := summary ((modelValues.zip baselineValues).map fun (model, baseline) =>
        decimal (model - baseline)) minimumSessions false }

def SessionRow.paired (choose : SessionMetrics → ValidityMetric)
    (row : SessionRow) : PairedRow where
  session := row.session
  commonObservationCount := row.commonObservationCount
  model := choose row.model
  baseline := choose row.baseline

def SessionRow.pairedRanking (choose : RankingMetrics → ValidityMetric)
    (row : SessionRow) : PairedRow where
  session := row.session
  commonObservationCount := row.commonObservationCount
  model := choose row.ranking.model.metrics
  baseline := choose row.ranking.baseline.metrics

def sampleReasons (sessions observations minimumSessions minimumObservations : Nat) : List String :=
  (if sessions < minimumSessions then ["INSUFFICIENT_SESSIONS"] else [])
    ++ (if observations < minimumObservations then ["INSUFFICIENT_OBSERVATIONS"]
      else [])

def sampleState (reasons : List String) : String :=
  reasons.head?.getD "DESCRIPTIVE_STATISTICS_AVAILABLE"

structure Pooled where
  (model baseline delta : PairMetrics)

structure DailyErrorMetrics where
  (bias mae rmse : PairedSummary)

structure DailyRankingDiagnostics where
  (topKRealizedReturn bottomKRealizedReturn topBottomSpread quantileSpread : PairedSummary)

structure Aggregate where
  state : String
  reasonCodes : List String
  (sessionCount estimableSessionCount expectedSessionCount commonObservationCount : Nat)
  pooled : Pooled
  dailyRankIc : PairedSummary
  dailyErrorMetrics : DailyErrorMetrics
  dailyRankingDiagnostics : DailyRankingDiagnostics
  (actualDistribution modelForecastDistribution baselineForecastDistribution : Distribution)

def aggregate (rows : List SessionRow) (minimumSessions minimumObservations : Nat) : Aggregate :=
  let labels := pairs.map (·.label)
  let model := pairMetrics (pairs.map (·.model)) labels
  let baseline := pairMetrics (pairs.map (·.baseline)) labels
  let estimable := rows.countP (0 < ·.commonObservationCount)
  let reasons := sampleReasons estimable pairs.length minimumSessions minimumObservations
  let daily (choose : SessionMetrics → ValidityMetric) (includeIcir : Bool) :=
    pairedSessionSummary (rows.map (·.paired choose)) minimumSessions includeIcir
  let diagnostic (choose : RankingMetrics → ValidityMetric) :=
    pairedSessionSummary (rows.map (·.pairedRanking choose)) minimumSessions false
  { state := sampleState reasons
    reasonCodes := reasons
    sessionCount := estimable
    estimableSessionCount := estimable
    expectedSessionCount := rows.length
    commonObservationCount := pairs.length
    pooled :=
      { model, baseline
        delta := comparePairs model baseline }
    dailyRankIc := daily (·.rankIc) true
    dailyErrorMetrics :=
      { bias := daily (·.bias) false
        mae := daily (·.mae) false
        rmse := daily (·.rmse) false }
    dailyRankingDiagnostics :=
      { topKRealizedReturn := diagnostic (·.topKRealizedReturn)
        bottomKRealizedReturn := diagnostic (·.bottomKRealizedReturn)
        topBottomSpread := diagnostic (·.topBottomSpread)
        quantileSpread := diagnostic (·.quantileSpread) }
    actualDistribution := distribution labels "actual"
    modelForecastDistribution := distribution (pairs.map (·.model)) "model_forecast"
    baselineForecastDistribution := distribution (pairs.map (·.baseline)) "baseline_forecast" }

-- ==== the stability

structure Stability where
  (previousSession session : Session)
  commonInstrumentCount : Nat
  commonInstrumentRoster : List Nat
  (previousCommonPopulationCount currentCommonPopulationCount instrumentUnionCount : Nat)
  populationIdentityComplete : Bool
  (model baseline delta commonPopulationJaccard : ValidityMetric)

/-- `previous_by_id` and `current_by_id`. -/
def byInstrument : List (Option Nat × ValidityPair) :=
  dictOf (pairs.map fun pair => (pair.instrumentId, pair))

variable (previous current : List ValidityPair)

def unavailableReason : Option String :=
  if previous = [] ∨ current = [] then
    some "SESSION_COMMON_POPULATION_UNAVAILABLE"
  else if (previous ++ current).any (·.instrumentId.isNone) then
    some "INSTRUMENT_IDENTITY_UNAVAILABLE"
  else none

def stability (left right : Session) : Stability :=
  let previousById := byInstrument previous
  let currentById := byInstrument current
  let union := firsts (keys previousById ++ keys currentById)
  let overlap := sortBy id (((keys previousById).filter
    (· ∈ keys currentById)).filterMap id)
  let unavailable := unavailableReason previous current
  let code := "adjacent_observed_session_forecast_rank_ic"
  let roleMetric (role : ValidityPair → ℚ) :=
    match unavailable with
    | some reason => metric none overlap.length code reason commonObservations none
    | none =>
      formula .rankIc (overlap.filterMap fun identifier =>
          (previousById.lookup (some identifier)).map role)
        (overlap.filterMap fun identifier => (currentById.lookup (some identifier)).map role)
        commonObservations
  let jaccard := "adjacent_common_population_jaccard"
  let kind := "COMMON_POPULATION_INSTRUMENT_UNION"
  { previousSession := left
    session := right
    commonInstrumentCount := overlap.length
    commonInstrumentRoster := overlap
    previousCommonPopulationCount := previous.length
    currentCommonPopulationCount := current.length
    instrumentUnionCount := (union.filterMap id).length
    populationIdentityComplete := (previous ++ current).all (·.instrumentId.isSome)
    model := roleMetric (·.model)
    baseline := roleMetric (·.baseline)
    delta := compared "rank_ic" (roleMetric (·.model)) (roleMetric (·.baseline))
    commonPopulationJaccard :=
      match unavailable with
      | some reason => metric none 0 jaccard reason kind none
      | none => ratio overlap.length union.length jaccard kind }

-- ==== the report

structure RollingEntry where
  throughSession : Session
  requestedSessions : Nat
  sessionRoster : List Session
  windowState : String
  aggregate : Aggregate

structure ValidityReport where
  state : String
  reasonCodes : List String
  (sessionCount estimableSessionCount expectedSessionCount commonObservationCount : Nat)
  sessionRoster : List Session
  (minimumSessions minimumObservations : Nat)
  perSession : List SessionRow
  aggregate : Aggregate
  rolling : List RollingEntry
  rankStability : List Stability

structure ValidityParameters where
  (minimumSessions minimumObservations rollingSessions rankingK quantiles : Int)

/-- `grouped[session]`. -/
def grouped (session : Session) : List ValidityPair :=
  sortBy (·.commitmentId) (pairs.filter (·.session = session))

/-- The sessions: the declared ones, or the observed. -/
def rosterOf (sessionRoster : Option (List Session)) : List Session :=
  sessionRoster.getD (sortedDistinct (pairs.map (·.session)))

/-- The rows of `per_session`, counted on from an earlier count. -/
def accumulate (count : Nat) : List SessionReport → List SessionRow
  | [] => []
  | report :: reports =>
    let count := count + report.commonObservationCount
    ⟨report, count⟩ :: accumulate count reports

/-- `values[max(0, index + 1 - width):index + 1]`. -/
def window {α : Type} (width index : Nat) (values : List α) : List α :=
  (values.take (index + 1)).drop (index + 1 - width)

variable (group : Session → List ValidityPair)

def perSession (rankingK quantiles : Nat) (sessions : List Session) : List SessionRow :=
  accumulate 0 (sessions.map fun session =>
    sessionReport (group session) session rankingK quantiles)

def rollingEntry (rows : List SessionRow) (minimumSessions minimumObservations width : Nat)
    (sessions : List Session) (session : Session) (index : Nat) :
    RollingEntry where
  throughSession := session
  requestedSessions := width
  sessionRoster := window width index sessions
  windowState := if width ≤ index + 1 then "COMPLETE_WINDOW" else "PARTIAL_WINDOW"
  aggregate := aggregate ((window width index sessions).flatMap group)
    (window width index rows) minimumSessions minimumObservations

def rolling (rows : List SessionRow) (minimumSessions minimumObservations width : Nat)
    (sessions : List Session) : List RollingEntry :=
  sessions.zipIdx.map fun (session, index) =>
    rollingEntry group rows minimumSessions minimumObservations width sessions session index

def rankStability (sessions : List Session) : List Stability :=
  (sessions.zip sessions.tail).map fun (left, right) =>
    stability (group left) (group right) left right

def validityChecks (parameters : ValidityParameters)
    (sessionRoster : Option (List Session)) : Except Raised Unit := do
  Lib.require (1 ≤ parameters.minimumSessions
      ∧ 1 ≤ parameters.minimumObservations ∧ 1 ≤ parameters.rollingSessions
      ∧ 1 ≤ parameters.rankingK ∧ 2 ≤ parameters.quantiles)
    (.valueError ("validity sample/window/K parameters must be positive "
      ++ "integers; quantiles >= 2"))
  Lib.require (pairs.map fun pair => (pair.session, pair.commitmentId)).Nodup
    (.valueError "duplicate session/commitment in common population")
  Lib.require (∀ roster ∈ sessionRoster, roster = sortedDistinct roster)
    (.valueError "session roster must be ordered and unique")
  Lib.require (∀ roster ∈ sessionRoster, ∀ pair ∈ pairs, pair.session ∈ roster)
    (.valueError "pairs contain a session outside the declared session roster")
  Lib.require (∀ session ∈ rosterOf pairs sessionRoster,
      ((grouped pairs session).filterMap (·.instrumentId)).Nodup)
    (.valueError "duplicate session/instrument in common population")

def validityReport (parameters : ValidityParameters)
    (sessionRoster : Option (List Session)) : ValidityReport :=
  let minimumSessions := parameters.minimumSessions.toNat
  let minimumObservations := parameters.minimumObservations.toNat
  let sessions := rosterOf pairs sessionRoster
  let group := grouped pairs
  let rows := perSession group parameters.rankingK.toNat parameters.quantiles.toNat sessions
  let observed := (sortedDistinct (pairs.map (·.session))).length
  let reasons := sampleReasons observed pairs.length minimumSessions minimumObservations
  { state := sampleState reasons
    reasonCodes := reasons
    sessionCount := observed
    estimableSessionCount := observed
    expectedSessionCount := sessions.length
    commonObservationCount := pairs.length
    sessionRoster := sessions
    minimumSessions
    minimumObservations
    perSession := rows
    aggregate := aggregate (sessions.flatMap group) rows minimumSessions minimumObservations
    rolling := rolling group rows minimumSessions minimumObservations
      parameters.rollingSessions.toNat sessions
    rankStability := rankStability group sessions }

def validityStatistics (parameters : ValidityParameters) (sessionRoster : Option (List Session)) :
    Except Raised ValidityReport := do
  validityChecks pairs parameters sessionRoster
  return validityReport pairs parameters sessionRoster

end MarketRegimeAlpha.ResearchQualification
