/-
The performance report on the states of the Shadow Portfolio.

A state is read here with its own identity and that of the state before
(`IdentifiedState`), which a day computes from its values. Year and month of a day are
those of a calendar. Of the metrics there are the ones that no float enters
(`estimated`), and the status of an attribution is whether it has a contribution.
-/
import MarketRegimeAlpha.Lib.Text
import MarketRegimeAlpha.Shadow.Day
import MarketRegimeAlpha.Shared.Hashing

namespace MarketRegimeAlpha.Shadow

open Lib

/-- What the report reads of `PerformancePolicy`. -/
structure PerformancePolicy where
  (policyId policyHash : String)
  reconciliationTolerance : ℚ
  tolerance_nonneg : 0 ≤ reconciliationTolerance

structure IdentifiedState extends ShadowPortfolioDayState where
  (stateId stateHash : String)
  previousStateReference : Option ValidationArtifactReference

variable (item : IdentifiedState)

def IdentifiedState.reference : ValidationArtifactReference :=
  ⟨"SHADOW_PORTFOLIO_DAY_STATE", item.stateId, item.stateHash⟩

/-- States that follow one another, each with the reference to the one before;
`identify` is the identity that the values of a state and that reference hash to. -/
def identified (identify : StateValues → Option ValidationArtifactReference → String × String) :
    Option ValidationArtifactReference → List ShadowPortfolioDayState → List IdentifiedState
  | _, [] => []
  | previous, state :: states =>
    let identity := identify state.toStateValues previous
    let item : IdentifiedState := ⟨state, identity.1, identity.2, previous⟩
    item :: identified identify item.reference states

-- ==== the returns

def returns : ℚ → List IdentifiedState → Except Raised (List ℚ)
  | _, [] => .ok []
  | previous, state :: states => do
    require (0 < previous) (.valueError "performance return denominator must be positive")
    let rest ← returns state.nav states
    return (state.nav / previous - 1) :: rest

def compound (values : List ℚ) : ℚ := values.foldl (fun result value => result * (1 + value)) 1 - 1

structure PeriodReturn where
  period : String
  value : ℚ
  sessionCount : Nat

variable (calendar : Day → Shared.Date)

/-- The key of a period: the year, and the month unless `yearly`. -/
def periodKey (yearly : Bool) (day : Day) : String :=
  let year := pad 4 (calendar day).year
  String.ofList (if yearly then year else year ++ '-' :: pad 2 (calendar day).month)

def periodReturns (yearly : Bool)
    (states : List IdentifiedState) (returns : List ℚ) : List PeriodReturn :=
  let grouped := groupBy (fun pair : IdentifiedState × ℚ =>
    periodKey calendar yearly pair.1.tradingDate) (states.zip returns)
  (sortBy (·.1) grouped).map fun (key, pairs) => ⟨key, compound (pairs.map (·.2)), pairs.length⟩

/-- One state of `_maximum_drawdown`: the peak and the maximum. -/
def drawdownStep (sofar : ℚ × ℚ) (nav : ℚ) : ℚ × ℚ :=
  let peak := max sofar.1 nav
  (peak, max sofar.2 (if peak = 0 then 0 else (peak - nav) / peak))

def maximumDrawdown (initialCash : ℚ) (navs : List ℚ) : ℚ :=
  (navs.foldl drawdownStep (initialCash, 0)).2

variable (portfolio : ShadowPortfolio)

/-- The entries of `estimated` that every report has. -/
def estimated (states : List IdentifiedState)
    (last : IdentifiedState) (returns : List ℚ) : List (String × ℚ) :=
  [("cumulative_return", last.nav / portfolio.initialCash - 1),
    ("maximum_drawdown", maximumDrawdown portfolio.initialCash (states.map (·.nav))),
    ("hit_rate", (returns.countP (0 < ·) : ℚ) / returns.length),
    ("turnover", (states.map (·.turnover)).sum),
    ("cost_drag", (states.map (·.totalCost)).sum / portfolio.initialCash),
    ("average_exposure", (states.map (·.grossExposure)).sum / states.length),
    ("maximum_exposure", (states.map (·.grossExposure)).foldl max last.grossExposure)]

-- ==== the attribution

structure PerformanceAttribution where
  (dimension key : String)
  contribution : Option ℚ
  sourceReferences : List ValidationArtifactReference
  reasonCodes : List String

/-- The sums of the attributions of the states under their symbols. -/
def totals (value : ShadowPortfolioAttribution → ℚ) (states : List IdentifiedState) :
    List (String × ℚ) :=
  groupSums (·.symbol) value (states.flatMap (·.attribution))

variable (states : List IdentifiedState)

def symbolRows (last : IdentifiedState) : List PerformanceAttribution :=
  let realized := totals (·.realizedPnl) states
  let unrealized := dictOf (last.attribution.map fun item => (item.symbol, item.unrealizedPnl))
  (sortedDistinct (keys realized ++ keys unrealized)).map fun symbol =>
    ⟨"SYMBOL", symbol, some ((realized.lookup symbol).getD 0 + (unrealized.lookup symbol).getD 0),
      states.map (·.reference), []⟩

def costRows : List PerformanceAttribution :=
  let side (side : ShadowTradeSide) : ℚ :=
    (((states.flatMap (·.fills)).filter (·.side = side)).map (·.totalCost)).sum
  let references := states.map (·.reference)
  [⟨"COST", "TOTAL_COST_DRAG", some (-((totals (·.cost) states).map (·.2)).sum),
      references, ["INFORMATIONAL_NON_ADDITIVE_DIMENSION"]⟩,
    ⟨"ENTRY_EXIT", "BUY", some (-side .buy), references, ["COST_ONLY_NON_ADDITIVE_DIMENSION"]⟩,
    ⟨"ENTRY_EXIT", "SELL", some (-side .sell), references, ["COST_ONLY_NON_ADDITIVE_DIMENSION"]⟩]

def missingRows : List PerformanceAttribution :=
  ["REGIME", "THEME", "FACTOR", "SIGNAL", "CANDIDATE_RANK"].map fun dimension =>
    ⟨dimension, "NOT_AVAILABLE", none, [], [dimension ++ "_EFFECTIVE_TIME_FACT_MISSING"]⟩

def performanceAttribution (last : IdentifiedState) : List PerformanceAttribution :=
  sortBy (fun row => toLex (row.dimension, row.key))
    (symbolRows states last ++ costRows states ++ missingRows)

def symbolPnl (attribution : List PerformanceAttribution) : ℚ :=
  ((attribution.filter (·.dimension = "SYMBOL")).filterMap (·.contribution)).sum

-- ==== the report

structure PortfolioPerformanceReport where
  (startDate endDate : Day)
  generatedAt : Instant
  equityCurve : List (Day × ℚ)
  metrics : List (String × ℚ)
  (monthlyReturns yearlyReturns : List PeriodReturn)
  attribution : List PerformanceAttribution
  inputStateReferences : List ValidationArtifactReference
  reconciliationDifference : ℚ

def reportOf (calendar : Day → Shared.Date)
    (states : List IdentifiedState) (first last : IdentifiedState) (returns : List ℚ)
    (generatedAt : Instant) : PortfolioPerformanceReport :=
  let attribution := performanceAttribution states last
  { startDate := first.tradingDate
    endDate := last.tradingDate
    generatedAt := generatedAt
    equityCurve := states.map fun item => (item.tradingDate, item.nav)
    metrics := estimated portfolio states last returns
    monthlyReturns := periodReturns calendar false states returns
    yearlyReturns := periodReturns calendar true states returns
    attribution := attribution
    inputStateReferences := states.map (·.reference)
    reconciliationDifference := last.nav - portfolio.initialCash - symbolPnl attribution }

def checkFollows : Option IdentifiedState → List IdentifiedState → Except Raised Unit
  | _, [] => .ok ()
  | previous, state :: states => do
    require (state.previousStateReference = previous.map (·.reference))
      (.valueError "Portfolio Shadow state predecessor identity diverged")
    require (∀ item ∈ previous, item.recordedAt ≤ state.recordedAt)
      (.valueError "Portfolio Shadow state recorded time is not monotonic")
    checkFollows (some state) states

def stateKey : Day ×ₗ Nat ×ₗ String :=
  toLex (item.tradingDate, toLex (item.sequence, item.stateId))

def buildPortfolioPerformanceReport (createdAt : Instant)
    (calendar : Day → Shared.Date) (inputs : List IdentifiedState)
    (policy : PerformancePolicy) (generatedAt : Instant) :
    Except Raised PortfolioPerformanceReport := do
  let states := sortBy stateKey inputs
  let first ← states.head?.elim
    (.error (.valueError "performance report requires Portfolio Shadow states")) .ok
  let last := states.getLast?.getD first
  require (states.map (·.tradingDate)).Nodup
    (.valueError "Portfolio Shadow state dates must be unique")
  require (states.map (·.sequence) = List.range' 1 states.length)
    (.valueError "Portfolio Shadow state sequence is not contiguous")
  require (∀ item ∈ states, item.portfolioReference.artifactId = portfolio.portfolioId
      ∧ item.portfolioReference.contentHash = portfolio.portfolioHash)
    (.valueError "performance input belongs to another Portfolio")
  checkFollows none states
  require (createdAt ≤ generatedAt ∧ ∀ item ∈ states, item.recordedAt ≤ generatedAt)
    (.valueError "Performance generated_at predates required input availability")
  let returns ← returns portfolio.initialCash states
  let report := reportOf portfolio calendar states first last returns generatedAt
  require (|report.reconciliationDifference| ≤ policy.reconciliationTolerance)
    (.valueError "Portfolio performance attribution does not reconcile")
  return report

end MarketRegimeAlpha.Shadow
