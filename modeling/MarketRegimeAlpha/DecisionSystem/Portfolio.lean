/-
The research proposal for a portfolio: a weight for each candidate of a summary, under
the limits of the configuration.

The candidates are taken in the order of the summary. What a candidate is given lowers
the cash and the room of its theme that the later ones find (`Running`).

A result of more than the 28 digits of the decimal context, which `quantize` refuses,
is not refused here.
-/
import MarketRegimeAlpha.Lib.HalfEven
import MarketRegimeAlpha.Lib.Dict
import MarketRegimeAlpha.DecisionSystem.Contracts

namespace MarketRegimeAlpha.DecisionSystem

open Lib
open Position (Instant)

def weightQuantum : ℚ := 1 / 10 ^ 8

def moneyQuantum : ℚ := 1 / 10 ^ 6

def weight (value : ℚ) : ℚ := quantize halfEven weightQuantum value

def money (value : ℚ) : ℚ := quantize halfEven moneyQuantum value

def SummaryCandidate.themeKey (candidate : SummaryCandidate) : String :=
  match candidate.theme with
  | none => "UNCLASSIFIED"
  | some theme => if theme = "" then "UNCLASSIFIED" else theme

structure BuildProposal where
  summary : DailyDecisionWindowSummary
  observation : ManualAccountObservation
  reconciliation : AccountReconciliationReport
  positions : List FillDerivedPositionReference
  configuration : DecisionRiskConfiguration
  idempotencyKey : String

/-- What has been given so far: the loop variables of the proposal. -/
structure Running where
  remainingCash : ℚ
  themeWeights : List (String × ℚ)
  lines : List PortfolioProposalLine

/-- What one candidate is given, and what it leaves. -/
structure Sizing where
  proposed : ℚ
  (liquidityConstraint positionConstraint : String)
  reasons : List String
  remainingCash : ℚ
  themeWeights : List (String × ℚ)

namespace BuildProposal

variable (call : BuildProposal) (symbol : String)

def fillQuantity : Nat :=
  let fillBySymbol := dictOf (call.positions.map fun item => (item.symbol, item))
  match fillBySymbol.lookup symbol with
  | none => 0
  | some item => item.totalQuantity

def validateLineage : Except Raised Unit := do
  require (call.configuration.configurationHash ≠ "") (.valueError "Risk Configuration is invalid")
  require (call.summary.accountId = call.observation.accountId
      ∧ call.summary.accountId = call.reconciliation.accountId)
    (.valueError "Portfolio Account lineage mismatch")
  require (call.summary.tradingDate = call.observation.tradingDate
      ∧ call.summary.tradingDate = call.reconciliation.tradingDate)
    (.valueError "Portfolio TradingDate lineage mismatch")
  require (call.summary.manualObservationId = call.observation.observationId)
    (.valueError "Portfolio Manual Account lineage mismatch")
  require (call.summary.reconciliationId = call.reconciliation.reconciliationId)
    (.valueError "Portfolio Reconciliation lineage mismatch")
  require (call.reconciliation.manualObservationId = call.observation.observationId)
    (.valueError "Reconciliation/Observation lineage mismatch")
  require (call.reconciliation.positionSnapshotIds = sortBy id (call.positions.map (·.snapshotId)))
    (.valueError "Portfolio Fill Position lineage mismatch")
  require (∀ item ∈ call.summary.candidates, item.currentQuantity = call.fillQuantity item.symbol)
    (.valueError "Portfolio current Position lineage mismatch")
  require (call.observation.asOfTime ≤ call.summary.asOfTime
      ∧ call.reconciliation.asOfTime ≤ call.summary.asOfTime)
    (.valueError "Portfolio input is later than Summary AsOfTime")

/-- The status and the reasons that the inputs alone decide. -/
def gate : ProposalStatus × List String :=
  if call.reconciliation.status ≠ .reconciled then
    (.reconciliationRequired, ["RECONCILIATION_NOT_RESOLVED"])
  else if ∃ item ∈ call.summary.candidates, item.modelQualification ≠ .qualified then
    (.modelNotQualified, ["MODEL_NOT_QUALIFIED"])
  else if ∃ item ∈ call.summary.candidates, item.orderability ≠ .orderable then
    (.orderabilityUnknown, ["ORDERABILITY_UNKNOWN"])
  else if call.summary.candidates = [] then
    (.noAction, ["NO_RESEARCH_CANDIDATE"])
  else (.proposed, [])

def currentMarketValue : ℚ :=
  let fillPositions := dictOf (call.positions.map fun item => (item.symbol, item))
  let observedPositions := dictOf (call.observation.positions.map fun item => (item.symbol, item))
  match fillPositions.lookup symbol, observedPositions.lookup symbol with
  | some _, some observed => observed.observedMarketValue
  | _, _ => 0

def ofEquity (amount : ℚ) : ℚ :=
  if call.observation.totalEquity = 0 then 0
  else amount / call.observation.totalEquity

def currentWeight : ℚ := weight (call.ofEquity (call.currentMarketValue symbol))

variable (running : Running)

/-- The weight that the candidate's own limits and its theme leave. -/
def targetWeight (candidate : SummaryCandidate) : ℚ :=
  let proposed := weight (min candidate.researchExposureCeiling
    call.configuration.maximumSingleSymbolWeight)
  let themeUsed := (running.themeWeights.lookup candidate.themeKey).getD 0
  weight (min proposed (max 0 (call.configuration.maximumThemeWeight - themeUsed)))

def sizeLiquid (candidate : SummaryCandidate) : Sizing :=
  let current := call.currentWeight candidate.symbol
  let themeUsed := (running.themeWeights.lookup candidate.themeKey).getD 0
  let target := call.targetWeight running candidate
  let requiredCash := max 0 ((target - current) * call.observation.totalEquity)
  if running.remainingCash < requiredCash then
    let proposed := weight (current + call.ofEquity running.remainingCash)
    { proposed
      liquidityConstraint := "SATISFIED"
      positionConstraint := "AVAILABLE_CASH_CAPPED"
      reasons := ["AVAILABLE_CASH_INSUFFICIENT_FOR_TARGET"]
      remainingCash := running.remainingCash - running.remainingCash
      themeWeights := setItem running.themeWeights candidate.themeKey (themeUsed + proposed) }
  else
    { proposed := target
      liquidityConstraint := "SATISFIED"
      positionConstraint := "SATISFIED"
      reasons := []
      remainingCash := running.remainingCash - requiredCash
      themeWeights := setItem running.themeWeights candidate.themeKey (themeUsed + target) }

def size (candidate : SummaryCandidate) : Sizing :=
  let kept : Sizing :=
    { proposed := call.currentWeight candidate.symbol
      liquidityConstraint := "SATISFIED"
      positionConstraint := "SATISFIED"
      reasons := []
      remainingCash := running.remainingCash
      themeWeights := running.themeWeights }
  if call.gate.1 = .proposed then
    if candidate.liquidity < call.configuration.minimumLiquidity then
      { kept with
        liquidityConstraint := "LIQUIDITY_INSUFFICIENT"
        reasons := ["LIQUIDITY_BELOW_MINIMUM"] }
    else call.sizeLiquid running candidate
  else
    { kept with
      positionConstraint := "FAIL_CLOSED"
      reasons := call.gate.2 }

def lineOf (candidate : SummaryCandidate) : PortfolioProposalLine :=
  let sizing := call.size running candidate
  let current := call.currentWeight candidate.symbol
  { symbol := candidate.symbol
    currentWeight := current
    proposedResearchWeight := sizing.proposed
    weightDelta := sizing.proposed - current
    researchAmount := money (sizing.proposed * call.observation.totalEquity)
    themeExposure := (sizing.themeWeights.lookup candidate.themeKey).getD sizing.proposed
    singleSymbolExposure := sizing.proposed
    liquidityConstraint := sizing.liquidityConstraint
    positionConstraint := sizing.positionConstraint
    reasonCodes := sortedDistinct sizing.reasons
    invalidationConditions := candidate.invalidationConditions
    modelQualification := candidate.modelQualification
    orderability := candidate.orderability }

variable (nfc : String → String)

/-- One pass of the loop. -/
def step (running : Running) (candidate : SummaryCandidate) : Except Raised Running := do
  let line ← (call.lineOf running candidate).make nfc
  let sizing := call.size running candidate
  pure
    { remainingCash := sizing.remainingCash
      themeWeights := sizing.themeWeights
      lines := running.lines ++ [line] }

/-- The loop. -/
def run : Except Raised Running :=
  call.summary.candidates.foldlM (call.step nfc)
    { remainingCash := call.observation.availableCash, themeWeights := [], lines := [] }

/-- The status and the reasons once the lines are made. -/
def verdict (lines : List PortfolioProposalLine) : ProposalStatus × List String :=
  if call.gate.1 = .proposed ∧ ¬ ∃ line ∈ lines, 0 < line.weightDelta then
    (.noAction, call.gate.2 ++ ["NO_OPEN_OR_ADD_RESEARCH_DELTA"])
  else call.gate

end BuildProposal

def buildResearchPortfolioProposal (nfc : String → String)
    (canonicalHash : ProposalValues → Except Raised String) (call : BuildProposal) :
    Except Raised ResearchPortfolioProposal := do
  call.validateLineage
  let running ← call.run nfc
  ResearchPortfolioProposal.create nfc canonicalHash
    { accountId := call.summary.accountId
      tradingDate := call.summary.tradingDate
      asOfTime := call.summary.asOfTime
      summaryId := call.summary.summaryId
      manualObservationId := call.observation.observationId
      reconciliationId := call.reconciliation.reconciliationId
      riskConfigurationId := call.configuration.configurationId
      riskConfigurationHash := call.configuration.configurationHash
      status := (call.verdict running.lines).1
      lines := running.lines
      reasonCodes := sortedDistinct (call.verdict running.lines).2
      idempotencyKey := call.idempotencyKey
      createdAt := call.summary.createdAt }

end MarketRegimeAlpha.DecisionSystem
