/-
The contracts of the decision system that a reconciliation and a research proposal
read and write.

# What stands for what

An amount is its value: the trailing zeros of a `Decimal` are not kept, and sums,
products and quotients are exact until the code quantizes them. A timestamp is an
instant, and a date is a day. A record has the fields that the reconciliation and the
proposal read, with what its constructor has checked of them as proofs.

`unicodedata.normalize` and `canonical_hash` are parameters; the second one on the
values that a report or a proposal is made from, whose texts it may refuse.
-/
import MarketRegimeAlpha.Lib.OrderStat
import MarketRegimeAlpha.Execution.StrategyIntent

namespace MarketRegimeAlpha.DecisionSystem

open Lib
open Position (Instant Day)
open Execution (isSpace)
open Execution.StrategyIntent (requireSha256)

-- ==== the checks

def TenPlaces (value : ℚ) : Prop := (value * 10 ^ 10).den = 1

instance (value : ℚ) : Decidable (TenPlaces value) :=
  inferInstanceAs (Decidable ((value * 10 ^ 10).den = 1))

/-- What `_decimal` accepts. -/
structure IsAmount (value : ℚ) : Prop where
  places : TenPlaces value
  nonneg : 0 ≤ value

/-- What `_decimal` accepts of a positive amount. -/
structure IsCost (value : ℚ) : Prop where
  places : TenPlaces value
  pos : 0 < value

/-- What `_decimal_ratio` accepts. -/
structure IsRatio (value : ℚ) : Prop extends IsAmount value where
  le_one : value ≤ 1

theorem isAmount_zero : IsAmount 0 := ⟨by unfold TenPlaces; norm_num, le_refl 0⟩

variable (label : String)

/-- `_decimal`, of an amount that may be negative. -/
def signedDecimal (value : ℚ) : Except Raised Unit :=
  require (TenPlaces value) (.valueError s!"{label} precision exceeds ten decimal places")

def decimal (value : ℚ) : Except Raised Unit := do
  signedDecimal label value
  require (0 ≤ value) (.valueError s!"{label} must be non-negative")

def decimalRatio (value : ℚ) : Except Raised Unit := do
  decimal label value
  require (value ≤ 1) (.valueError s!"{label} must be between zero and one")

/-- `_aware`: whole seconds. -/
def aware (value : Instant) : Except Raised Unit :=
  require (value % 1000000 = 0) (.valueError s!"{label} must use whole-second precision")

def positiveInteger (value : Int) : Except Raised Unit :=
  require (1 ≤ value) (.valueError s!"{label} must be a positive integer")

/-- `value and value == value.strip()`. -/
def isTrimmed (value : String) : Bool :=
  value ≠ "" ∧ (value.toList.head?.any isSpace) = false
    ∧ (value.toList.getLast?.any isSpace) = false

section Texts

variable (nfc : String → String)

def text (label value : String) : Except Raised Unit := do
  require (isTrimmed value = true) (.valueError s!"{label} must be non-empty trimmed text")
  require (value = nfc value) (.valueError s!"{label} must use Unicode NFC")

def sortedUniqueText (label : String) (values : List String) :
    Except Raised Unit :=
  require (values = sortedDistinct values
      ∧ ∀ item ∈ values, isTrimmed item = true ∧ item = nfc item)
    (.valueError s!"{label} must be sorted, unique and non-empty")

end Texts

def artifactId (kind digest : String) : Except Raised String := do
  require (':' ∈ digest.toList) (.lookupError "list index out of range")
  let tail := (digest.toList.dropWhile (· ≠ ':')).drop 1
  pure (kind ++ "-" ++ String.ofList (tail.take 24))

-- ==== the observations

structure ManualPositionObservation where
  symbol : String
  (totalQuantity availableQuantity frozenQuantity : Nat)
  averageCost : Option ℚ
  observedMarketValue : ℚ
  partition : availableQuantity + frozenQuantity = totalQuantity
  costPresence : totalQuantity = 0 ↔ averageCost = none
  costPositive : ∀ cost ∈ averageCost, IsCost cost
  value : IsAmount observedMarketValue

structure ManualAccountObservation where
  (observationId accountId : String)
  tradingDate : Day
  asOfTime : Instant
  (totalEquity availableCash frozenCash : ℚ)
  positions : List ManualPositionObservation
  equity : IsAmount totalEquity
  available : IsAmount availableCash
  frozen : IsAmount frozenCash
  covered : availableCash + frozenCash ≤ totalEquity
  ordered : (positions.map (·.symbol)).Pairwise (· < ·)

structure FillDerivedPositionReference where
  (snapshotId accountId symbol : String)
  asOfTime : Instant
  totalQuantity : Nat
  (availableQuantity frozenQuantity : Option Nat)
  averageCost : Option ℚ
  complete : Bool
  partition : ∀ available ∈ availableQuantity, ∀ frozen ∈ frozenQuantity,
    available + frozen = totalQuantity
  costPositive : ∀ cost ∈ averageCost, IsCost cost

structure ReconciliationTolerance where
  (configurationId configurationHash : String)
  (equityTolerance cashTolerance averageCostTolerance : ℚ)
  equity : IsAmount equityTolerance
  cash : IsAmount cashTolerance
  cost : IsAmount averageCostTolerance

-- ==== the report

inductive ReconciliationStatus where
  | reconciled
  | reconciliationRequired
  | dataInsufficient
  | manualReviewRequired
  deriving DecidableEq

inductive ReconciliationDifferenceType where
  | totalEquityDifference
  | cashDifference
  | symbolQuantityDifference
  | availableQuantityDifference
  | frozenQuantityDifference
  | averageCostDifference
  | systemMissingPosition
  | manualMissingPosition
  | unrecordedTradeSuspected
  | corporateActionSuspected
  | tPlusOneDifference
  | dataInsufficient
  deriving DecidableEq

structure ReconciliationDifference where
  differenceType : ReconciliationDifferenceType
  symbol : Option String
  (expectedValue observedValue absoluteDifference : Option ℚ)
  reasonCode : String

/-- The fields of a report but its identity: `values` of `create`. -/
structure ReconciliationValues where
  accountId : String
  tradingDate : Day
  asOfTime : Instant
  manualObservationId : String
  positionSnapshotIds : List String
  fillLedgerHead : String
  fillLedgerComplete : Bool
  (toleranceConfigurationId toleranceConfigurationHash : String)
  status : ReconciliationStatus
  differences : List ReconciliationDifference
  reasonCodes : List String
  revision : Int
  previousReconciliationId : Option String
  idempotencyKey : String
  createdAt : Instant

structure AccountReconciliationReport extends ReconciliationValues where
  (reconciliationId contentHash : String)

-- ==== the summary and the limits

inductive DecisionModelQualification where
  | qualified
  | unqualified
  | unknown
  deriving DecidableEq

inductive DecisionOrderability where
  | orderable
  | notOrderable
  | unknown
  deriving DecidableEq

structure SummaryCandidate where
  symbol : String
  theme : Option String
  invalidationConditions : List String
  currentQuantity : Nat
  researchExposureCeiling : ℚ
  modelQualification : DecisionModelQualification
  liquidity : ℚ
  orderability : DecisionOrderability
  ceiling : IsRatio researchExposureCeiling
  liquid : IsRatio liquidity

structure DailyDecisionWindowSummary where
  (summaryId accountId : String)
  tradingDate : Day
  asOfTime : Instant
  (manualObservationId reconciliationId : String)
  candidates : List SummaryCandidate
  createdAt : Instant
  distinct : (candidates.map (·.symbol)).Nodup

structure DecisionRiskConfiguration where
  (configurationId configurationHash : String)
  (maximumSingleSymbolWeight maximumThemeWeight minimumLiquidity : ℚ)
  single : IsRatio maximumSingleSymbolWeight
  theme : IsRatio maximumThemeWeight
  liquidity : IsRatio minimumLiquidity

-- ==== the proposal

inductive ProposalStatus where
  | proposed
  | noAction
  | dataInsufficient
  | modelNotQualified
  | orderabilityUnknown
  | reconciliationRequired
  deriving DecidableEq

structure PortfolioProposalLine where
  symbol : String
  (currentWeight proposedResearchWeight weightDelta researchAmount themeExposure
    singleSymbolExposure : ℚ)
  (liquidityConstraint positionConstraint : String)
  (reasonCodes invalidationConditions : List String)
  modelQualification : DecisionModelQualification
  orderability : DecisionOrderability

/-- The fields of a proposal but its identity: `values` of `create`. -/
structure ProposalValues where
  accountId : String
  tradingDate : Day
  asOfTime : Instant
  summaryId : String
  (manualObservationId reconciliationId riskConfigurationId riskConfigurationHash : String)
  status : ProposalStatus
  lines : List PortfolioProposalLine
  reasonCodes : List String
  idempotencyKey : String
  createdAt : Instant

structure ResearchPortfolioProposal extends ProposalValues where
  (proposalId contentHash : String)

section Constructors

variable (nfc : String → String)

namespace ReconciliationDifference

variable (difference : ReconciliationDifference)

def postInit : Except Raised Unit := do
  difference.symbol.forM (text nfc "symbol")
  text nfc "reason_code" difference.reasonCode
  difference.expectedValue.forM (decimal "expected_value")
  difference.observedValue.forM (decimal "observed_value")
  difference.absoluteDifference.forM (decimal "absolute_difference")

/-- A call of the constructor. -/
def make : Except Raised ReconciliationDifference := do
  difference.postInit nfc
  pure difference

end ReconciliationDifference

namespace AccountReconciliationReport

/-- `AccountReconciliationReport.__post_init__`, on a report whose hash and identity
have just been computed. -/
def postInit (report : AccountReconciliationReport) : Except Raised Unit := do
  text nfc "account_id" report.accountId
  requireSha256 "fill_ledger_head" report.fillLedgerHead
  text nfc "idempotency_key" report.idempotencyKey
  aware "as_of_time" report.asOfTime
  aware "created_at" report.createdAt
  requireSha256 "tolerance_configuration_hash" report.toleranceConfigurationHash
  positiveInteger "revision" report.revision
  require (report.revision = 1 ↔ report.previousReconciliationId = none)
    (.valueError "reconciliation revision lineage mismatch")
  require (report.positionSnapshotIds = sortedDistinct report.positionSnapshotIds)
    (.valueError "position snapshot IDs must be sorted and unique")
  sortedUniqueText nfc "reason_codes" report.reasonCodes
  requireSha256 "content_hash" report.contentHash

/-- `AccountReconciliationReport.create`. -/
def create (canonicalHash : ReconciliationValues → Except Raised String)
    (values : ReconciliationValues) :
    Except Raised AccountReconciliationReport := do
  let normalized := { values with
    positionSnapshotIds := sortedDistinct values.positionSnapshotIds
    reasonCodes := sortedDistinct values.reasonCodes }
  let digest ← canonicalHash normalized
  let reconciliationId ← artifactId "account-reconciliation" digest
  let report : AccountReconciliationReport :=
    { normalized with reconciliationId, contentHash := digest }
  report.postInit nfc
  pure report

end AccountReconciliationReport

namespace PortfolioProposalLine

variable (line : PortfolioProposalLine)

def postInit : Except Raised Unit := do
  text nfc "symbol" line.symbol
  decimalRatio "current_weight" line.currentWeight
  decimalRatio "proposed_research_weight" line.proposedResearchWeight
  decimalRatio "theme_exposure" line.themeExposure
  decimalRatio "single_symbol_exposure" line.singleSymbolExposure
  signedDecimal "weight_delta" line.weightDelta
  decimal "research_amount" line.researchAmount
  require (line.weightDelta = line.proposedResearchWeight - line.currentWeight)
    (.valueError "Proposal line weight delta mismatch")
  sortedUniqueText nfc "reason_codes" line.reasonCodes
  sortedUniqueText nfc "invalidation_conditions" line.invalidationConditions

/-- A call of the constructor. -/
def make : Except Raised PortfolioProposalLine := do
  line.postInit nfc
  pure line

end PortfolioProposalLine

namespace ResearchPortfolioProposal

/-- `ResearchPortfolioProposal.__post_init__`, on a proposal whose hash and identity
have just been computed. -/
def postInit (proposal : ResearchPortfolioProposal) : Except Raised Unit := do
  aware "as_of_time" proposal.asOfTime
  aware "created_at" proposal.createdAt
  requireSha256 "risk_configuration_hash" proposal.riskConfigurationHash
  sortedUniqueText nfc "reason_codes" proposal.reasonCodes
  let symbols := proposal.lines.map (·.symbol)
  require (symbols = sortedDistinct symbols)
    (.valueError "Proposal symbols must be sorted and unique")
  require ((proposal.lines.map (·.proposedResearchWeight)).sum ≤ 1)
    (.valueError "Proposal weights exceed one")
  requireSha256 "content_hash" proposal.contentHash

/-- `ResearchPortfolioProposal.create`. -/
def create (canonicalHash : ProposalValues → Except Raised String)
    (values : ProposalValues) : Except Raised ResearchPortfolioProposal := do
  let normalized := { values with
    lines := sortBy (·.symbol) values.lines
    reasonCodes := sortedDistinct values.reasonCodes }
  let digest ← canonicalHash normalized
  let proposalId ← artifactId "research-portfolio-proposal" digest
  let proposal : ResearchPortfolioProposal := { normalized with proposalId, contentHash := digest }
  proposal.postInit nfc
  pure proposal

end ResearchPortfolioProposal

end Constructors

end MarketRegimeAlpha.DecisionSystem
