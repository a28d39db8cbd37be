/-
The Portfolio proposal of a Decision: the weights of the actionable
Opportunities under the caps of its policy.

# What stands for what

A `Decimal` is an exact rational, a UUID is a number and a timestamp is
a number of microseconds in UTC. A dataclass that the caller constructs
is a structure whose proof fields are the checks of its `__post_init__`;
those that `build_portfolio_proposal` constructs check their fields in a
`postInit` that raises. Content hashes, Artifact bindings and
provenance are read by no check of this code and are left out.
-/
import MarketRegimeAlpha.Lib.Checked
import MarketRegimeAlpha.Lib.Quantize

namespace MarketRegimeAlpha.DecisionSupport

open Lib

-- ==== the policy

/-- `_CODE.fullmatch(value)`. -/
def isCode : String → Bool :=
  fullmatch isLower (fun c => isLower c || isDigit c || c == '_' || c == '.'
    || c == '-') 99

def sha (value label : String) : Except Raised String := do
  Lib.require (isSha256 value) (.valueError (label ++ " must be a lowercase SHA-256"))
  return value

def ratio (value : ℚ) (label : String) : Except Raised ℚ := do
  Lib.require (0 ≤ value ∧ value ≤ 1) (.valueError (label ++ " must be a finite ratio"))
  return value

inductive PortfolioAllocationMethod where
  | equalWeightActionable
  deriving DecidableEq

structure PortfolioPolicyPlan where
  portfolioPolicyId : Nat
  policyCode : String
  version : Int
  supersedesPolicyId : Option Nat
  allocationMethod : PortfolioAllocationMethod
  (minimumEstimableCount maximumLineCount : Nat)
  (maximumSingleWeight maximumGrossWeight maximumNetWeight minimumCashWeight maximumTurnover : ℚ)
  decimalPlaces : Nat
  identity : isCode policyCode ∧ 1 ≤ version
  supersession : version = 1 ↔ supersedesPolicyId = none
  counts : 1 ≤ minimumEstimableCount ∧ 1 ≤ maximumLineCount
  places : 1 ≤ decimalPlaces ∧ decimalPlaces ≤ 12
  ratios : ∀ value ∈ [maximumSingleWeight, maximumGrossWeight,
    maximumNetWeight, minimumCashWeight, maximumTurnover],
    0 ≤ value ∧ value ≤ 1
  net_le_gross : maximumNetWeight ≤ maximumGrossWeight

-- ==== the inputs

inductive OpportunityStatus where
  | actionable
  | noAction
  | wait
  | notEstimable
  deriving DecidableEq

structure PreparedPortfolioOpportunity where
  (opportunityId ordinal candidateId instrumentId targetDefinitionId : Nat)
  status : OpportunityStatus

structure PreparedPortfolioInputs where
  (decisionRunId strategyVersionId opportunitySetId : Nat)
  opportunitySetRecordedAt : Int
  opportunities : List PreparedPortfolioOpportunity
  contiguous : opportunities.map (·.ordinal) = List.range' 1 opportunities.length

-- ==== the proposal

inductive PortfolioProposalStatus where
  | proposed
  | noAction
  | notEstimable
  deriving DecidableEq

inductive PortfolioLineStatus where
  | included
  | excluded
  | notEstimable
  deriving DecidableEq

structure PortfolioLinePlan where
  (portfolioLineId ordinal : Nat)
  source : PreparedPortfolioOpportunity
  status : PortfolioLineStatus
  proposedWeight : ℚ
  reasonCode : String

def PortfolioLinePlan.postInit (line : PortfolioLinePlan) :
    Except Raised PortfolioLinePlan := do
  let _ ← ratio line.proposedWeight "Portfolio line weight"
  return line

structure PortfolioProposalAuthority where
  portfolioProposalId : Nat
  prepared : PreparedPortfolioInputs
  policy : PortfolioPolicyPlan
  status : PortfolioProposalStatus
  lines : List PortfolioLinePlan
  (includedCount excludedCount notEstimableCount : Nat)
  (grossWeight netWeight cashWeight turnoverWeight : ℚ)
  (requestIdentity requestSha256 : String)
  commandReceiptId : Nat
  recordedAt : Int

def PortfolioProposalAuthority.postInit (p : PortfolioProposalAuthority) :
    Except Raised PortfolioProposalAuthority := do
  Lib.require (p.prepared.opportunitySetRecordedAt ≤ p.recordedAt)
    (.valueError "PortfolioProposal cannot precede OpportunitySet")
  Lib.require (p.includedCount + p.excludedCount + p.notEstimableCount
    = p.lines.length) (.valueError "Portfolio line states do not reconcile")
  let _ ← ratio p.grossWeight "gross_weight"
  let _ ← ratio p.netWeight "net_weight"
  let _ ← ratio p.cashWeight "cash_weight"
  let _ ← ratio p.turnoverWeight "turnover_weight"
  return p

-- ==== allocating it

variable (prepared : PreparedPortfolioInputs)

def PreparedPortfolioInputs.actionable : List PreparedPortfolioOpportunity :=
  prepared.opportunities.filter (·.status = .actionable)

def PreparedPortfolioInputs.estimableCount : Nat :=
  prepared.opportunities.countP (·.status ≠ .notEstimable)

def selected (policy : PortfolioPolicyPlan) : List PreparedPortfolioOpportunity :=
  if policy.minimumEstimableCount ≤ prepared.estimableCount then
    prepared.actionable.take policy.maximumLineCount
  else []

def proposalStatus (policy : PortfolioPolicyPlan) : PortfolioProposalStatus :=
  if prepared.estimableCount < policy.minimumEstimableCount then .notEstimable
  else if selected prepared policy = [] then .noAction
  else .proposed

variable (policy : PortfolioPolicyPlan)

def PortfolioPolicyPlan.quantum : ℚ := 1 / 10 ^ policy.decimalPlaces

def PortfolioPolicyPlan.grossCap : ℚ :=
  min (min (min policy.maximumGrossWeight policy.maximumNetWeight)
    policy.maximumTurnover) (1 - policy.minimumCashWeight)

/-- `raw_weight`, for a number of selected Opportunities. -/
def PortfolioPolicyPlan.rawWeight (count : Nat) : ℚ :=
  if count = 0 then 0
  else min policy.maximumSingleWeight (policy.grossCap / count)

/-- `base_weight`, for a number of selected Opportunities. -/
def PortfolioPolicyPlan.baseWeight (count : Nat) : ℚ :=
  quantize truncate policy.quantum (policy.rawWeight count)

/-- The loop over the Opportunities: `remaining` is what is left of the
cap, and a line is as it is handed to its constructor. -/
def planLines (policy : PortfolioPolicyPlan) (status : PortfolioProposalStatus)
    (selectedIds : List Nat) (baseWeight : ℚ) (lineIdFactory : PreparedPortfolioOpportunity → Nat) :
    ℚ → List (PreparedPortfolioOpportunity × Nat) → List PortfolioLinePlan
  | _, [] => []
  | remaining, (item, ordinal) :: rest =>
    if status = .notEstimable then
      { portfolioLineId := lineIdFactory item, ordinal := ordinal
        source := item, status := .notEstimable, proposedWeight := 0
        reasonCode := "PROPOSAL_NOT_ESTIMABLE" }
        :: planLines policy status selectedIds baseWeight lineIdFactory remaining rest
    else if item.opportunityId ∉ selectedIds then
      { portfolioLineId := lineIdFactory item, ordinal := ordinal
        source := item, status := .excluded, proposedWeight := 0
        reasonCode := "OPPORTUNITY_NOT_INCLUDED" }
        :: planLines policy status selectedIds baseWeight lineIdFactory remaining rest
    else
      let extra := min (min policy.quantum remaining) (policy.maximumSingleWeight - baseWeight)
      { portfolioLineId := lineIdFactory item, ordinal := ordinal
        source := item, status := .included
        proposedWeight := baseWeight + extra
        reasonCode := "EQUAL_WEIGHT_ACTIONABLE" }
        :: planLines policy status selectedIds baseWeight lineIdFactory (remaining - extra) rest

def buildPortfolioProposal (portfolioProposalId : Nat) (prepared : PreparedPortfolioInputs)
    (policy : PortfolioPolicyPlan) (requestIdentity requestSha256 : String) (commandReceiptId : Nat)
    (recordedAt : Int) (lineIdFactory : PreparedPortfolioOpportunity → Nat) :
    Except Raised PortfolioProposalAuthority := do
  let requestSha256 ← sha requestSha256 "Portfolio request hash"
  let chosen := selected prepared policy
  let status := proposalStatus prepared policy
  let baseWeight := policy.baseWeight chosen.length
  let remaining := policy.grossCap - baseWeight * chosen.length
  let lines ← (planLines policy status (chosen.map (·.opportunityId))
    baseWeight lineIdFactory remaining
    (prepared.opportunities.zipIdx 1)).mapM PortfolioLinePlan.postInit
  let gross := (lines.map (·.proposedWeight)).sum
  PortfolioProposalAuthority.postInit
    { portfolioProposalId := portfolioProposalId
      prepared := prepared
      policy := policy
      status := status
      lines := lines
      includedCount := lines.countP (·.status = .included)
      excludedCount := lines.countP (·.status = .excluded)
      notEstimableCount := lines.countP (·.status = .notEstimable)
      grossWeight := gross
      netWeight := gross
      cashWeight := 1 - gross
      turnoverWeight := gross
      requestIdentity := requestIdentity
      requestSha256 := requestSha256
      commandReceiptId := commandReceiptId
      recordedAt := recordedAt }

end MarketRegimeAlpha.DecisionSupport
