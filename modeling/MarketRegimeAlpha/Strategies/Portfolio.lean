/-
The cross-strategy portfolio: the proposals of a cycle, accepted within a
gross and a symbol budget.

# How it is translated

Weights are exact, so the guard digits of the decimal context have nothing to
do. The dictionary `accepted` is the list of its items; `rankStep` is the loop
over the ranked increases of a symbol and `symbolStep` the loop over the
symbols.
-/
import Mathlib.Data.Prod.Lex
import MarketRegimeAlpha.Lib.Dict
import MarketRegimeAlpha.Lib.OrderStat
import MarketRegimeAlpha.Strategies.Contracts

namespace MarketRegimeAlpha.Strategies

open Lib

-- ==== the records

inductive CrossStrategyPortfolioStatus where
  | accepted
  | partiallyAccepted
  | noAction
  deriving DecidableEq

structure CrossStrategyPortfolioPolicy where
  (maximumGrossWeight maximumSymbolWeight : ℚ)
  gross_bounds : 0 < maximumGrossWeight ∧ maximumGrossWeight ≤ 1
  symbol_bounds : 0 < maximumSymbolWeight ∧ maximumSymbolWeight ≤ maximumGrossWeight
  deriving DecidableEq

structure CrossStrategyPortfolioLine where
  (strategyVersionReference proposalReference : RuntimeArtifactReference)
  symbol : String
  action : CanonicalStrategyAction
  (requestedWeight acceptedWeight : ℚ)
  reasonCodes : List String
  deriving DecidableEq

def CrossStrategyPortfolioLine.postInit (line : CrossStrategyPortfolioLine) :
    Except Raised CrossStrategyPortfolioLine := do
  Lib.require (¬ |line.requestedWeight| < |line.acceptedWeight|)
    (.valueError "Portfolio cannot exceed requested Strategy weight")
  Lib.require (¬ line.requestedWeight * line.acceptedWeight < 0)
    (.valueError "Portfolio cannot reverse a Strategy Proposal")
  Lib.require (line.reasonCodes ≠ []) (.valueError "Portfolio line requires attribution")
  return line

structure CrossStrategyPortfolioDecision where
  cycleReference : RuntimeArtifactReference
  policy : CrossStrategyPortfolioPolicy
  status : CrossStrategyPortfolioStatus
  grossAcceptedWeight : ℚ
  lines : List CrossStrategyPortfolioLine
  limitations : List String
  deriving DecidableEq

/-- `sum(max(0, item.accepted_weight) for item in lines)`. -/
def grossOf (lines : List CrossStrategyPortfolioLine) : ℚ :=
  (lines.map fun item => max 0 item.acceptedWeight).sum

def CrossStrategyPortfolioDecision.postInit (decision : CrossStrategyPortfolioDecision) :
    Except Raised CrossStrategyPortfolioDecision := do
  let proposalIds : List String := decision.lines.map (·.proposalReference.artifactId)
  Lib.require (proposalIds = sortedDistinct proposalIds)
    (.valueError "Portfolio lines must be proposal-sorted and unique")
  let actualGross := grossOf decision.lines
  Lib.require (actualGross = decision.grossAcceptedWeight)
    (.valueError "Portfolio gross weight mismatch")
  Lib.require (¬ decision.policy.maximumGrossWeight < actualGross)
    (.valueError "Portfolio gross risk limit exceeded")
  Lib.require (decision.limitations ≠ [])
    (.valueError "Portfolio decision limitations cannot be empty")
  return decision

-- ==== the allocation

/-- `accepted[proposal_id]`: a weight and its reasons. -/
abbrev Accepted := List (String × (ℚ × List String))

variable (proposal : StrategyProposal)

/-- `item.utility_score or Decimal("0")`. -/
def utilityOf : ℚ := proposal.utilityScore.getD 0

def rankKey : ℚ ×ₗ String :=
  toLex (-utilityOf proposal, proposal.strategyVersionReference.artifactId)

/-- The state of the loop over the ranked increases of a symbol. -/
structure Ranking where
  (symbolRemaining grossRemaining : ℚ)
  accepted : Accepted

/-- One increase. -/
def rankStep (state : Ranking) (proposal : StrategyProposal) : Ranking :=
  let weight := min proposal.desiredWeight state.symbolRemaining
  let reasons :=
    if weight = proposal.desiredWeight then ["ACCEPTED_WITHIN_BASELINE_RISK"]
    else if state.grossRemaining ≤ state.symbolRemaining then
      ["GROSS_WEIGHT_CAPPED"]
    else ["SYMBOL_WEIGHT_CAPPED"]
  { symbolRemaining := state.symbolRemaining - weight
    grossRemaining := state.grossRemaining - weight
    accepted := setItem state.accepted proposal.proposalId (weight, reasons) }

variable (proposals : List StrategyProposal)

def reductionsOf (symbol : String) : List StrategyProposal :=
  (proposals.filter (·.symbol = symbol)).filter (·.desiredWeight < 0)

def increasesOf (symbol : String) : List StrategyProposal :=
  (proposals.filter (·.symbol = symbol)).filter (0 < ·.desiredWeight)

/-- The loop that enters some proposals under one reason. -/
def acceptAll (weight : StrategyProposal → ℚ) (reason : String)
    (accepted : Accepted) (proposals : List StrategyProposal) : Accepted :=
  proposals.foldl (fun accepted proposal =>
    setItem accepted proposal.proposalId (weight proposal, [reason])) accepted

variable (policy : CrossStrategyPortfolioPolicy)

/-- One symbol; the state is `gross_remaining` and `accepted`. -/
def symbolStep (proposals : List StrategyProposal)
    (state : ℚ × Accepted) (symbol : String) : ℚ × Accepted :=
  let reductions := reductionsOf proposals symbol
  let increases := increasesOf proposals symbol
  let accepted := acceptAll (·.desiredWeight) "RISK_REDUCTION_ACCEPTED" state.2 reductions
  if reductions ≠ [] ∧ increases ≠ [] then
    (state.1, acceptAll (fun _ => 0) "OPPOSING_REDUCTION_PRIORITY" accepted increases)
  else
    let run := (sortBy rankKey increases).foldl rankStep
      ⟨min policy.maximumSymbolWeight state.1, state.1, accepted⟩
    (run.grossRemaining, run.accepted)

def line (acceptedWeight : ℚ) (reasonCodes : List String) : CrossStrategyPortfolioLine where
  strategyVersionReference := proposal.strategyVersionReference
  proposalReference := ⟨"STRATEGY_PROPOSAL", proposal.proposalId, proposal.proposalHash⟩
  symbol := proposal.symbol
  action := proposal.action
  requestedWeight := proposal.desiredWeight
  acceptedWeight := acceptedWeight
  reasonCodes := reasonCodes

def portfolioLimitations : List String :=
  ["ALPHA_NOT_ESTABLISHED", "ENGINEERING_BASELINE_ONLY", "NO_OPTIMIZER",
    "NO_ORDER_AUTHORITY", "PRODUCTION_AUTHORIZED_FALSE"]

variable (cycle : MultiStrategyCycle)

def proposalsOf : List StrategyProposal :=
  cycle.runs.flatMap (·.proposals)

/-- The loop over the symbols. -/
def allocate (proposals : List StrategyProposal) : ℚ × Accepted :=
  (sortedDistinct (proposals.map (·.symbol))).foldl
    (symbolStep policy proposals) (policy.maximumGrossWeight, [])

def buildCrossStrategyPortfolio (policy : CrossStrategyPortfolioPolicy) :
    Except Raised CrossStrategyPortfolioDecision := do
  let proposals := proposalsOf cycle
  let accepted := (allocate policy proposals).2
  let drawn ← proposals.mapM fun proposal => do
    let (weight, reasons) ← item accepted proposal.proposalId
    (line proposal weight reasons).postInit
  let lines := sortBy (·.proposalReference.artifactId) drawn
  let status : CrossStrategyPortfolioStatus :=
    if lines = [] then .noAction
    else if ∃ item ∈ lines, item.acceptedWeight ≠ item.requestedWeight then
      .partiallyAccepted
    else .accepted
  CrossStrategyPortfolioDecision.postInit {
    cycleReference := ⟨"MULTI_STRATEGY_CYCLE", cycle.cycleId, cycle.cycleHash⟩
    policy := policy
    status := status
    grossAcceptedWeight := grossOf lines
    lines := lines
    limitations := portfolioLimitations }

end MarketRegimeAlpha.Strategies
