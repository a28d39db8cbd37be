/-
The records the strategies hand on: references, proposals, runs and cycles.

Weights and utilities are exact. A record's own hash, the identity made of it
and the fields nothing here reads are left out, with their checks; a proposal
still names the run it belongs to, and a run its cycle.
-/
import Mathlib.Algebra.Order.Field.Rat
import Mathlib.Data.String.Basic
import MarketRegimeAlpha.Lib.Checked

namespace MarketRegimeAlpha.Strategies

structure RuntimeArtifactReference where
  (referenceKind artifactId contentHash : String)
  deriving DecidableEq

inductive CanonicalStrategyAction where
  | noAction
  | enter
  | hold
  | add
  | reduce
  | rotate
  | exit
  deriving DecidableEq

structure StrategyProposal where
  (proposalId proposalHash strategyRunId : String)
  strategyVersionReference : RuntimeArtifactReference
  symbol : String
  action : CanonicalStrategyAction
  desiredWeight : ℚ
  utilityScore : Option ℚ
  weight_bounds : -1 ≤ desiredWeight ∧ desiredWeight ≤ 1
  passive : action = .noAction ∨ action = .hold → desiredWeight = 0
  increasing : action = .enter ∨ action = .add → 0 < desiredWeight
  decreasing : action = .reduce ∨ action = .exit → desiredWeight < 0

structure StrategyRun where
  (runId cycleId : String)
  strategyVersionReference : RuntimeArtifactReference
  proposals : List StrategyProposal
  sorted : (proposals.map (·.proposalId)).Pairwise (· < ·)
  owned : ∀ proposal ∈ proposals, proposal.strategyRunId = runId

structure MultiStrategyCycle where
  (cycleId cycleHash : String)
  runs : List StrategyRun
  sorted : (runs.map (·.strategyVersionReference.artifactId)).Pairwise (· < ·)
  owned : ∀ run ∈ runs, run.cycleId = cycleId

end MarketRegimeAlpha.Strategies
