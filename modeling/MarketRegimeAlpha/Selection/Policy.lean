/-
The data of Candidate ranking: the population it ranks, the policy it
ranks by, and the plan it writes.

A dataclass is a structure whose proof fields are the checks of its
`__post_init__`, so a value of the type is a value the source could have
constructed; a policy holds its components in the order of their
ordinals, as `__post_init__` leaves them. A UUID is the number it is the
text of, so the order of the texts is the order of the numbers. The
content hashes, and the identities derived by hashing, are read by
nothing here and are left out.
-/
import MarketRegimeAlpha.Lib.Checked
import MarketRegimeAlpha.Lib.Decimal

namespace MarketRegimeAlpha.Selection

open Lib

-- ==== the population

inductive CandidateCellStatus where
  | available
  | missing
  | unknown
  | stale
  | conflict
  deriving DecidableEq

/-- The value of a cell: a `Decimal` or an `int`. -/
inductive CellValue where
  | decimal (value : Decimal)
  | integer (value : Int)

/-- `Fraction(value)`. -/
def CellValue.exact : CellValue → ℚ
  | .decimal value => value.value
  | .integer value => value

/-- One Feature of one instrument. -/
structure CandidatePopulationCell where
  featureDefinitionId : Nat
  status : CandidateCellStatus
  value : Option CellValue
  reasonCode : String
  reason_required : reasonCode ≠ ""
  value_iff : value.isSome = (status == .available)

structure CandidatePopulationRow where
  (instrumentId datasetPopulationSourceId : Nat)
  cells : List CandidatePopulationCell
  features_unique : (cells.map (·.featureDefinitionId)).Nodup

structure CandidateDatasetPopulation where
  (datasetId universeRevisionId eligibilityPolicyId : Nat)
  rows : List CandidatePopulationRow
  instruments_unique : (rows.map (·.instrumentId)).Nodup
  sources_unique : (rows.map (·.datasetPopulationSourceId)).Nodup

/-- The cell of a row for a Feature: `cells[feature_definition_id]`. -/
def CandidatePopulationRow.cell (row : CandidatePopulationRow)
    (featureDefinitionId : Nat) : Option CandidatePopulationCell :=
  row.cells.find? (·.featureDefinitionId == featureDefinitionId)

-- ==== the policy

inductive CandidateFeatureValueType where
  | decimal
  | integer
  deriving DecidableEq

inductive DesirabilityDirection where
  | higherIsBetter
  | lowerIsBetter
  deriving DecidableEq

/-- `_CODE`: a lower-case letter, then at most 99 lower-case letters,
digits or underscores. -/
def isPolicyCode (s : String) : Bool :=
  match s.toList with
  | [] => false
  | c :: cs => c.isLower && cs.length ≤ 99 && cs.all fun d => d.isLower || d.isDigit || d == '_'

structure CandidatePolicyComponent where
  (candidatePolicyComponentId candidatePolicyId : Nat)
  componentCode : String
  (ordinal featureDefinitionId : Nat)
  featureValueType : CandidateFeatureValueType
  direction : DesirabilityDirection
  declaredWeight : Decimal
  code_format : isPolicyCode componentCode
  weight_positive : 0 < declaredWeight.value

structure CandidatePolicy where
  candidatePolicyId : Nat
  policyCode : String
  (version requestedTopK : Nat)
  components : List CandidatePolicyComponent
  code_format : isPolicyCode policyCode
  version_positive : 1 ≤ version
  top_k_positive : 1 ≤ requestedTopK
  nonempty : components ≠ []
  parent : ∀ c ∈ components, c.candidatePolicyId = candidatePolicyId
  ordinals : components.map (·.ordinal) = List.range' 1 components.length
  codes_unique : (components.map (·.componentCode)).Nodup
  identities_unique : (components.map (·.candidatePolicyComponentId)).Nodup
  features_unique : (components.map (·.featureDefinitionId)).Nodup

-- ==== the plan

inductive CandidateDisposition where
  | selected
  | rankedNotSelected
  | unrankable
  deriving DecidableEq

inductive CandidateRankingStatus where
  | available
  | constant
  | notEstimable
  deriving DecidableEq

structure CandidateSetResult where
  (candidatePolicyId datasetId universeRevisionId eligibilityPolicyId
    decimalProjectionPrecision requestedTopK componentCount populationCount rankableCount
    unrankableCount selectedCount rankedNotSelectedCount scoreComponentCount
    availableComponentCount constantComponentCount notEstimableComponentCount : Nat)
  rankingStatus : CandidateRankingStatus
  compositeDistinctCount : Nat
  boundaryScore : Option Decimal
  boundaryRank : Option Nat
  (strictlyAboveBoundaryCount boundaryGroupCount selectedOverflowCount : Nat)
  (boundaryHasTie boundaryTieExpanded : Bool)

structure CandidateRecord where
  (candidatePolicyId datasetId instrumentId datasetPopulationSourceId : Nat)
  disposition : CandidateDisposition
  compositeScore : Option Decimal
  competitionRank : Option Nat
  reasonCode : String

structure CandidateScoreComponentRecord where
  (candidatePolicyId candidatePolicyComponentId featureDefinitionId : Nat)
  featureValueType : CandidateFeatureValueType
  (datasetId instrumentId : Nat)
  rawStatus : CandidateCellStatus
  rawDecimalValue : Option Decimal
  rawIntegerValue : Option Int
  rawReasonCode : String
  normalizedWeight : Decimal
  (percentile contribution : Option Decimal)
  candidateDisposition : CandidateDisposition

structure CandidateComponentDiagnostic where
  (candidatePolicyComponentId featureDefinitionId observedCount distinctCount rawAvailableCount
    availableButNotObservedCount missingCount unknownCount staleCount conflictCount : Nat)
  rankInformationStatus : CandidateRankingStatus

structure CandidateRankingPlan where
  candidateSet : CandidateSetResult
  candidates : List CandidateRecord
  scoreComponents : List CandidateScoreComponentRecord
  componentDiagnostics : List CandidateComponentDiagnostic

end MarketRegimeAlpha.Selection
