/-
The Target of a Market Outcome and the sources it is calculated from.

# What stands for what

A dataclass that the caller constructs is a structure whose proof fields
are the checks of its `__post_init__`. A UUID is the number it is the
text of, a timestamp a number of microseconds in UTC, a date the number
of its day and a time of day a number of microseconds. Prices and
thresholds are the rationals they spell. A time zone is a name that the
zone database has. The content hashes of the parts, which nothing here
reads, are left out.
-/
import Mathlib.Data.String.Basic
import MarketRegimeAlpha.Lib.Checked
import MarketRegimeAlpha.Lib.OrderStat

namespace MarketRegimeAlpha.Outcome

open Lib

/-- A timestamp, in microseconds. -/
abbrev Instant := Int

-- ==== the vocabulary

inductive OutcomeStatus where
  | partialStatus
  | complete
  | unavailable
  | failed
  deriving DecidableEq

/-- `status.value`. -/
def OutcomeStatus.text : OutcomeStatus → String
  | .partialStatus => "PARTIAL"
  | .complete => "COMPLETE"
  | .unavailable => "UNAVAILABLE"
  | .failed => "FAILED"

inductive OutcomeAvailabilityStatus where
  | available
  | unavailable
  | failed
  deriving DecidableEq

inductive OutcomeFinalityStatus where
  | unknown
  deriving DecidableEq

inductive OutcomeReferenceValueStatus where
  | present
  | unavailable
  | failed
  deriving DecidableEq

inductive OutcomeSourceKind where
  | tradingSession
  | barRevision
  | sourceGap
  deriving DecidableEq

inductive OutcomeGapKind where
  | missing
  | placeholder
  | providerFailure
  | conflict
  | invalidOhlc
  deriving DecidableEq

inductive OutcomeMetricKind where
  | simpleReturn
  | observationReturn
  | maxFavorableExcursion
  | maxAdverseExcursion
  | barrierHit
  | observationValue
  deriving DecidableEq

inductive OutcomeValueType where
  | decimal
  | boolean
  deriving DecidableEq

inductive OutcomeCompletionRule where
  | required
  | optional
  deriving DecidableEq

inductive OutcomeDependencyRole where
  | reference
  | observation
  | pathMember
  deriving DecidableEq

inductive OutcomeBarrierDirection where
  | up
  | down
  deriving DecidableEq

inductive OutcomeValueField where
  | openField
  | highField
  | lowField
  | closeField
  deriving DecidableEq

inductive OutcomeReasonDimension where
  | revision
  | observation
  | metric
  | source
  deriving DecidableEq

/-- `dimension.value`. -/
def OutcomeReasonDimension.text : OutcomeReasonDimension → String
  | .revision => "REVISION"
  | .observation => "OBSERVATION"
  | .metric => "METRIC"
  | .source => "SOURCE"

-- ==== the reference

def OutcomeReferenceValueStatus.availability :
    OutcomeReferenceValueStatus → OutcomeAvailabilityStatus
  | .present => .available
  | .unavailable => .unavailable
  | .failed => .failed

structure FrozenDecisionReference where
  decisionReferenceObservationId : Nat
  valueStatus : OutcomeReferenceValueStatus
  availabilityStatus : OutcomeAvailabilityStatus
  finalityStatus : OutcomeFinalityStatus
  decimalValue : Option ℚ
  availability : availabilityStatus = valueStatus.availability
  value_iff : decimalValue.isSome ↔ valueStatus = .present
  value_positive : ∀ value ∈ decimalValue, 0 < value

-- ==== the target

/-- `_CODE.fullmatch(value)`. -/
def isCode : String → Bool := fullmatch isLower (fun c => isLower c || isDigit c || c == '_') 99

/-- `_ALGORITHM_VERSION.fullmatch(value)`. -/
def isAlgorithmVersion : String → Bool :=
  fullmatch (fun c => isUpper c || isLower c || isDigit c)
    (fun c => isUpper c || isLower c || isDigit c || c == '.' || c == '_'
      || c == '-') 63

/-- The algorithm that a Target, a metric definition and a metric name,
with its code and its configuration. -/
structure AlgorithmIdentity where
  (algorithmCode algorithmVersion algorithmSha256 : String)
  codeArtifactId : Nat
  codeContentSha256 : String
  codeSizeBytes : Int
  configArtifactId : Nat
  configContentSha256 : String
  configSizeBytes : Int

def AlgorithmIdentity.valid (a : AlgorithmIdentity) : Bool :=
  isCode a.algorithmCode && isAlgorithmVersion a.algorithmVersion
    && isSha256 a.algorithmSha256 && isSha256 a.codeContentSha256
    && isSha256 a.configContentSha256
    && 0 ≤ a.codeSizeBytes && 0 ≤ a.configSizeBytes

structure OutcomeCheckpoint where
  targetCheckpointId : Nat
  ordinal : Int
  checkpointCode : String
  sessionOffset : Int
  localTime : Nat
  (timezoneName timeframe priceBasis : String)
  valueField : OutcomeValueField
  positive : 1 ≤ ordinal ∧ 1 ≤ sessionOffset
  code : isCode checkpointCode
  minute : localTime % 60000000 = 0
  timeframe_known : timeframe ∈ ["MINUTE_1", "MINUTE_5", "MINUTE_15",
    "MINUTE_30", "MINUTE_60", "DAILY"]
  basis_known : priceBasis ∈ ["RAW_UNADJUSTED", "FORWARD_ADJUSTED", "BACKWARD_ADJUSTED"]

/-- `expected_shape`. -/
def OutcomeMetricKind.shape : OutcomeMetricKind → OutcomeValueType × String
  | .simpleReturn => (.decimal, "RATIO")
  | .observationReturn => (.decimal, "RATIO")
  | .maxFavorableExcursion => (.decimal, "RATIO")
  | .maxAdverseExcursion => (.decimal, "RATIO")
  | .observationValue => (.decimal, "PRICE")
  | .barrierHit => (.boolean, "BOOLEAN")

structure OutcomeMetricDefinition where
  targetMetricDefinitionId : Nat
  ordinal : Int
  metricCode : String
  metricKind : OutcomeMetricKind
  valueType : OutcomeValueType
  unit : String
  completionRule : OutcomeCompletionRule
  algorithm : AlgorithmIdentity
  contentSha256 : String
  barrierDirection : Option OutcomeBarrierDirection
  barrierThreshold : Option ℚ
  identity : 1 ≤ ordinal ∧ isCode metricCode
  algorithm_valid : algorithm.valid
  content_valid : isSha256 contentSha256
  shape : (valueType, unit) = metricKind.shape
  barrier : if metricKind = .barrierHit then
      barrierDirection.isSome ∧ barrierThreshold.isSome
    else barrierDirection = none ∧ barrierThreshold = none
  threshold_positive : ∀ threshold ∈ barrierThreshold, 0 < threshold

structure OutcomeMetricDependency where
  targetMetricDependencyId : Nat
  ordinal : Int
  (targetMetricDefinitionId targetCheckpointId : Nat)
  role : OutcomeDependencyRole
  positive : 1 ≤ ordinal
  deriving DecidableEq

/-- `_validate_metric_dependencies`, of the roles of a metric's
dependencies. -/
def OutcomeMetricKind.acceptsRoles (kind : OutcomeMetricKind)
    (roles : List OutcomeDependencyRole) : Bool :=
  match kind with
  | .observationReturn => roles = [.observation, .observation]
  | .simpleReturn => roles.isPerm [.reference, .observation]
  | .observationValue => roles = [.observation]
  | .maxFavorableExcursion | .maxAdverseExcursion | .barrierHit =>
    roles.count .reference = 1 && 1 ≤ roles.count .pathMember
      && roles.all fun role => role = .reference || role = .pathMember

/-- The scope that the two checkpoints of an `OBSERVATION_RETURN` must
share. -/
def sameDailyScope (first last : OutcomeCheckpoint) : Prop :=
  first.sessionOffset = last.sessionOffset ∧ first.localTime = last.localTime
    ∧ first.timezoneName = last.timezoneName
    ∧ first.timeframe = "DAILY" ∧ last.timeframe = "DAILY"
    ∧ first.priceBasis = "RAW_UNADJUSTED" ∧ last.priceBasis = "RAW_UNADJUSTED"
    ∧ first.valueField = .openField ∧ last.valueField = .closeField

instance (first last : OutcomeCheckpoint) : Decidable (sameDailyScope first last) :=
  inferInstanceAs (Decidable (_ ∧ _))

/-- `1, …, n`. -/
def ordinals (n : Nat) : List Int := (List.range' 1 n).map fun k : Nat => (k : Int)

def dependenciesOf (dependencies : List OutcomeMetricDependency)
    (metricId : Nat) : List OutcomeMetricDependency :=
  dependencies.filter (·.targetMetricDefinitionId = metricId)

structure OutcomeTargetDefinition where
  targetDefinitionId : Nat
  targetCode : String
  version : Int
  contentSha256 : String
  referenceCheckpointId : Nat
  algorithm : AlgorithmIdentity
  checkpoints : List OutcomeCheckpoint
  metrics : List OutcomeMetricDefinition
  dependencies : List OutcomeMetricDependency
  identity : 1 ≤ version ∧ isCode targetCode
  content_valid : isSha256 contentSha256
  algorithm_valid : algorithm.valid
  nonempty : checkpoints ≠ [] ∧ metrics ≠ [] ∧ dependencies ≠ []
  checkpoints_ordered : checkpoints.map (·.ordinal) = sortedDistinct (checkpoints.map (·.ordinal))
  metrics_contiguous : metrics.map (·.ordinal) = ordinals metrics.length
  dependencies_contiguous : dependencies.map (·.ordinal) = ordinals dependencies.length
  checkpoints_unique : (checkpoints.map (·.targetCheckpointId)).Nodup
  metrics_unique : (metrics.map (·.targetMetricDefinitionId)).Nodup
  metric_known : ∀ d ∈ dependencies, d.targetMetricDefinitionId
    ∈ metrics.map (·.targetMetricDefinitionId)
  checkpoint_known : ∀ d ∈ dependencies,
    if d.role = .reference then d.targetCheckpointId = referenceCheckpointId
    else d.targetCheckpointId ∈ checkpoints.map (·.targetCheckpointId)
  bindings_unique : (dependencies.map fun d =>
    (d.targetMetricDefinitionId, d.targetCheckpointId, d.role)).Nodup
  roles : ∀ m ∈ metrics, m.metricKind.acceptsRoles
    ((dependenciesOf dependencies m.targetMetricDefinitionId).map (·.role))
  daily_scope : ∀ m ∈ metrics, m.metricKind = .observationReturn →
    ∀ first ∈ checkpoints, ∀ last ∈ checkpoints,
      (dependenciesOf dependencies m.targetMetricDefinitionId).map
          (·.targetCheckpointId)
        = [first.targetCheckpointId, last.targetCheckpointId] →
      sameDailyScope first last

-- ==== the sources

structure OutcomeSessionSource where
  sessionId : Nat
  sessionOffset : Int
  exchange : String
  sessionDate : Int
  timezoneName : String
  (openAt closeAt : Instant)
  (sourceCaptureId providerProductId : Nat)
  (recordedAt knownAt : Instant)
  offset_positive : 1 ≤ sessionOffset
  exchange_named : exchange ≠ ""
  ordered : openAt < closeAt ∧ recordedAt ≤ knownAt

/-- What every source of an observation has, with the checks of
`_validate_observation_source`. -/
structure ObservationSourceScope where
  targetCheckpointId : Nat
  sourceOrdinal : Int
  (providerProductId captureId instrumentId sessionId : Nat)
  (timeframe priceBasis : String)
  (eventStart eventEnd recordedAt knownAt : Instant)
  ordinal_positive : 1 ≤ sourceOrdinal
  ordered : eventStart < eventEnd ∧ recordedAt ≤ knownAt ∧ eventEnd ≤ knownAt
  deriving DecidableEq

structure OutcomeBarSource extends ObservationSourceScope where
  barRevisionId : Nat
  revision : Int
  (openValue highValue lowValue closeValue : ℚ)
  revision_positive : 1 ≤ revision
  values_positive : 0 < openValue ∧ 0 < highValue ∧ 0 < lowValue ∧ 0 < closeValue
  high_greatest : max (max (max openValue highValue) lowValue) closeValue ≤ highValue
  low_least : lowValue ≤ min (min (min openValue highValue) lowValue) closeValue
  deriving DecidableEq

/-- `^[A-Z][A-Z0-9_]{0,99}$`. -/
def isReasonCode : String → Bool :=
  fullmatch isUpper (fun c => isUpper c || isDigit c || c == '_') 99

structure OutcomeGapSource extends ObservationSourceScope where
  gapId : Nat
  gapKind : OutcomeGapKind
  reasonCode : String
  reason_valid : isReasonCode reasonCode
  deriving DecidableEq

inductive OutcomeObservationSource where
  | bar (source : OutcomeBarSource)
  | gap (source : OutcomeGapSource)
  deriving DecidableEq

def OutcomeObservationSource.scope : OutcomeObservationSource → ObservationSourceScope
  | .bar source => source.toObservationSourceScope
  | .gap source => source.toObservationSourceScope

end MarketRegimeAlpha.Outcome
