/-
The calculation of an Outcome revision from a Target, its reference and
its sources.

# The arithmetic

The decimals are rationals in a context of 38 digits: `decimal` rounds
the exact result of each operation, and `ratio` quantizes to 18 places
and signals when the coefficient would not fit. The exponents of the
context are not bounded here.

# The drafts

A draft is built by its `postInit`, which raises what `__post_init__`
raises. A dictionary is the list of its items.
-/
import Mathlib.Data.Finset.Card
import Mathlib.Data.Prod.Lex
import MarketRegimeAlpha.Lib.Dict
import MarketRegimeAlpha.Lib.Quantize
import MarketRegimeAlpha.Outcome.Target

namespace MarketRegimeAlpha.Outcome

open Lib

/-- What the calculation raises. -/
inductive KernelError where
  | valueError (message : String)
  | assertionError
  | lookupError
  | invalidOperation

/-- `dict[key]`. -/
def getItem {ν : Type _} (dict : List (Nat × ν)) (key : Nat) :
    Except KernelError ν :=
  match dict.lookup key with
  | some value => .ok value
  | none => .error .lookupError

-- ==== the drafts

structure OutcomeObservationDraft where
  targetCheckpointId : Nat
  sourceKind : OutcomeSourceKind
  sourceFactId : Nat
  status : OutcomeStatus
  availabilityStatus : OutcomeAvailabilityStatus
  finalityStatus : OutcomeFinalityStatus
  (selectedValue openValue highValue lowValue closeValue : Option ℚ)
  (eventStart eventEnd knownAt : Instant)

variable (o : OutcomeObservationDraft)

def OutcomeObservationDraft.values : List (Option ℚ) :=
  [o.selectedValue, o.openValue, o.highValue, o.lowValue, o.closeValue]

def ohlcShape : List ℚ → Bool
  | [_, openValue, highValue, lowValue, closeValue] =>
    max (max openValue lowValue) closeValue ≤ highValue
      && lowValue ≤ min (min openValue highValue) closeValue
  | _ => false

def OutcomeStatus.emptyAvailability : OutcomeStatus → Option OutcomeAvailabilityStatus
  | .unavailable => some .unavailable
  | .failed => some .failed
  | .partialStatus => none
  | .complete => none

def OutcomeStatus.usable (status : OutcomeStatus) : Bool :=
  status = .complete || status = .partialStatus

def OutcomeObservationDraft.postInit : Except KernelError OutcomeObservationDraft := do
  Lib.require (o.eventStart < o.eventEnd ∧ o.eventEnd ≤ o.knownAt)
    (.valueError "Outcome observation temporal order is invalid")
  Lib.require (o.finalityStatus = .unknown)
    (.valueError "Outcome observation finality must be UNKNOWN")
  let shape := KernelError.valueError "Outcome observation state shape is invalid"
  if o.status.usable then
    Lib.require (o.sourceKind = .barRevision
      ∧ o.availabilityStatus = .available ∧ ∀ v ∈ o.values, v.isSome) shape
    let present := o.values.filterMap id
    Lib.require (∀ v ∈ present, 0 < v) shape
    Lib.require (ohlcShape present) shape
  else
    Lib.require (o.status.emptyAvailability = some o.availabilityStatus
      ∧ o.sourceKind = .sourceGap ∧ ∀ v ∈ o.values, v = none) shape
  return o

structure OutcomeMetricDraft where
  targetMetricDefinitionId : Nat
  ordinal : Int
  metricCode : String
  metricKind : OutcomeMetricKind
  valueType : OutcomeValueType
  unit : String
  completionRule : OutcomeCompletionRule
  status : OutcomeStatus
  availabilityStatus : OutcomeAvailabilityStatus
  finalityStatus : OutcomeFinalityStatus
  decimalValue : Option ℚ
  booleanValue : Option Bool
  firstPassageAt : Option Instant
  algorithm : AlgorithmIdentity
  targetMetricSha256 : String

variable (m : OutcomeMetricDraft)

def OutcomeMetricDraft.typedValue : Bool :=
  match m.valueType with
  | .decimal => m.decimalValue.isSome && m.booleanValue.isNone
  | .boolean => m.decimalValue.isNone && m.booleanValue.isSome

def OutcomeMetricDraft.postInit : Except KernelError OutcomeMetricDraft := do
  Lib.require (1 ≤ m.ordinal ∧ isCode m.metricCode)
    (.valueError "Outcome metric identity is invalid")
  Lib.require (m.algorithm.valid ∧ isSha256 m.targetMetricSha256)
    (.valueError "Outcome metric algorithm identity is invalid")
  Lib.require (m.finalityStatus = .unknown) (.valueError "Outcome metric finality must be UNKNOWN")
  let shape := KernelError.valueError "Outcome metric state shape is invalid"
  if m.status.usable then
    Lib.require (m.availabilityStatus = .available ∧ m.typedValue) shape
  else
    Lib.require (m.status.emptyAvailability = some m.availabilityStatus
      ∧ m.decimalValue = none ∧ m.booleanValue = none
      ∧ m.firstPassageAt = none) shape
  Lib.require (m.firstPassageAt = none ∨ m.metricKind = .barrierHit)
    (.valueError "Outcome metric first passage requires a barrier")
  return m

structure OutcomeReferenceDependencyDraft where
  (targetMetricDependencyId targetMetricDefinitionId targetCheckpointId : Nat)
  dependencyRole : OutcomeDependencyRole
  decisionReferenceObservationId : Nat

def OutcomeReferenceDependencyDraft.postInit (d : OutcomeReferenceDependencyDraft) :
    Except KernelError OutcomeReferenceDependencyDraft := do
  Lib.require (d.dependencyRole = .reference)
    (.valueError "Outcome REFERENCE dependency role is invalid")
  return d

structure OutcomeObservationDependencyDraft where
  (targetMetricDependencyId targetMetricDefinitionId targetCheckpointId : Nat)
  dependencyRole : OutcomeDependencyRole

def OutcomeObservationDependencyDraft.postInit (d : OutcomeObservationDependencyDraft) :
    Except KernelError OutcomeObservationDependencyDraft := do
  Lib.require (d.dependencyRole ∈ [.observation, .pathMember])
    (.valueError "Outcome observation dependency role is invalid")
  return d

structure OutcomeReasonDraft where
  ordinal : Int
  dimension : OutcomeReasonDimension
  reasonCode : String
  (targetCheckpointId targetMetricDefinitionId : Option Nat)

variable (r : OutcomeReasonDraft)

def OutcomeReasonDraft.validShape : Bool :=
  match r.dimension with
  | .revision => r.targetCheckpointId.isNone && r.targetMetricDefinitionId.isNone
  | .source | .observation => r.targetCheckpointId.isSome && r.targetMetricDefinitionId.isNone
  | .metric => r.targetMetricDefinitionId.isSome && r.targetCheckpointId.isNone

def OutcomeReasonDraft.postInit : Except KernelError OutcomeReasonDraft := do
  Lib.require (1 ≤ r.ordinal ∧ isReasonCode r.reasonCode)
    (.valueError "Outcome reason identity is invalid")
  Lib.require (r.validShape) (.valueError "Outcome reason dimension shape is invalid")
  return r

structure OutcomeRevisionDraft where
  targetDefinitionId : Nat
  targetDefinitionSha256 : String
  decisionReferenceObservationId : Nat
  (observationCutoff knowledgeCutoff : Instant)
  status : OutcomeStatus
  availabilityStatus : OutcomeAvailabilityStatus
  finalityStatus : OutcomeFinalityStatus
  sessions : List OutcomeSessionSource
  sources : List OutcomeObservationSource
  observations : List OutcomeObservationDraft
  metrics : List OutcomeMetricDraft
  referenceDependencies : List OutcomeReferenceDependencyDraft
  observationDependencies : List OutcomeObservationDependencyDraft
  reasons : List OutcomeReasonDraft

def OutcomeStatus.aggregateAvailability : OutcomeStatus → List OutcomeAvailabilityStatus
  | .complete => [.available]
  | .unavailable => [.unavailable]
  | .failed => [.failed]
  | .partialStatus => [.available, .unavailable]

def OutcomeRevisionDraft.postInit (r : OutcomeRevisionDraft) :
    Except KernelError OutcomeRevisionDraft := do
  Lib.require (isSha256 r.targetDefinitionSha256) (.valueError
    "Outcome Target definition hash must be a lowercase SHA-256")
  Lib.require (r.finalityStatus = .unknown)
    (.valueError "Outcome aggregate finality must be UNKNOWN")
  Lib.require (r.availabilityStatus ∈ r.status.aggregateAvailability)
    (.valueError "Outcome aggregate state shape is invalid")
  Lib.require (r.sessions ≠ [] ∧ r.sources ≠ [] ∧ r.observations ≠ []
      ∧ r.metrics ≠ [] ∧ (r.referenceDependencies ≠ [] ∨ r.observationDependencies ≠ []))
    (.valueError "Outcome revision requires complete non-empty fact rosters")
  Lib.require (r.sources.length = r.observations.length)
    (.valueError "Outcome source and observation rosters differ")
  Lib.require (r.metrics.map (·.ordinal) = ordinals r.metrics.length)
    (.valueError "Outcome metric roster must be ordered and contiguous")
  Lib.require (r.reasons = [] ∨ r.reasons.map (·.ordinal) = ordinals r.reasons.length)
    (.valueError "Outcome reason roster must be ordered and contiguous")
  return r

-- ==== the inputs

variable (combine : Int → Nat → String → Instant)

def validateSource (sessionByOffset : List (Int × OutcomeSessionSource))
    (observationCutoff knowledgeCutoff : Instant)
    (pair : OutcomeCheckpoint × OutcomeObservationSource) :
    Except KernelError Unit := do
  let (checkpoint, source) := pair
  let session ← match sessionByOffset.lookup checkpoint.sessionOffset with
    | some session => .ok session
    | none => .error KernelError.lookupError
  let expectedEnd := combine session.sessionDate checkpoint.localTime checkpoint.timezoneName
  Lib.require (source.scope.eventEnd = expectedEnd)
    (.valueError "Outcome source event_end differs from Target checkpoint")
  Lib.require (source.scope.eventEnd ≤ observationCutoff)
    (.valueError "Outcome source exceeds observation_cutoff")
  Lib.require (source.scope.knownAt ≤ knowledgeCutoff)
    (.valueError "Outcome source exceeds knowledge_cutoff")
  Lib.require (source.scope.sessionId = session.sessionId
      ∧ source.scope.timeframe = checkpoint.timeframe
      ∧ source.scope.priceBasis = checkpoint.priceBasis)
    (.valueError "Outcome source scope differs from Target/Session")

/-- `_validate_inputs`; `combine` is the instant of a date and a local
time in a time zone. -/
def validateInputs (target : OutcomeTargetDefinition)
    (sessions : List OutcomeSessionSource) (sources : List OutcomeObservationSource)
    (observationCutoff knowledgeCutoff : Instant) :
    Except KernelError Unit := do
  let sessionByOffset := dictOf (sessions.map fun item => (item.sessionOffset, item))
  Lib.require (sessionByOffset.length = sessions.length)
    (.valueError "Outcome Session offsets must be unique")
  Lib.require ((keys sessionByOffset).toFinset
      = (target.checkpoints.map (·.sessionOffset)).toFinset) (.valueError
    "Outcome Session roster does not match Target checkpoints")
  Lib.require (sources.length = target.checkpoints.length)
    (.valueError "Outcome source roster must cover every checkpoint")
  let sourceByCheckpoint := dictOf (sources.map fun item => (item.scope.targetCheckpointId, item))
  Lib.require (sourceByCheckpoint.length = sources.length ∧ (keys sourceByCheckpoint).toFinset
        = (target.checkpoints.map (·.targetCheckpointId)).toFinset)
    (.valueError "Outcome source/checkpoint roster mismatch")
  Lib.require (sources.map (·.scope.sourceOrdinal) = ordinals sources.length)
    (.valueError "Outcome source ordinals must be contiguous")
  let ordered ← target.checkpoints.mapM fun item =>
    getItem sourceByCheckpoint item.targetCheckpointId
  Lib.require (ordered = sources)
    (.valueError "Outcome sources must follow Target checkpoint order")
  sessions.forM fun session =>
    Lib.require (session.knownAt ≤ knowledgeCutoff)
      (.valueError "Outcome Session known_at exceeds knowledge_cutoff")
  (target.checkpoints.zip sources).forM <|
    validateSource combine sessionByOffset observationCutoff knowledgeCutoff
  Lib.require (sources = [] ∨ ((sources.map (·.scope.instrumentId)).toFinset.card = 1
        ∧ (sources.map (·.scope.providerProductId)).toFinset.card = 1))
    (.valueError "Outcome source roster crosses instrument/Product scope")

-- ==== the observations

def OutcomeBarSource.selected (source : OutcomeBarSource) : OutcomeValueField → ℚ
  | .openField => source.openValue
  | .highField => source.highValue
  | .lowField => source.lowValue
  | .closeField => source.closeValue

def OutcomeObservationSource.status : OutcomeObservationSource → OutcomeStatus
  | .bar _ => .complete
  | .gap source =>
    if source.gapKind ∈ [.missing, .placeholder] then .unavailable
    else .failed

variable (checkpoint : OutcomeCheckpoint)

/-- What `_observation` hands to the constructor. -/
def observationDraft : OutcomeObservationSource → OutcomeObservationDraft
  | .bar source =>
    { targetCheckpointId := source.targetCheckpointId
      sourceKind := .barRevision
      sourceFactId := source.barRevisionId
      status := .complete
      availabilityStatus := .available
      finalityStatus := .unknown
      selectedValue := some (source.selected checkpoint.valueField)
      openValue := some source.openValue
      highValue := some source.highValue
      lowValue := some source.lowValue
      closeValue := some source.closeValue
      eventStart := source.eventStart
      eventEnd := source.eventEnd
      knownAt := source.knownAt }
  | .gap source =>
    let status := (OutcomeObservationSource.gap source).status
    { targetCheckpointId := source.targetCheckpointId
      sourceKind := .sourceGap
      sourceFactId := source.gapId
      status := status
      availabilityStatus := if status = .unavailable then .unavailable else .failed
      finalityStatus := .unknown
      selectedValue := none
      openValue := none
      highValue := none
      lowValue := none
      closeValue := none
      eventStart := source.eventStart
      eventEnd := source.eventEnd
      knownAt := source.knownAt }

def observation (source : OutcomeObservationSource) : Except KernelError OutcomeObservationDraft :=
  (observationDraft checkpoint source).postInit

-- ==== the metrics

/-- The result of an operation in `_CONTEXT`. -/
def decimal (x : ℚ) : ℚ := roundSignificant 38 x

def ratio (value : ℚ) : Except KernelError ℚ := do
  let quantized := quantize halfEven (1 / 10 ^ 18) value
  Lib.require (|quantized| < 10 ^ 20) .invalidOperation
  return quantized

def asserted {α : Type _} : Option α → Except KernelError α
  | some value => .ok value
  | none => .error .assertionError

variable (values : List (Option ℚ))

def maxAsserted : Except KernelError ℚ := do
  let values ← values.mapM asserted
  match values with
  | [] => .error (.valueError "max() iterable argument is empty")
  | value :: rest => return rest.foldl max value

def minAsserted : Except KernelError ℚ := do
  let values ← values.mapM asserted
  match values with
  | [] => .error (.valueError "min() iterable argument is empty")
  | value :: rest => return rest.foldl min value

def barrierBoundary (reference : ℚ) (direction : OutcomeBarrierDirection) (threshold : ℚ) : ℚ :=
  match direction with
  | .up => decimal (reference * decimal (1 + threshold))
  | .down => decimal (reference * decimal (1 - threshold))

def crosses (direction : OutcomeBarrierDirection) (boundary : ℚ)
    (o : OutcomeObservationDraft) : Bool :=
  match direction with
  | .up => o.highValue.any fun high => boundary ≤ high
  | .down => o.lowValue.any fun low => low ≤ boundary

variable (definition : OutcomeMetricDefinition)

/-- The decimal, the boolean and the first passage of a metric whose
dependencies are all complete. -/
def metricValue (observations : List OutcomeObservationDraft) (referenceValue : Option ℚ) :
    Except KernelError (Option ℚ × Option Bool × Option Instant) :=
  match definition.metricKind with
  | .observationValue =>
    match observations with
    | first :: _ => return (first.selectedValue, none, none)
    | [] => .error .lookupError
  | .observationReturn =>
    match observations with
    | [first, last] => do
        Lib.require ((first.sourceFactId, first.eventStart, first.eventEnd)
            = (last.sourceFactId, last.eventStart, last.eventEnd))
          (.valueError "OBSERVATION_RETURN requires the same exact bar revision")
        let before ← asserted first.selectedValue
        let after ← asserted last.selectedValue
        let value ← ratio (decimal (decimal (after / before) - 1))
        return (some value, none, none)
    | _ => .error (.valueError "values to unpack")
  | .simpleReturn => do
      let reference ← asserted referenceValue
      match observations with
      | first :: _ => do
          let observed ← asserted first.selectedValue
          let value ← ratio (decimal (decimal (observed / reference) - 1))
          return (some value, none, none)
      | [] => .error .lookupError
  | .maxFavorableExcursion => do
      let reference ← asserted referenceValue
      let high ← maxAsserted (observations.map (·.highValue))
      let value ← ratio (max 0 (decimal (decimal (high / reference) - 1)))
      return (some value, none, none)
  | .maxAdverseExcursion => do
      let reference ← asserted referenceValue
      let low ← minAsserted (observations.map (·.lowValue))
      let value ← ratio (min 0 (decimal (decimal (low / reference) - 1)))
      return (some value, none, none)
  | .barrierHit => do
      let reference ← asserted referenceValue
      let direction ← asserted definition.barrierDirection
      let threshold ← asserted definition.barrierThreshold
      let boundary := barrierBoundary reference direction threshold
      let ordered := sortBy (·.eventEnd) observations
      let hits := ordered.filter (crosses direction boundary)
      return (none, some (hits ≠ []), hits.head?.map (·.eventEnd))

def referenceStatus (reference : FrozenDecisionReference) : OutcomeStatus :=
  match reference.valueStatus with
  | .present => .complete
  | .unavailable => .unavailable
  | .failed => .failed

/-- What `_metric_result` hands to the constructor. -/
def metricDraft (status : OutcomeStatus) (availability : OutcomeAvailabilityStatus)
    (value : Option ℚ × Option Bool × Option Instant) : OutcomeMetricDraft where
  targetMetricDefinitionId := definition.targetMetricDefinitionId
  ordinal := definition.ordinal
  metricCode := definition.metricCode
  metricKind := definition.metricKind
  valueType := definition.valueType
  unit := definition.unit
  completionRule := definition.completionRule
  status := status
  availabilityStatus := availability
  finalityStatus := .unknown
  decimalValue := value.1
  booleanValue := value.2.1
  firstPassageAt := value.2.2
  algorithm := definition.algorithm
  targetMetricSha256 := definition.contentSha256

def metricResult (status : OutcomeStatus)
    (availability : OutcomeAvailabilityStatus) (value : Option ℚ × Option Bool × Option Instant) :
    Except KernelError OutcomeMetricDraft :=
  (metricDraft definition status availability value).postInit

def emptyMetric (status : OutcomeStatus) : Except KernelError OutcomeMetricDraft :=
  metricResult definition status (if status = .unavailable then .unavailable else .failed)
    (none, none, none)

def dependencyStates (dependencies : List OutcomeMetricDependency)
    (observations : List OutcomeObservationDraft)
    (reference : FrozenDecisionReference) : List OutcomeStatus :=
  observations.map (·.status) ++ if dependencies.any (·.role = .reference) then
      [referenceStatus reference] else []

def metric (dependencies : List OutcomeMetricDependency)
    (observations : List (Nat × OutcomeObservationDraft)) (reference : FrozenDecisionReference) :
    Except KernelError OutcomeMetricDraft := do
  let dependencyObservations ← (dependencies.filter fun item =>
      item.role ∈ [.observation, .pathMember]).mapM fun item =>
    getItem observations item.targetCheckpointId
  let states := dependencyStates dependencies dependencyObservations reference
  if .failed ∈ states then emptyMetric definition .failed
  else if ∃ status ∈ states, status ≠ .complete then
    emptyMetric definition .unavailable
  else
    let value ← metricValue definition dependencyObservations reference.decimalValue
    metricResult definition .complete .available value

-- ==== the ambiguity

variable (target : OutcomeTargetDefinition)

def hitBarriers (metrics : List OutcomeMetricDraft) (direction : OutcomeBarrierDirection) :
    List OutcomeMetricDraft :=
  let definitionById :=
    dictOf (target.metrics.map fun item => (item.targetMetricDefinitionId, item))
  metrics.filter fun item => item.metricKind = .barrierHit
    && (definitionById.lookup item.targetMetricDefinitionId).bind
      (·.barrierDirection) = some direction
    && item.firstPassageAt.isSome

def applyBarrierAmbiguity (metrics : List OutcomeMetricDraft) :
    Except KernelError (List OutcomeMetricDraft × List Nat) := do
  let up := hitBarriers target metrics .up
  let down := hitBarriers target metrics .down
  match up.filterMap (·.firstPassageAt), down.filterMap (·.firstPassageAt) with
  | up₀ :: ups, down₀ :: downs =>
    let firstUp := ups.foldl min up₀
    let firstDown := downs.foldl min down₀
    if firstUp ≠ firstDown then return (metrics, [])
    else
      let affected : List Nat := ((up ++ down).filter fun item =>
        item.firstPassageAt = some firstUp).map (·.targetMetricDefinitionId)
      let replaced ← metrics.mapM fun item =>
        if item.targetMetricDefinitionId ∈ affected then
          OutcomeMetricDraft.postInit { item with status := .partialStatus }
        else .ok item
      return (replaced, sortBy uuidText affected.dedup)
  | _, _ => return (metrics, [])

-- ==== the reasons

abbrev ReasonValue := OutcomeReasonDimension × String × Option Nat × Option Nat

def reasonKey (r : ReasonValue) : String ×ₗ String ×ₗ String ×ₗ String :=
  toLex (r.1.text, toLex (r.2.1, toLex ((r.2.2.1.map uuidText).getD "",
    (r.2.2.2.map uuidText).getD "")))

variable (observations : List OutcomeObservationDraft)

def reasonValues (metrics : List OutcomeMetricDraft) (ambiguousMetricIds : List Nat) :
    List ReasonValue :=
  ((observations.filter (·.status ≠ .complete)).map fun o =>
      (.observation, "OBSERVATION_" ++ o.status.text, some o.targetCheckpointId, none))
    ++ ((metrics.filter (·.status ≠ .complete)).map fun m =>
      (.metric, "METRIC_" ++ m.status.text, none, some m.targetMetricDefinitionId))
    ++ ambiguousMetricIds.map fun id => (.metric, "INTRABAR_ORDERING_NOT_OBSERVABLE", none, some id)

def reasons (metrics : List OutcomeMetricDraft) (ambiguousMetricIds : List Nat) :
    Except KernelError (List OutcomeReasonDraft) :=
  let values := reasonValues observations metrics ambiguousMetricIds
  let ordered := sortBy reasonKey values.dedup
  (ordered.zipIdx 1).mapM fun (item, ordinal) =>
    OutcomeReasonDraft.postInit
      { ordinal := ordinal
        dimension := item.1
        reasonCode := item.2.1
        targetCheckpointId := item.2.2.1
        targetMetricDefinitionId := item.2.2.2 }

def rollUp (metrics : List OutcomeMetricDraft) : OutcomeStatus × OutcomeAvailabilityStatus :=
  let statuses := (metrics.filter (·.completionRule = .required)).map (·.status)
  if .failed ∈ statuses then (.failed, .failed)
  else if ∀ status ∈ statuses, status = .complete then (.complete, .available)
  else if ∀ status ∈ statuses, status = .unavailable then
    (.unavailable, .unavailable)
  else (.partialStatus,
    if .unavailable ∈ statuses then .unavailable else .available)

-- ==== the revision

def calculateMarketTargetOutcome (target : OutcomeTargetDefinition)
    (reference : FrozenDecisionReference)
    (sessions : List OutcomeSessionSource) (sources : List OutcomeObservationSource)
    (observationCutoff knowledgeCutoff : Instant) :
    Except KernelError OutcomeRevisionDraft := do
  validateInputs combine target sessions sources observationCutoff knowledgeCutoff
  let observations ← (target.checkpoints.zip sources).mapM fun pair => observation pair.1 pair.2
  let observationsByCheckpoint :=
    dictOf (observations.map fun item => (item.targetCheckpointId, item))
  let calculated ← target.metrics.mapM fun definition =>
    metric definition (dependenciesOf target.dependencies definition.targetMetricDefinitionId)
      observationsByCheckpoint reference
  let (metrics, ambiguityReasons) ← applyBarrierAmbiguity target calculated
  let referenceDependencies ← (target.dependencies.filter
      (·.role = .reference)).mapM fun item =>
    OutcomeReferenceDependencyDraft.postInit
      { targetMetricDependencyId := item.targetMetricDependencyId
        targetMetricDefinitionId := item.targetMetricDefinitionId
        targetCheckpointId := item.targetCheckpointId
        dependencyRole := item.role
        decisionReferenceObservationId := reference.decisionReferenceObservationId }
  let observationDependencies ← (target.dependencies.filter fun item =>
      item.role ∈ [.observation, .pathMember]).mapM fun item =>
    OutcomeObservationDependencyDraft.postInit
      { targetMetricDependencyId := item.targetMetricDependencyId
        targetMetricDefinitionId := item.targetMetricDefinitionId
        targetCheckpointId := item.targetCheckpointId
        dependencyRole := item.role }
  let reasons ← reasons observations metrics ambiguityReasons
  let (status, availability) := rollUp metrics
  OutcomeRevisionDraft.postInit
    { targetDefinitionId := target.targetDefinitionId
      targetDefinitionSha256 := target.contentSha256
      decisionReferenceObservationId := reference.decisionReferenceObservationId
      observationCutoff := observationCutoff
      knowledgeCutoff := knowledgeCutoff
      status := status
      availabilityStatus := availability
      finalityStatus := .unknown
      sessions := sessions
      sources := sources
      observations := observations
      metrics := metrics
      referenceDependencies := referenceDependencies
      observationDependencies := observationDependencies
      reasons := reasons }

end MarketRegimeAlpha.Outcome
