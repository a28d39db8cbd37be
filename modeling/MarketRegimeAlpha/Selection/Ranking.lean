/-
The ranking of Candidates: exact midrank percentiles, exact composite
scores, the boundary of the top K, and the projection of all of them to
decimals that keep their order.

# How it is translated

A dictionary is the list of its items, in insertion order, and
`dict[key]` is `item`, which raises. `build_candidate_set` is cut at its
own joints: `scoring` is its exact part, up to the scores;
`rankingProjectionInputs` to `projectPlan` its projection; `dispose` and
the two record functions its loop over the population; and
`candidateSetResult` its counts.
-/
import MarketRegimeAlpha.Lib.OrderStat
import MarketRegimeAlpha.Selection.Policy

namespace MarketRegimeAlpha.Selection

open Lib

-- ==== weights and percentiles

def normalizeDeclaredWeights (components : List CandidatePolicyComponent) : List (Nat × ℚ) :=
  let exact := components.map fun c => (c.candidatePolicyComponentId, c.declaredWeight.value)
  let total := (exact.map (·.2)).sum
  exact.map fun (identity, value) => (identity, value / total)

/-- An observation as more is better. -/
def orient (direction : DesirabilityDirection) (value : ℚ) : ℚ :=
  match direction with
  | .higherIsBetter => value
  | .lowerIsBetter => -value

def arithmeticMidrankPercentiles (observations : List (Nat × ℚ))
    (direction : DesirabilityDirection) : List (Nat × ℚ) :=
  let count := observations.length
  if count = 0 then []
  else if (observations.map (·.2)).dedup.length = 1 then
    observations.map fun (identity, _) => (identity, 1 / 2)
  else
    let oriented := observations.map fun (identity, value) => (identity, orient direction value)
    let values := oriented.map (·.2)
    oriented.map fun (identity, value) =>
      let worseCount := values.countP (· < value)
      let tiedCount := values.countP (· = value)
      (identity, ((worseCount : ℚ) + ((tiedCount : ℚ) - 1) / 2) / ((count : ℚ) - 1))

-- ==== the projection

def allowedProjectionPrecisions : List Nat := [64, 128, 256, 512, 1024, 2048, 4096]

def postgresMaxIntegerDigits : Int := 131072

def postgresMaxFractionalDigits : Int := 16383

/-- A decimal that a PostgreSQL `numeric` cannot hold. -/
def exceedsNumeric (d : Decimal) : Prop :=
  postgresMaxIntegerDigits < max (Decimal.digitCount d.coefficient + d.exponent) 0
    ∨ postgresMaxFractionalDigits < max (-d.exponent) 0

instance (d : Decimal) : Decidable (exceedsNumeric d) :=
  inferInstanceAs (Decidable (_ ∨ _))

def projectFraction (precision : Nat) (value : ℚ) :
    Except Raised Decimal := do
  let projected := Decimal.divide precision value.num value.den
  Lib.require (¬ exceedsNumeric projected) (.valueError
    ("Candidate Decimal projection exceeds PostgreSQL numeric physical " ++ "limits"))
  return projected

section Projection

variable {κ : Type}

def projectItems (precision : Nat) (values : List (κ × ℚ)) : Except Raised (List (κ × Decimal)) :=
  values.mapM fun (key, value) => do
    let projected ← projectFraction precision value
    return (key, projected)

/-- The loop of `project_exact_values`: double the precision until the
projection keeps the order, up to the maximum. -/
def projectLoop (values : List (κ × ℚ)) (maximum precision : Nat)
    (hpos : 0 < precision) (hle : precision ≤ maximum) :
    Except Raised (Nat × List (κ × Decimal)) :=
  match projectItems precision values with
  | .error raised => .error raised
  | .ok projected =>
    match (sortedDistinct (values.map (·.2))).mapM (projectFraction precision) with
    | .error raised => .error raised
    | .ok projectedOrder =>
      if increasing (projectedOrder.map Decimal.value) then
        .ok (precision, projected)
      else if hmax : precision = maximum then
        .error (.valueError ("Candidate Decimal projection cannot preserve exact order "
            ++ "at closed precision cap " ++ toString maximum))
      else
        projectLoop values maximum (min (precision * 2) maximum) (by omega) (by omega)
  termination_by maximum - precision

/-- The precision bounds `project_exact_values` takes. -/
def ValidBounds (minimum maximum : Nat) : Prop :=
  minimum ∈ allowedProjectionPrecisions ∧ maximum ∈ allowedProjectionPrecisions ∧ minimum ≤ maximum

instance (minimum maximum : Nat) : Decidable (ValidBounds minimum maximum) :=
  inferInstanceAs (Decidable (_ ∧ _))

theorem pos_of_allowed {precision : Nat}
    (h : precision ∈ allowedProjectionPrecisions) : 0 < precision := by
  revert h precision
  decide

def projectExactValues (values : List (κ × ℚ)) (minimum maximum : Nat) :
    Except Raised (Nat × List (κ × Decimal)) :=
  if h : ValidBounds minimum maximum then
    projectLoop values maximum minimum (pos_of_allowed h.1) h.2.2
  else .error (.valueError "invalid Candidate Decimal projection precision bounds")

end Projection

-- ==== the exact scores

def validateCellValueType (cell : CandidatePopulationCell)
    (component : CandidatePolicyComponent) : Except Raised Unit :=
  if cell.status ≠ .available then .ok ()
  else
    match component.featureValueType, cell.value with
    | .decimal, some (.decimal _) => .ok ()
    | .decimal, _ => .error (.typeError
        "DECIMAL Candidate Features require Decimal values")
    | .integer, some (.integer _) => .ok ()
    | .integer, _ => .error (.typeError
        "INTEGER Candidate Features require integer values")

def exactCellValue (cell : Option CandidatePopulationCell) :
    Except Raised ℚ :=
  match cell with
  | none => .error (.lookupError "KeyError")
  | some cell =>
    match cell.status, cell.value with
    | .available, some value => .ok value.exact
    | _, _ => .error (.valueError
        "only AVAILABLE Candidate cells have exact values")

variable (components : List CandidatePolicyComponent)

/-- The checks of one row: no policy Feature is absent, and every
available value has the type its component declares. -/
def validateRow (row : CandidatePopulationRow) : Except Raised Unit := do
  let absent := (components.map (·.featureDefinitionId)).filter
    fun feature => (row.cell feature).isNone
  Lib.require (absent = []) (.valueError
    ("Candidate Dataset row is missing required Feature cells: "
      ++ ",".intercalate ((absent.insertionSort (· ≤ ·)).map uuidText)))
  components.forM fun component =>
    match row.cell component.featureDefinitionId with
    | none => .error (.lookupError "KeyError")
    | some cell => validateCellValueType cell component

variable (policy : CandidatePolicy)

/-- All policy cells of the row are available. -/
def completeCase (row : CandidatePopulationRow) : Bool :=
  policy.components.all fun component =>
    (row.cell component.featureDefinitionId).any (·.status == .available)

def rankableRows (dataset : CandidateDatasetPopulation) : List CandidatePopulationRow :=
  dataset.rows.filter (completeCase policy)

def componentStatus (rankableCount distinctCount : Nat) :
    CandidateRankingStatus :=
  if rankableCount = 0 then .notEstimable
  else if distinctCount = 1 then .constant
  else .available

def candidateSetStatus (diagnostics : List CandidateComponentDiagnostic) :
    CandidateRankingStatus :=
  if diagnostics.all (·.rankInformationStatus == .notEstimable) then
    .notEstimable
  else if diagnostics.any (·.rankInformationStatus == .available) then
    .available
  else .constant

def observations (rankable : List CandidatePopulationRow) (component : CandidatePolicyComponent) :
    Except Raised (List (Nat × ℚ)) :=
  rankable.mapM fun row => do
    let value ← exactCellValue (row.cell component.featureDefinitionId)
    return (row.instrumentId, value)

variable (dataset : CandidateDatasetPopulation)

def componentDiagnostic (rankable : List CandidatePopulationRow)
    (component : CandidatePolicyComponent) (observed : List (Nat × ℚ)) :
    CandidateComponentDiagnostic :=
  let allCells := dataset.rows.filterMap
    (·.cell component.featureDefinitionId)
  let statusCount := fun status => allCells.countP (·.status == status)
  let distinctCount := (observed.map (·.2)).dedup.length
  { candidatePolicyComponentId := component.candidatePolicyComponentId
    featureDefinitionId := component.featureDefinitionId
    observedCount := rankable.length
    distinctCount := distinctCount
    rawAvailableCount := statusCount .available
    availableButNotObservedCount := statusCount .available - rankable.length
    missingCount := statusCount .missing
    unknownCount := statusCount .unknown
    staleCount := statusCount .stale
    conflictCount := statusCount .conflict
    rankInformationStatus := componentStatus rankable.length distinctCount }

/-- The percentiles of one component, under the instrument and the
component, and its diagnostic. -/
def componentPercentiles (rankable : List CandidatePopulationRow)
    (component : CandidatePolicyComponent) :
    Except Raised (List ((Nat × Nat) × ℚ) × CandidateComponentDiagnostic) :=
  do
    let observed ← observations rankable component
    let percentiles := arithmeticMidrankPercentiles observed component.direction
    return (percentiles.map fun (instrumentId, value) =>
        ((instrumentId, component.candidatePolicyComponentId), value),
      componentDiagnostic dataset rankable component observed)

def rowContributions (weights : List (Nat × ℚ))
    (percentiles : List ((Nat × Nat) × ℚ)) (row : CandidatePopulationRow) :
    Except Raised (List ((Nat × Nat) × ℚ)) :=
  components.mapM fun component => do
    let key := (row.instrumentId, component.candidatePolicyComponentId)
    let weight ← item weights component.candidatePolicyComponentId
    let percentile ← item percentiles key
    return (key, weight * percentile)

structure Scoring where
  rankable : List CandidatePopulationRow
  weights : List (Nat × ℚ)
  (percentiles contributions : List ((Nat × Nat) × ℚ))
  scores : List (Nat × ℚ)
  diagnostics : List CandidateComponentDiagnostic

/-- `build_candidate_set` up to `exact_scores`. -/
def scoring (dataset : CandidateDatasetPopulation) : Except Raised Scoring := do
  dataset.rows.forM (validateRow policy.components)
  let rankable := rankableRows policy dataset
  let weights := normalizeDeclaredWeights policy.components
  let perComponent ← policy.components.mapM (componentPercentiles dataset rankable)
  let percentiles := (perComponent.map (·.1)).flatten
  let perRow ← rankable.mapM (rowContributions policy.components weights percentiles)
  return {
    rankable := rankable
    weights := weights
    percentiles := percentiles
    contributions := perRow.flatten
    scores := (rankable.zip perRow).map fun (row, contributions) =>
      (row.instrumentId, (contributions.map (·.2)).sum)
    diagnostics := perComponent.map (·.2) }

-- ==== the boundary

variable (scores : List (Nat × ℚ))

def betterCount (score : ℚ) : Nat := (scores.map (·.2)).countP (score < ·)

def exactRanks : List (Nat × Nat) :=
  scores.map fun (instrumentId, score) => (instrumentId, 1 + betterCount scores score)

def boundaryScore (requestedTopK : Nat) : Option ℚ :=
  if scores = [] then none
  else kthLargest requestedTopK (scores.map (·.2))

def selectedIds (boundary : Option ℚ) : List Nat :=
  match boundary with
  | none => []
  | some boundary => (scores.filter (boundary ≤ ·.2)).map (·.1)

def strictlyAboveBoundaryCount (boundary : Option ℚ) : Nat :=
  match boundary with
  | none => 0
  | some boundary => betterCount scores boundary

def boundaryGroupCount (boundary : Option ℚ) : Nat :=
  match boundary with
  | none => 0
  | some boundary => (scores.map (·.2)).countP (· = boundary)

def selectedReason (score : ℚ) (boundary : Option ℚ)
    (allRankableSelected boundaryTieExpanded : Bool) :
    Except Raised String :=
  match boundary with
  | none => .error (.valueError "selected Candidate requires a boundary")
  | some boundary =>
    if allRankableSelected then .ok "ALL_RANKABLE_SELECTED"
    else if boundary < score then .ok "ABOVE_BOUNDARY"
    else if boundaryTieExpanded then .ok "BOUNDARY_TIE_INCLUDED"
    else .ok "AT_BOUNDARY"

-- ==== the plan

inductive ProjectionKey where
  | score (instrumentId : Nat)
  | boundary
  | weight (componentId : Nat)
  | percentile (instrumentId componentId : Nat)
  | contribution (instrumentId componentId : Nat)
  deriving DecidableEq

def rankingProjectionInputs (boundary : Option ℚ) : List (ProjectionKey × ℚ) :=
  scores.map (fun (instrumentId, score) => (.score instrumentId, score))
    ++ boundary.toList.map fun boundary => (.boundary, boundary)

def projectRest (precision : Nat) (dataset : CandidateDatasetPopulation)
    (s : Scoring) : Except Raised (List (ProjectionKey × Decimal)) := do
  let weights ← projectItems precision ((if dataset.rows = [] then [] else s.weights).map
      fun (componentId, weight) => (ProjectionKey.weight componentId, weight))
  let percentiles ← projectItems precision (s.percentiles.map
    fun ((instrumentId, componentId), percentile) =>
      (ProjectionKey.percentile instrumentId componentId, percentile))
  let contributions ← projectItems precision (s.contributions.map
    fun ((instrumentId, componentId), contribution) =>
      (ProjectionKey.contribution instrumentId componentId, contribution))
  return weights ++ percentiles ++ contributions

/-- What the loop over the population reads. -/
structure Ranked where
  scoring : Scoring
  boundary : Option ℚ
  projected : List (ProjectionKey × Decimal)

/-- The disposition of a row, with its stored score, its rank and its
reason. -/
def dispose (r : Ranked) (row : CandidatePopulationRow) :
    Except Raised (CandidateDisposition × Option Decimal × Option Nat × String) :=
  let selected := selectedIds r.scoring.scores r.boundary
  if row.instrumentId ∉ r.scoring.rankable.map (·.instrumentId) then
    .ok (.unrankable, none, none, "STRICT_COMPLETE_CASE_REQUIRED_FEATURE_UNAVAILABLE")
  else do
    let score ← item r.projected (.score row.instrumentId)
    let rank ← item (exactRanks r.scoring.scores) row.instrumentId
    if row.instrumentId ∈ selected then
      let exact ← item r.scoring.scores row.instrumentId
      let reason ← selectedReason exact r.boundary (selected.length == r.scoring.rankable.length
          && r.scoring.rankable.length ≤ policy.requestedTopK)
        (policy.requestedTopK < selected.length)
      return (.selected, some score, some rank, reason)
    else
      return (.rankedNotSelected, some score, some rank, "BELOW_BOUNDARY")

def scoreComponentRecord (dataset : CandidateDatasetPopulation)
    (r : Ranked) (row : CandidatePopulationRow) (disposition : CandidateDisposition)
    (component : CandidatePolicyComponent) :
    Except Raised CandidateScoreComponentRecord := do
  let componentId := component.candidatePolicyComponentId
  let ranked := row.instrumentId ∈ r.scoring.rankable.map (·.instrumentId)
  match row.cell component.featureDefinitionId with
  | none => .error (.lookupError "KeyError")
  | some cell => do
      let weight ← item r.projected (.weight componentId)
      let percentile ← if ranked then
          (item r.projected (.percentile row.instrumentId componentId)).map some
        else pure none
      let contribution ← if ranked then
          (item r.projected (.contribution row.instrumentId componentId)).map some
        else pure none
      return {
        candidatePolicyId := policy.candidatePolicyId
        candidatePolicyComponentId := componentId
        featureDefinitionId := component.featureDefinitionId
        featureValueType := component.featureValueType
        datasetId := dataset.datasetId
        instrumentId := row.instrumentId
        rawStatus := cell.status
        rawDecimalValue :=
          match component.featureValueType, cell.value with
          | .decimal, some (.decimal value) => some value
          | _, _ => none
        rawIntegerValue :=
          match component.featureValueType, cell.value with
          | .integer, some (.integer value) => some value
          | _, _ => none
        rawReasonCode := cell.reasonCode
        normalizedWeight := weight
        percentile := percentile
        contribution := contribution
        candidateDisposition := disposition }

def rowRecords (dataset : CandidateDatasetPopulation) (r : Ranked) (row : CandidatePopulationRow) :
    Except Raised (CandidateRecord × List CandidateScoreComponentRecord) :=
  do
    let (disposition, score, rank, reason) ← dispose policy r row
    let components ← policy.components.mapM (scoreComponentRecord policy dataset r row disposition)
    return ({
      candidatePolicyId := policy.candidatePolicyId
      datasetId := dataset.datasetId
      instrumentId := row.instrumentId
      datasetPopulationSourceId := row.datasetPopulationSourceId
      disposition := disposition
      compositeScore := score
      competitionRank := rank
      reasonCode := reason }, components)

def candidateSetResult (dataset : CandidateDatasetPopulation)
    (precision : Nat) (r : Ranked) (scoreComponentCount : Nat) (storedBoundary : Option Decimal) :
    CandidateSetResult :=
  let scores := r.scoring.scores
  let rankableCount := r.scoring.rankable.length
  let selectedCount := (selectedIds scores r.boundary).length
  let groupCount := boundaryGroupCount scores r.boundary
  let withStatus := fun status => r.scoring.diagnostics.countP
    (·.rankInformationStatus == status)
  { candidatePolicyId := policy.candidatePolicyId
    datasetId := dataset.datasetId
    universeRevisionId := dataset.universeRevisionId
    eligibilityPolicyId := dataset.eligibilityPolicyId
    decimalProjectionPrecision := precision
    requestedTopK := policy.requestedTopK
    componentCount := policy.components.length
    populationCount := dataset.rows.length
    rankableCount := rankableCount
    unrankableCount := dataset.rows.length - rankableCount
    selectedCount := selectedCount
    rankedNotSelectedCount := rankableCount - selectedCount
    scoreComponentCount := scoreComponentCount
    availableComponentCount := withStatus .available
    constantComponentCount := withStatus .constant
    notEstimableComponentCount := withStatus .notEstimable
    rankingStatus := candidateSetStatus r.scoring.diagnostics
    compositeDistinctCount := (scores.map (·.2)).dedup.length
    boundaryScore := storedBoundary
    boundaryRank := r.boundary.map fun boundary => 1 + betterCount scores boundary
    strictlyAboveBoundaryCount := strictlyAboveBoundaryCount scores r.boundary
    boundaryGroupCount := groupCount
    selectedOverflowCount := selectedCount - policy.requestedTopK
    boundaryHasTie := 1 < groupCount
    boundaryTieExpanded := policy.requestedTopK < selectedCount }

def buildCandidateSet (dataset : CandidateDatasetPopulation)
    (minimumProjectionPrecision maximumProjectionPrecision : Nat) :
    Except Raised CandidateRankingPlan := do
  let s ← scoring policy dataset
  let boundary := boundaryScore s.scores policy.requestedTopK
  let (precision, ranking) ← projectExactValues (rankingProjectionInputs s.scores boundary)
    minimumProjectionPrecision maximumProjectionPrecision
  let rest ← projectRest precision dataset s
  let r : Ranked := ⟨s, boundary, ranking ++ rest⟩
  let records ← (dataset.rows.insertionSort
    (·.instrumentId ≤ ·.instrumentId)).mapM (rowRecords policy dataset r)
  let storedBoundary ← match boundary with
    | none => pure none
    | some _ => (item r.projected .boundary).map some
  return {
    candidateSet := candidateSetResult policy dataset precision r
      (records.map (·.2)).flatten.length storedBoundary
    candidates := records.map (·.1)
    scoreComponents := (records.map (·.2)).flatten
    componentDiagnostics := s.diagnostics }

end MarketRegimeAlpha.Selection
