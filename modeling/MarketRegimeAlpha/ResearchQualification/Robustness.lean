/-
The robustness statistics: paired comparisons of the arms, day by day, and what
is left of each when one security is taken out.

# How it is translated

The dictionaries of sessions, instruments and arms are lists in their order. A
UUID is its number, whose order is that of its text. A comparison is first the
pairs of its two arms (`pairsOf`) and then the figures of these pairs
(`pairedFigures`), over an `Arithmetic`.

The figures are those of the errors and of the rank correlations. Of
`_diagnostics` there are its checks; the time slices and the intervals are left
out.
-/
import MarketRegimeAlpha.ResearchQualification.BlockBootstrap
import MarketRegimeAlpha.ResearchQualification.ErrorCells
import MarketRegimeAlpha.ResearchQualification.EvaluationFormula

namespace MarketRegimeAlpha.ResearchQualification

open Lib

-- ==== the points

structure HistoricalEvaluationPoint where
  (armId foldId sessionId : Nat)
  sessionDate : Session
  (instrumentId commitmentId : Nat)
  inputState : String
  forecastStatus : Option String
  labelStatus : String
  (prediction label : Option ℚ)

namespace HistoricalEvaluationPoint

variable (point : HistoricalEvaluationPoint)

/-- `key`, in the order that `keys` is sorted by. -/
def key : Session ×ₗ Nat :=
  toLex (point.sessionDate, point.instrumentId)

def labelled : Bool :=
  point.labelStatus ∈ ["COMPLETE", "PARTIAL"] && point.label.isSome

def estimable : Bool :=
  point.inputState = "INCLUDED" && point.forecastStatus = some "AVAILABLE"
    && point.labelStatus ∈ ["COMPLETE", "PARTIAL"] && point.prediction.isSome
    && point.label.isSome

end HistoricalEvaluationPoint

structure FoldSession where
  (foldId sessionId : Nat)
  day : Session
  deriving DecidableEq

abbrev Arm := Nat × String

-- ==== the pairs

section Pairs

variable (points : List HistoricalEvaluationPoint) (arm : Nat)

/-- `by_arm[identity].values()`. -/
def armRows : List HistoricalEvaluationPoint := points.filter (·.armId = arm)

/-- `eligible[identity]`. -/
def eligible : List (Session ×ₗ Nat) :=
  ((armRows points arm).filter (·.estimable)).map (·.key)

/-- `by_arm[identity][key]`. -/
def rowAt (key : Session ×ₗ Nat) : Except Raised HistoricalEvaluationPoint :=
  match (armRows points arm).find? (·.key = key) with
  | some point => .ok point
  | none => .error (.lookupError "KeyError")

def pairOf (point baseline : HistoricalEvaluationPoint) :
    Except Raised ValidityPair := do
  Lib.require (point.estimable ∧ baseline.estimable ∧ point.key = baseline.key
      ∧ point.label = baseline.label)
    (.valueError "historical diagnostics require an exact estimable pair")
  match point.prediction, baseline.prediction, point.label with
  | some model, some reference, some label => return {
      commitmentId := point.commitmentId
      session := point.sessionDate
      model
      baseline := reference
      label
      instrumentId := some point.instrumentId }
  | _, _, _ => .error (.assertionError "")

variable (left right : Nat)

def pairedKeys : List (Session ×ₗ Nat) :=
  sortBy id ((eligible points left).filter (· ∈ eligible points right))

/-- `_pair(left[key], right[key])`. -/
def pairAt (key : Session ×ₗ Nat) : Except Raised ValidityPair := do
  pairOf (← rowAt points left key) (← rowAt points right key)

def pairsOf : Except Raised (List ValidityPair) :=
  (pairedKeys points left right).mapM (pairAt points left right)

def commonKeys : List Arm → List (Session ×ₗ Nat)
  | [] => []
  | arm :: arms => (eligible points arm.1).filter fun key =>
    ∀ other ∈ arms, key ∈ eligible points other.1

end Pairs

variable (pairs : List ValidityPair)

def dailyPairs (day : Session) : List ValidityPair :=
  pairs.filter (·.session = day)

/-- `reduced`: the pairs of the other securities. -/
def withoutSecurity (instrument : Nat) : List ValidityPair :=
  pairs.filter (·.instrumentId ≠ some instrument)

-- ==== the figures

structure DailyRow (K : Type _) where
  foldId : Nat
  session : Session
  pairedObservations : Nat
  (maeDelta absoluteErrorDeltaSum modelRankIc referenceRankIc rankIcDelta : Option K)
  rankState : String

/-- What `_signs` returns. -/
structure DaySigns (K : Type _) where
  (positive negative zero : Nat)
  notEstimable : Int
  estimableDays : Nat
  (positiveFraction negativeFraction : Option K)

structure SensitivityRow (K : Type _) where
  (excludedInstrumentId removedObservations : Nat)
  removedAbsoluteErrorDeltaSum : K
  remainingObservations : Int
  (remainingMaeDelta remainingMeanDailyRankIcDelta : Option K)
  remainingEstimableIcDays : Nat
  deriving DecidableEq

structure PairedFigures (K : Type _) where
  pairedObservations : Nat
  perDay : List (DailyRow K)
  (maeDelta meanDailyRankIcDelta : Option K)
  (maeDaySigns icDaySigns : DaySigns K)
  leaveOneSecurityOut : List (SensitivityRow K)

/-- A comparison of `results`. -/
structure RobustnessComparison (K : Type _) extends PairedFigures K where
  (model reference : String)
  expectedObservations : Nat
  (modelOwnObservations referenceOwnObservations allArmCommonObservations : Nat)
  pairedPopulation : List (Session ×ₗ Nat)

structure RobustnessStatistics (K : Type _) where
  comparisons : List (RobustnessComparison K)
  (distinctValidationDays allArmCommonObservations : Nat)

def controls : List String := ["zero", "training_mean", "training_median"]

section Figures

variable {K : Type _} [Field K] [LinearOrder K] (A : Arithmetic K)

/-- `abs(p.model - p.label) - abs(p.baseline - p.label)`. -/
def absoluteErrorDelta (pair : ValidityPair) : K :=
  A.round (A.round |A.round ((pair.model : K) - (pair.label : K))|
    - A.round |A.round ((pair.baseline : K) - (pair.label : K))|)

/-- `_spearman` of three pairs or more. -/
def rankIc (role : ValidityPair → ℚ) (items : List ValidityPair) :
    Except Signal (Option K) :=
  if 3 ≤ items.length then
    EvaluationFormula.spearman A (forecastPairs K role items)
  else return none

/-- The difference of two correlations that are there. -/
def rankIcDelta : Option K → Option K → Option K
  | some left, some right => some (A.round (left - right))
  | _, _ => none

def meanOf (values : List K) : Option K :=
  if values = [] then none else some (A.round (A.sum values / values.length))

def signsOf (values : List K) (total : Nat) : DaySigns K :=
  let fraction (count : Nat) : Option K :=
    if values = [] then none else some (A.round ((count : K) / values.length))
  { positive := values.countP (0 < ·)
    negative := values.countP (· < 0)
    zero := values.countP (· = 0)
    notEstimable := (total : Int) - values.length
    estimableDays := values.length
    positiveFraction := fraction (values.countP (0 < ·))
    negativeFraction := fraction (values.countP (· < 0)) }

def dailyRow (session : FoldSession) (items : List ValidityPair) :
    Except Signal (DailyRow K) := do
  let total := A.sum (items.map (absoluteErrorDelta A))
  let left ← rankIc A (·.model) items
  let right ← rankIc A (·.baseline) items
  let delta := rankIcDelta A left right
  return {
    foldId := session.foldId
    session := session.day
    pairedObservations := items.length
    maeDelta := if items = [] then none
      else some (A.round (total / items.length))
    absoluteErrorDeltaSum := if items = [] then none else some total
    modelRankIc := left
    referenceRankIc := right
    rankIcDelta := delta
    rankState := if delta.isNone then "NOT_ESTIMABLE" else "DESCRIPTIVE" }

/-- What one more pair adds to `security`; the pairs of `_pair` name their
instrument. -/
def addSecurity (security : List (Nat × Nat × K)) (pair : ValidityPair) :
    List (Nat × Nat × K) :=
  match pair.instrumentId with
  | some instrument =>
    let account := (security.lookup instrument).getD (0, 0)
    setItem security instrument
      (account.1 + 1, A.round (account.2 + absoluteErrorDelta A pair))
  | none => security

variable (sessions : List FoldSession)

/-- `security`, after the loop over the sessions. -/
def securityOf (instruments : List Nat) (pairs : List ValidityPair) : List (Nat × Nat × K) :=
  sessions.foldl
    (fun security session => (dailyPairs pairs session.day).foldl (addSecurity A) security)
    (dictOf (instruments.map fun instrument => (instrument, (0, 0))))

/-- `a - b`, of the correlations of the pairs that are left of a day. -/
def rankDelta (reduced : List ValidityPair) : Except Signal (Option K) := do
  let left ← rankIc A (·.model) reduced
  let right ← rankIc A (·.baseline) reduced
  return rankIcDelta A left right

def rankDeltasWithout (pairs : List ValidityPair) (instrument : Nat) : Except Signal (List K) := do
  let deltas ← sessions.mapM fun session =>
    rankDelta A (withoutSecurity (dailyPairs pairs session.day) instrument)
  return deltas.reduceOption

def sensitivityRow (reference : String) (sessions : List FoldSession)
    (pairs : List ValidityPair) (security : List (Nat × Nat × K))
    (totalDelta : K) (instrument : Nat) : Except Signal (SensitivityRow K) := do
  let account := (security.lookup instrument).getD (0, 0)
  let remaining : Int := (pairs.length : Int) - account.1
  -- a control has no rank correlation to compare with
  let rankDeltas ← if reference ∈ controls then pure []
    else rankDeltasWithout A sessions pairs instrument
  return {
    excludedInstrumentId := instrument
    removedObservations := account.1
    removedAbsoluteErrorDeltaSum := account.2
    remainingObservations := remaining
    remainingMaeDelta := if remaining = 0 then none
      else some (A.round (A.round (totalDelta - account.2) / (remaining : K)))
    remainingMeanDailyRankIcDelta := meanOf A rankDeltas
    remainingEstimableIcDays := rankDeltas.length }

def pairedFigures (reference : String) (sessions : List FoldSession)
    (instruments : List Nat) (pairs : List ValidityPair) :
    Except Signal (PairedFigures K) := do
  let daily ← sessions.mapM fun session => dailyRow A session (dailyPairs pairs session.day)
  let security := securityOf A sessions instruments pairs
  let totalDelta := A.sum (sessions.map fun session =>
    A.sum ((dailyPairs pairs session.day).map (absoluteErrorDelta A)))
  let estimableMae := (daily.map (·.maeDelta)).reduceOption
  let estimableIc := (daily.map (·.rankIcDelta)).reduceOption
  let sensitivity ← (sortBy id instruments).mapM
    (sensitivityRow A reference sessions pairs security totalDelta)
  return {
    pairedObservations := pairs.length
    perDay := daily
    maeDelta := if pairs = [] then none
      else some (A.round (totalDelta / pairs.length))
    meanDailyRankIcDelta := meanOf A estimableIc
    maeDaySigns := signsOf A estimableMae sessions.length
    icDaySigns := signsOf A estimableIc sessions.length
    leaveOneSecurityOut := sensitivity }

-- ==== the statistics

def armNames (arms : List Arm) : List (String × Nat) := dictOf (arms.map fun arm => (arm.2, arm.1))

/-- `comparisons`: the model and the reference of each. -/
def comparisonNames (arms : List Arm) : List (String × String) :=
  let models := (arms.map (·.2)).filter (· ∉ controls)
  models.flatMap (fun name => controls.map fun control => (name, control))
    ++ (models.filter (· ≠ "ridge_v2")).map fun name => (name, "ridge_v2")

def diagnosticParameters : ValidityParameters := ⟨50, 1, 1, 1, 2⟩

def robustnessComparison (points : List HistoricalEvaluationPoint)
    (arms : List Arm) (sessions : List FoldSession) (instruments : List Nat)
    (names : String × String) : Except Raised (RobustnessComparison K) := do
  let left ← item (armNames arms) names.1
  let right ← item (armNames arms) names.2
  let pairs ← pairsOf points left right
  let figures ← raiseSignal
    (pairedFigures A names.2 sessions instruments pairs)
  validityChecks pairs diagnosticParameters (some (sessions.map (·.day)))
  return { figures with
    model := names.1
    reference := names.2
    expectedObservations := sessions.length * instruments.length
    modelOwnObservations := (eligible points left).length
    referenceOwnObservations := (eligible points right).length
    allArmCommonObservations := (commonKeys points arms).length
    pairedPopulation := pairedKeys points left right }

/-- The checks of `_statistics`. -/
def robustnessChecks (points : List HistoricalEvaluationPoint) (arms : List Arm)
    (sessions : List FoldSession) (instruments : List Nat) :
    Except Raised Unit := do
  Lib.require (∀ name ∈ controls ++ ["ridge_v2"], name ∈ arms.map (·.2))
    (.valueError
      "robustness v2 requires the frozen simple controls and original Ridge")
  Lib.require ((sessions.map (·.day)).Pairwise (· < ·))
    (.valueError
      "robustness cannot count repeated or unordered validation dates")
  Lib.require ((∀ point ∈ points, point.armId ∈ arms.map (·.1)
        ∧ point.instrumentId ∈ instruments
        ∧ FoldSession.mk point.foldId point.sessionId point.sessionDate ∈ sessions)
      ∧ (points.map fun point => (point.armId, point.key)).Nodup)
    (.valueError "robustness inputs have duplicate or undeclared identities")
  Lib.require (∀ point ∈ points, ∀ other ∈ points, point.labelled → other.labelled →
      point.key = other.key → point.label = other.label)
    (.valueError "robustness paired canonical labels conflict")

def robustnessStatistics (points : List HistoricalEvaluationPoint)
    (arms : List Arm) (sessions : List FoldSession) (instruments : List Nat) :
    Except Raised (RobustnessStatistics K) := do
  robustnessChecks points arms sessions instruments
  let comparisons ← (comparisonNames arms).mapM
    (robustnessComparison A points arms sessions instruments)
  return {
    comparisons
    distinctValidationDays := sessions.length
    allArmCommonObservations := (commonKeys points arms).length }

end Figures

end MarketRegimeAlpha.ResearchQualification
