/-
The protocol of a formal evaluation, and which observations it admits to which of
its windows.

# How it is translated

A date is the number of its day and a decimal a rational. The hypothesis specs
are the names of their metrics, the targets of the target protocol their ids, and
the content hash of the protocol and the texts that only it reads are left out. An
observation has the fields the admission reads.

# The admission

An observation goes to every window that contains its session and from which it is
not withheld. A window of a partition looks at the windows of the next partition of
its fold: an observation is withheld whose label does not end before the first of
them starts, or whose session is one of the last of the window (`embargoDates`).
-/
import Mathlib.Data.List.DropRight
import Mathlib.Data.Prod.Lex
import Mathlib.Data.String.Basic
import MarketRegimeAlpha.Lib.Checked
import MarketRegimeAlpha.Lib.OrderStat

namespace MarketRegimeAlpha.ResearchValidation

open Lib

-- ==== the windows

inductive EvaluationPartition where
  | train
  | validation
  | lockedOos
  deriving DecidableEq

def EvaluationPartition.value : EvaluationPartition → String
  | .train => "TRAIN"
  | .validation => "VALIDATION"
  | .lockedOos => "LOCKED_OOS"

def EvaluationPartition.order : EvaluationPartition → Nat
  | .train => 0
  | .validation => 1
  | .lockedOos => 2

structure EvaluationWindow where
  windowId : String
  partition : EvaluationPartition
  (startDate endDate fold : Int)
  forwards : startDate ≤ endDate
  numbered : 0 < fold
  deriving DecidableEq

variable (window : EvaluationWindow)

/-- `window.start_date <= day <= window.end_date`. -/
def EvaluationWindow.Contains (day : Int) : Prop :=
  window.startDate ≤ day ∧ day ≤ window.endDate

instance (window : EvaluationWindow) (day : Int) : Decidable (window.Contains day) :=
  inferInstanceAs (Decidable (_ ∧ _))

-- ==== the protocol

inductive MultipleTestingMethod where
  | bonferroni
  | holmBonferroni
  | benjaminiHochberg
  deriving DecidableEq

inductive MultipleTestingErrorRate where
  | fwer
  | fdr
  deriving DecidableEq

structure OutcomeTargetProtocol where
  sessionOffset : Nat
  targets : List String
  positive : 0 < sessionOffset

structure FormalEvaluationProtocol where
  protocolVersion : String
  windows : List EvaluationWindow
  embargoSessions : Nat
  (bootstrapIterations bootstrapBlockSessions : Int)
  confidenceLevel : ℚ
  multipleTestingMethod : MultipleTestingMethod
  multipleTestingErrorRate : MultipleTestingErrorRate
  hypothesisFamilyId : String
  hypothesisSpecs : List String
  topK : Int
  sensitivityReturnMultipliers : List ℚ

def formalEvaluationMetricNames : List String :=
  ["DRAWDOWN", "HIT_RATE", "IC", "ICIR", "INCREMENTAL_LIFT", "MAE", "MFE",
    "POSITIVE_IC_RATIO", "RANK_IC", "RETURN", "SPREAD", "TOP_K_RETURN", "TURNOVER"]

def validateFoldWindows (windows : List EvaluationWindow) : Except Raised Unit :=
  ((windows.map (·.fold)).dedup).forM fun fold => do
    let ofFold := windows.filter (·.fold = fold)
    Lib.require (∀ partition ∈ [EvaluationPartition.train, .validation, .lockedOos],
        partition ∈ ofFold.map (·.partition))
      (.valueError "each Evaluation fold requires Train, Validation, and Locked OOS")
    ofFold.forM fun left => ofFold.forM fun right =>
      Lib.require (¬ (left.windowId < right.windowId
          ∧ max left.startDate right.startDate ≤ min left.endDate right.endDate))
        (.valueError "Evaluation windows cannot overlap")

def deriveEmbargoSessions (targetProtocol : OutcomeTargetProtocol) :
    Except Raised Nat := do
  Lib.require (targetProtocol.targets ≠ []) (.valueError "Target Protocol requires targets")
  return targetProtocol.sessionOffset

structure ProtocolArguments where
  protocolVersion : String
  targetProtocol : OutcomeTargetProtocol
  windows : List EvaluationWindow
  (bootstrapIterations bootstrapBlockSessions : Int)
  confidenceLevel : ℚ
  multipleTestingMethod : MultipleTestingMethod
  multipleTestingErrorRate : MultipleTestingErrorRate
  hypothesisSpecs : List String
  hypothesisFamilyId : Option String
  topK : Int
  sensitivityReturnMultipliers : List ℚ

def windowKey : Int ×ₗ String ×ₗ Int :=
  toLex (window.fold, toLex (window.partition.value, window.startDate))

def FormalEvaluationProtocol.create (arguments : ProtocolArguments) :
    Except Raised FormalEvaluationProtocol := do
  let ordered := sortBy windowKey arguments.windows
  Lib.require (ordered ≠ [] ∧ (ordered.map (·.windowId)).Nodup)
    (.valueError "Formal Evaluation windows must be non-empty and unique")
  Lib.require (0 < arguments.confidenceLevel ∧ arguments.confidenceLevel < 1
      ∧ 0 < arguments.bootstrapIterations ∧ 0 < arguments.bootstrapBlockSessions
      ∧ 0 < arguments.topK)
    (.valueError "Formal Evaluation statistics configuration is invalid")
  let names := sortBy id arguments.hypothesisSpecs
  Lib.require (names = formalEvaluationMetricNames)
    (.valueError "Formal Evaluation requires one explicit spec per metric")
  Lib.require ((arguments.multipleTestingMethod = .benjaminiHochberg)
      ↔ arguments.multipleTestingErrorRate = .fdr)
    (.valueError "multiple-testing method and error-rate semantics disagree")
  let default := "ENGINEERING:" ++ arguments.protocolVersion
  let familyId := match arguments.hypothesisFamilyId with
    | some familyId => if familyId = "" then default else familyId
    | none => default
  let sensitivity := sortedDistinct arguments.sensitivityReturnMultipliers
  Lib.require (sensitivity ≠ [] ∧ (∀ value ∈ sensitivity, 0 < value) ∧ 1 ∈ sensitivity)
    (.valueError ("Formal Evaluation sensitivity requires positive multipliers "
      ++ "including baseline 1"))
  validateFoldWindows ordered
  let embargo ← deriveEmbargoSessions arguments.targetProtocol
  return {
    protocolVersion := arguments.protocolVersion
    windows := ordered
    embargoSessions := embargo
    bootstrapIterations := arguments.bootstrapIterations
    bootstrapBlockSessions := arguments.bootstrapBlockSessions
    confidenceLevel := arguments.confidenceLevel
    multipleTestingMethod := arguments.multipleTestingMethod
    multipleTestingErrorRate := arguments.multipleTestingErrorRate
    hypothesisFamilyId := familyId
    hypothesisSpecs := names
    topK := arguments.topK
    sensitivityReturnMultipliers := sensitivity }

-- ==== the admission

structure EvaluationObservation where
  observationId : String
  (sessionDate labelEndDate : Int)
  forwards : sessionDate ≤ labelEndDate

/-- `dates[-n:]`, which is all of them for zero. -/
def lastDates (n : Nat) (dates : List Int) : List Int := if n = 0 then dates else dates.rtake n

section Admission

variable (protocol : FormalEvaluationProtocol) (observations : List EvaluationObservation)
  (frozenTradingDates : List Int)

variable (window : EvaluationWindow)

def futureWindows : List EvaluationWindow :=
  protocol.windows.filter fun item => item.fold = window.fold
    ∧ item.partition.order = window.partition.order + 1

/-- The start of the first of them. -/
def boundary : Option Int :=
  ((futureWindows protocol window).map (·.startDate)).min?

/-- The sessions of a window: those of the calendar, or those observed. -/
def partitionDates : List Int :=
  if frozenTradingDates ≠ [] then frozenTradingDates.filter (window.Contains ·)
  else sortedDistinct ((observations.map (·.sessionDate)).filter (window.Contains ·))

/-- The last sessions of a window. -/
def embargoDates : List Int :=
  lastDates protocol.embargoSessions (partitionDates observations frozenTradingDates window)

variable (observation : EvaluationObservation)

/-- Whether an observation is kept out of a window that contains it. -/
def Withheld (window : EvaluationWindow) : Prop :=
  ∃ start ∈ boundary protocol window, start ≤ observation.labelEndDate
    ∨ observation.sessionDate ∈ embargoDates protocol observations frozenTradingDates window

instance (observation : EvaluationObservation) (window : EvaluationWindow) :
    Decidable (Withheld protocol observations frozenTradingDates observation window) :=
  match h : boundary protocol window with
  | none => isFalse (by
      rintro ⟨start, hstart, -⟩
      rw [h] at hstart
      cases hstart)
  | some start => decidable_of_iff (start ≤ observation.labelEndDate
      ∨ observation.sessionDate ∈ embargoDates protocol observations frozenTradingDates window) (by
      unfold Withheld
      rw [h]
      exact ⟨fun hheld => ⟨start, rfl, hheld⟩, fun ⟨_, heq, hheld⟩ =>
        Option.mem_some.mp heq ▸ hheld⟩)

def admissions : List EvaluationWindow :=
  (protocol.windows.filter (·.Contains observation.sessionDate)).filter fun window =>
    ¬ Withheld protocol observations frozenTradingDates observation window

def admitObservations :
    Except Raised (List (EvaluationObservation × EvaluationWindow) × List String) := do
  Lib.require (frozenTradingDates = sortedDistinct frozenTradingDates)
    (.valueError "Frozen Trading Calendar dates must be unique and sorted")
  Lib.require (frozenTradingDates ≠ [] → ∀ window ∈ protocol.windows,
      window.startDate ∈ frozenTradingDates ∧ window.endDate ∈ frozenTradingDates)
    (.valueError "Evaluation windows are outside the Frozen Trading Calendar")
  Lib.require (frozenTradingDates ≠ [] → ∀ item ∈ observations,
      item.sessionDate ∈ frozenTradingDates ∧ item.labelEndDate ∈ frozenTradingDates)
    (.valueError "Evaluation label interval is outside the Frozen Trading Calendar")
  let admitted := observations.flatMap fun observation =>
    (admissions protocol observations frozenTradingDates observation).map fun window =>
      (observation, window)
  let excluded := observations.filter fun observation =>
    admissions protocol observations frozenTradingDates observation = []
  return (admitted, (excluded.map (·.observationId)).dedup)

end Admission

end MarketRegimeAlpha.ResearchValidation
