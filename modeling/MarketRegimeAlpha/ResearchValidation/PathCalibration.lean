/-
The partition of the observations of a path forecast calibration by trading date.

A date is the number of its day. Of an observation the references are left out, and
of the policy its identity. A split starts the validation at one of the trading dates
but the first; `fitOf` purges what ends on that date or later.
-/
import MarketRegimeAlpha.ResearchValidation.Calibration
import Mathlib.Data.List.MinMax

namespace MarketRegimeAlpha.ResearchValidation

open Lib

structure CalibrationPartitionPolicy where
  (minimumFitSamples minimumValidationSamples : Nat)
  fit_positive : 0 < minimumFitSamples
  validation_positive : 0 < minimumValidationSamples

structure ResolvedCalibrationObservation where
  (tradingDate labelEndDate : Int)
  observationId : String
  score : ℚ
  outcome : Int
  binary : outcome = 0 ∨ outcome = 1

def ResolvedCalibrationObservation.assigned (item : ResolvedCalibrationObservation)
    (partition : CalibrationPartition) : CalibrationObservation where
  observationId := item.observationId
  score := item.score
  outcome := item.outcome
  partition := partition
  binary := item.binary

section Partition

variable (values : List ResolvedCalibrationObservation) (policy : CalibrationPartitionPolicy)
  (validationStart : Int)

/-- `fit` of a split. -/
def fitOf : List ResolvedCalibrationObservation :=
  values.filter fun item => item.tradingDate < validationStart ∧ item.labelEndDate < validationStart

/-- `validation` of a split. -/
def validationOf : List ResolvedCalibrationObservation :=
  values.filter fun item => validationStart ≤ item.tradingDate

/-- Whether a split has the samples the policy asks for. -/
def FloorsMet : Prop :=
  policy.minimumFitSamples ≤ (fitOf values validationStart).length
    ∧ policy.minimumValidationSamples ≤ (validationOf values validationStart).length

instance (validationStart : Int) : Decidable (FloorsMet values policy validationStart) :=
  inferInstanceAs (Decidable (_ ∧ _))

/-- `abs(len(validation) - target_validation)` and `-len(fit)`. -/
def splitRank : Int ×ₗ Int :=
  toLex (|((validationOf values validationStart).length : Int)
    - max 1 (values.length / 5 : Nat)|, -((fitOf values validationStart).length : Int))

/-- `candidates`, each by its split date and index. -/
def splitCandidates : List (Int × Nat) :=
  ((sortedDistinct (values.map (·.tradingDate))).zipIdx.drop 1).filter fun split =>
    FloorsMet values policy split.1

local instance preorderInt : Preorder Int := Int.instLinearOrder.toPreorder

/-- `_partition_observations`, with its reason codes. -/
def partitionObservations : Option (List CalibrationObservation) × List String :=
  if (sortedDistinct (values.map (·.tradingDate))).length < 2 then
    (none, ["NOT_ESTIMABLE_TRADING_DATE_PARTITION"])
  else
    match (splitCandidates values policy).argmin fun split =>
        toLex (splitRank values split.1, split.2) with
    | none => (none, ["NOT_ESTIMABLE_LABEL_AWARE_PURGED_FIT",
        "NOT_ESTIMABLE_MINIMUM_FIT_OR_VALIDATION_SAMPLES"])
    | some (validationStart, _) =>
      (some ((fitOf values validationStart).map (·.assigned .fit)
          ++ (validationOf values validationStart).map (·.assigned .validation)),
        ["LABEL_AWARE_PURGE_APPLIED", "TRADING_DATE_PARTITION_APPLIED"])

end Partition

end MarketRegimeAlpha.ResearchValidation
