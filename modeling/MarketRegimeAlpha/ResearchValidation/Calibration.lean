/-
The calibration of scores to probabilities: the fit by method, the predictor it
gives, and the evaluation of the predictor on the other partitions.

# How it is translated

A float is a rational, and so is the decimal made of its text; `exp` and `log`,
which leave the rationals, are the functions of a `Platform`. The bins of a fit
stand for the parameters their names are formatted from, and the identities and
hashes of the artifacts are left out.

# The loop of the isotonic fit

`pool` has a list of blocks and an index. Where the block there and the next one
are in order it goes on; where they are not it joins them and looks again at the
pair before. Each turn brings twice the number of blocks, less the index, down.
-/
import MarketRegimeAlpha.Lib.Checked
import MarketRegimeAlpha.Lib.Isotonic
import MarketRegimeAlpha.Lib.OrderStat
import Mathlib.Data.Prod.Lex
import Mathlib.Data.String.Basic

namespace MarketRegimeAlpha.ResearchValidation

open Lib List

-- ==== the observations

inductive CalibrationMethod where
  | plattLogistic
  | isotonic
  | binning
  deriving DecidableEq

inductive CalibrationPartition where
  | fit
  | validation
  | oos
  deriving DecidableEq

structure CalibrationObservation where
  observationId : String
  score : ℚ
  outcome : Int
  partition : CalibrationPartition
  binary : outcome = 0 ∨ outcome = 1

structure CalibrationProtocol where
  method : CalibrationMethod
  (binCount minimumFitSamples maximumIterations : Nat)
  learningRate : ℚ
  valid : 2 ≤ binCount ∧ 0 < minimumFitSamples ∧ 0 < maximumIterations ∧ 0 < learningRate

namespace Calibration

/-- The functions of `math` the calibration calls. -/
structure Platform where
  (exp log : ℚ → ℚ)

def fmean (values : List ℚ) : Except Raised ℚ :=
  if values = [] then .error (.valueError "fmean requires at least one data point")
  else .ok (values.sum / values.length)

abbrev Predictor : Type := ℚ → Except Raised ℚ

-- ==== the bins

structure Bin where
  (low high probability : ℚ)

def outcomeOf (item : ℚ × Int) : ℚ := item.2

/-- The bin of a block: its first and its last score, and its mean outcome. -/
def binOf (block : Block (ℚ × Int)) : Bin := ⟨block.first.1, block.last.1, block.mean outcomeOf⟩

variable (values : List (ℚ × Int))

def equalCountBins (count : Nat) : List Bin :=
  let width := max 1 ((values.length + count - 1) / count)
  (List.range' 0 ((values.length + width - 1) / width) width).filterMap fun start =>
    if h : (values.drop start).take width ≠ [] then some (binOf ⟨_, h⟩) else none

/-- The loop of `_isotonic_bins`. -/
def pool (blocks : List (Block (ℚ × Int))) (index : Nat) : List (Block (ℚ × Int)) :=
  if h : index + 1 < blocks.length then
    let block := blocks[index]
    let next := blocks[index + 1]
    if block.mean outcomeOf ≤ next.mean outcomeOf then pool blocks (index + 1)
    else
      pool (blocks.take index ++ block.join next :: blocks.drop (index + 2)) (index - 1)
  else blocks
termination_by 2 * blocks.length - index
decreasing_by
  · omega
  · rw [length_append, length_cons, length_take, length_drop]
    omega

def isotonicBins : List Bin :=
  (pool (values.map Block.single) 0).map binOf

def binPredict (value : ℚ) (bins : List Bin) : Except Raised ℚ :=
  match bins.find? fun bin => bin.low ≤ value ∧ value ≤ bin.high with
  | some bin => .ok bin.probability
  | none =>
    match bins.head?, bins.getLast? with
    | some first, some last =>
      if value < first.low then .ok first.probability else .ok last.probability
    | _, _ => .error (.lookupError "list index out of range")

-- ==== the fit

variable (platform : Platform)

def sigmoid (value : ℚ) : ℚ :=
  if 0 ≤ value then
    let z := platform.exp (-value)
    1 / (1 + z)
  else
    let z := platform.exp value
    z / (1 + z)

inductive Parameters where
  | logistic (intercept slope : ℚ)
  | bins (bins : List Bin)

def descend (rate : ℚ) (pairs : List (ℚ × Int)) (line : ℚ × ℚ) : Except Raised (ℚ × ℚ) := do
  let probability (value : ℚ) := sigmoid platform (line.1 * value + line.2)
  let slope ← fmean (pairs.map fun item => (probability item.1 - item.2) * item.1)
  let intercept ← fmean (pairs.map fun item => probability item.1 - item.2)
  return (line.1 - rate * slope, line.2 - rate * intercept)

/-- `sorted(zip(x, y, strict=True))`. -/
def ordered (observations : List CalibrationObservation) : List (ℚ × Int) :=
  sortBy toLex (observations.map fun item => (item.score, item.outcome))

def fitMethod (protocol : CalibrationProtocol) (observations : List CalibrationObservation) :
    Except Raised (Parameters × Predictor) :=
  match protocol.method with
  | .plattLogistic => do
      let pairs := observations.map fun item => (item.score, item.outcome)
      let (a, b) ← (List.range protocol.maximumIterations).foldlM
        (fun line _ => descend platform protocol.learningRate pairs line) (0, 0)
      return (.logistic b a, fun value => .ok (sigmoid platform (a * value + b)))
  | .binning =>
    let bins := equalCountBins (ordered observations) protocol.binCount
    return (.bins bins, fun value => binPredict value bins)
  | .isotonic =>
    let bins := isotonicBins (ordered observations)
    return (.bins bins, fun value => binPredict value bins)

-- ==== the evaluation

def logLoss (probabilities : List ℚ) (outcomes : List Int) : Except Raised ℚ :=
  let epsilon : ℚ := 1 / 10 ^ 15
  fmean ((probabilities.zip outcomes).map fun (p, y) =>
    -(y * platform.log (max epsilon (min (1 - epsilon) p))
      + (1 - y) * platform.log (max epsilon (min (1 - epsilon) (1 - p)))))

/-- A bucket of observations, as the evaluation reports it. -/
structure ReliabilityBin where
  (predicted observed : ℚ)
  count : Nat

variable (count : Nat)

/-- `min(count - 1, int(probability * count))`: `int` drops the fraction. -/
def bucketIndex (probability : ℚ) : Int :=
  min (count - 1) ((probability * count).num.tdiv (probability * count).den)

/-- The place of a list of `count` entries that an index names: a negative one
counts from the end. -/
def placeOf (index : Int) : Except Raised Nat :=
  if 0 ≤ index ∧ index < count then .ok index.toNat
  else if index < 0 ∧ -count ≤ index then .ok (index + count).toNat
  else .error (.lookupError "list index out of range")

/-- The loop of `_reliability_bins`. -/
def fillBuckets (pairs : List (ℚ × Int)) : Except Raised (List (List (ℚ × Int))) :=
  pairs.foldlM (fun buckets pair => do
    let place ← placeOf buckets.length (bucketIndex count pair.1)
    return buckets.modify place (· ++ [pair])) (List.replicate count [])

def reportOf (bucket : List (ℚ × Int)) : Except Raised ReliabilityBin := do
  let predicted ← fmean (bucket.map (·.1))
  let observed ← fmean (bucket.map outcomeOf)
  return ⟨predicted, observed, bucket.length⟩

def reliabilityBins (probabilities : List ℚ) (outcomes : List Int) (count : Nat) :
    Except Raised (List ReliabilityBin) := do
  Lib.require (probabilities.length = outcomes.length)
    (.valueError "zip() arguments differ in length")
  let buckets ← fillBuckets count (probabilities.zip outcomes)
  (buckets.filter (· ≠ [])).mapM reportOf

structure Scores where
  (brier logLoss reliability ece : ℚ)
  bins : List ReliabilityBin

/-- What `_evaluate` computes of the probabilities and the outcomes. -/
def scoresOf (probabilities : List ℚ) (outcomes : List Int) : Except Raised Scores := do
  let brier ← fmean ((probabilities.zip outcomes).map fun (p, y) => (p - y) ^ 2)
  let loss ← logLoss platform probabilities outcomes
  let bins ← reliabilityBins probabilities outcomes 10
  let ece := (bins.map fun bin =>
    (bin.count : ℚ) / outcomes.length * |bin.predicted - bin.observed|).sum
  let reliability := (bins.map fun bin =>
    (bin.count : ℚ) / outcomes.length * (bin.predicted - bin.observed) ^ 2).sum
  return ⟨brier, loss, reliability, ece, bins⟩

structure CalibrationEvaluation where
  partition : CalibrationPartition
  observationIds : List String
  scores : Scores
  coverage : ℚ
  unique : observationIds = sortedDistinct observationIds

def evaluate (partition : CalibrationPartition)
    (observations : List CalibrationObservation) (predict : Predictor) :
    Except Raised CalibrationEvaluation := do
  let probabilities ← observations.mapM fun item => predict item.score
  let scores ← scoresOf platform probabilities (observations.map (·.outcome))
  let ids := sortBy id (observations.map (·.observationId))
  if h : ids = sortedDistinct ids then return ⟨partition, ids, scores, 1, h⟩
  else .error (.valueError "Calibration evaluation observations must be unique")

-- ==== the artifact

structure CalibrationArtifact where
  fitObservationIds : List String
  parameters : Parameters
  trainingLoss : ℚ
  evaluations : List CalibrationEvaluation
  calibrated : Bool

def fitCalibration (protocol : CalibrationProtocol) (observations : List CalibrationObservation) :
    Except Raised CalibrationArtifact := do
  Lib.require (observations.map (·.observationId)).Nodup
    (.valueError "Calibration observations must be globally disjoint")
  let fit := observations.filter (·.partition = .fit)
  let validation := observations.filter (·.partition = .validation)
  let oos := observations.filter (·.partition = .oos)
  Lib.require (protocol.minimumFitSamples ≤ fit.length ∧ validation ≠ [])
    (.valueError "Calibration requires sufficient fit and separate validation data")
  let (parameters, predict) ← fitMethod platform protocol fit
  let predicted ← fit.mapM fun item => predict item.score
  let loss ← logLoss platform predicted (fit.map (·.outcome))
  let evaluations ← ([(CalibrationPartition.validation, validation), (.oos, oos)].filter
    (·.2 ≠ [])).mapM fun (partition, values) => evaluate platform partition values predict
  return {
    fitObservationIds := sortBy id (fit.map (·.observationId))
    parameters := parameters
    trainingLoss := loss
    evaluations := evaluations
    calibrated := false }

end Calibration

end MarketRegimeAlpha.ResearchValidation
