/-
The paired block bootstrap of the historical comparison.

# How it is translated

A fold is the number of its UUID, whose order is that of its text. The
stream of random starts is a `Random` source, from the state it is seeded
with. What a draw reports is a quotient of two sums over the days it has
resampled; `resample` is its loop over the folds and `draw` one draw. The
arithmetic is that of the context.
-/
import MarketRegimeAlpha.Lib.Arithmetic
import MarketRegimeAlpha.Lib.Dict
import MarketRegimeAlpha.Lib.OrderStat
import MarketRegimeAlpha.Lib.Resampling
import Mathlib.Data.Prod.Lex

namespace MarketRegimeAlpha.ResearchQualification

open Lib

-- ==== the days

/-- One declared day of a fold: its paired observations and the sum of their
absolute-error differences. -/
structure DailyPoint (K : Type _) where
  fold : Nat
  (date observations : Int)
  total : K

section Days

variable {K : Type _}

def DailyPoint.key (point : DailyPoint K) : Nat ×ₗ Int := toLex (point.fold, point.date)

variable (points : List (DailyPoint K))

/-- `folds`: the days of each fold in their order. -/
def dailyFolds : List (Nat × List (Int × K)) :=
  (groupBy (·.fold) (sortBy (·.key) points)).map fun (fold, members) =>
    (fold, members.map fun point => (point.observations, point.total))

def effectiveBlocks (folds : List (Nat × List (Int × K))) : Nat :=
  (folds.map fun fold => fold.2.length / 5).sum

def notEstimableReason (calendarVerified : Bool) : Option String :=
  let folds := dailyFolds points
  if ∃ point ∈ points, point.observations = 0 then some "EMPTY_COMMON_DAY"
  else if folds = [] ∨ effectiveBlocks folds < 10 ∨ ∃ fold ∈ folds, fold.2.length < 5 then
    some "INSUFFICIENT_TRADING_DAY_BLOCKS"
  else if ¬ calendarVerified then
    some "CONTIGUOUS_MARKET_CALENDAR_NOT_VERIFIED"
  else none

end Days

-- ==== the draws

def raiseSignal {α : Type _} : Except Signal α → Except Raised α
  | .ok value => .ok value
  | .error .divisionUndefined => .error (.arithmeticError "DivisionUndefined")
  | .error .divisionByZero => .error (.arithmeticError "DivisionByZero")
  | .error .negativeRoot => .error (.arithmeticError "InvalidOperation")

section Draws

variable {σ K : Type _} (source : Random σ)

/-- The days resampled from each fold, each draw as long as its fold. -/
def resample : List (Nat × List (Int × K)) → σ → Except Raised (List (List (Int × K)) × σ)
  | [], rng => .ok ([], rng)
  | (_, rows) :: folds, rng => do
      let (chosen, rng) ← fillBlocks source 4 rows [] rng
      let (sampled, rng) ← resample folds rng
      return (chosen.take rows.length :: sampled, rng)

variable [Field K] [LinearOrder K] (A : Arithmetic K)

def draw (folds : List (Nat × List (Int × K))) (rng : σ) : Except Raised (K × σ) := do
  let (sampled, rng) ← resample source folds rng
  let value ← raiseSignal (A.quotient (A.sum (sampled.flatten.map (·.2)))
    ((sampled.flatten.map (·.1)).sum : Int))
  return (value, rng)

def draws (folds : List (Nat × List (Int × K))) : Nat → σ → Except Raised (List K)
  | 0, _ => .ok []
  | count + 1, rng => do
      let (value, rng) ← draw source A folds rng
      let rest ← draws folds count rng
      return value :: rest

/-- What `paired_block_uncertainty` returns. -/
structure BlockUncertainty (K : Type _) where
  method : String
  (blockSessions draws seed minimumEffectiveBlocks : Nat)
  (confidenceLevel estimand state : String)
  (lower upper : Option K)
  (sessionCount effectiveBlockCount emptyCommonDayCount : Nat)
  reasonCode : String
  multipleTestingAdjustment : Option String

variable (points : List (DailyPoint K))

/-- `policy`, with the reason it is returned for. -/
def blockPolicy (reason : String) : BlockUncertainty K where
  method := "STRATIFIED_MOVING_BLOCK_PERCENTILE_V1"
  blockSessions := 5
  draws := 1000
  seed := 18
  minimumEffectiveBlocks := 10
  confidenceLevel := "0.95"
  estimand := "POOLED_COMMON_MAE_DELTA"
  state := "NOT_ESTIMABLE"
  lower := none
  upper := none
  sessionCount := points.length
  effectiveBlockCount := effectiveBlocks (dailyFolds points)
  emptyCommonDayCount := points.countP (·.observations = 0)
  reasonCode := reason
  multipleTestingAdjustment := none

def pairedBlockUncertainty (calendarVerified : Bool) : Except Raised (BlockUncertainty K) := do
  Lib.require ((points.map (·.key)).Nodup ∧ ∀ point ∈ points, 0 ≤ point.observations)
    (.valueError "block uncertainty requires unique complete finite daily inputs")
  match notEstimableReason points calendarVerified with
  | some reason => return blockPolicy points reason
  | none =>
    let values ← draws source A (dailyFolds points) 1000 (source.seeded 18)
    let ordered := sortBy id values
    return { blockPolicy points "PREDECLARED_BLOCK_RESAMPLING" with
      state := "DESCRIPTIVE_DEPENDENCE_AWARE_INTERVAL"
      lower := ordered[24]?
      upper := ordered[974]?
      multipleTestingAdjustment := some "NONE; ALL_CANDIDATES_REPORTED" }

end Draws

end MarketRegimeAlpha.ResearchQualification
