/-
The inference of a formal evaluation: the correction of the p-values of a family,
the moving-block bootstrap of a mean, and what is read off its draws.

# How it is translated

A decimal is a rational and the arithmetic is exact. The stream of random starts is
a `Random` source, from the state the seed puts it in. `adjustLoop` is the loop that
the two stepwise corrections share; it goes through the values as they are sorted,
each with its index and its rank, and writes to the place of the index.
-/
import Mathlib.Data.Rat.Floor
import MarketRegimeAlpha.Lib.OrderStat
import MarketRegimeAlpha.Lib.Resampling
import MarketRegimeAlpha.ResearchValidation.FormalEvaluation

namespace MarketRegimeAlpha.ResearchValidation

open Lib

-- ==== the correction

abbrev RankedValue : Type := (ℚ × Nat) × Nat

/-- The loop of a stepwise correction: what was `running` is joined with the scaled
value, and what is written comes of both. -/
def adjustLoop (join : ℚ → ℚ → ℚ) (scaled : ℚ → Nat → ℚ) (written : ℚ → ℚ → ℚ) :
    List RankedValue → ℚ → List ℚ → List ℚ
  | [], _, adjusted => adjusted
  | ((value, index), rank) :: rest, running, adjusted =>
    let running := join running (scaled value rank)
    adjustLoop join scaled written rest running (adjusted.set index (written value running))

variable (values : List ℚ)

/-- `sorted(enumerate(values), key=lambda item: item[1])`. -/
def orderedValues : List (ℚ × Nat) := sortBy (·.1) values.zipIdx

/-- `_adjust_p_values`, which is `adjust_multiple_testing` on a tuple. -/
def adjustPValues : MultipleTestingMethod → List ℚ
  | .bonferroni => values.map fun value => min 1 (value * values.length)
  | .holmBonferroni =>
    adjustLoop max (fun value rank => value * (values.length - rank : Nat))
      (fun _ running => min 1 running) ((orderedValues values).zipIdx) 0
      (List.replicate values.length 1)
  | .benjaminiHochberg =>
    adjustLoop min (fun value rank => value * values.length / rank)
      (fun value running => min 1 (max value running))
      ((orderedValues values).zipIdx 1).reverse 1 (List.replicate values.length 1)

-- ==== the draws

/-- `_mean`, of values that are not empty. -/
def mean : ℚ := values.sum / values.length

section Draws

variable {σ : Type _} (source : Random σ)

/-- The block from `start` on, which goes around the end of the values. -/
def wrappedBlock (blockSessions : Nat) (values : List ℚ) (start : Nat) : List ℚ :=
  (List.range blockSessions).map fun offset => values.getD ((start + offset) % values.length) 0

def sampleBlocks {blockSessions : Nat} (hblock : 0 < blockSessions)
    (values sampled : List ℚ) (rng : σ) : Except Raised (List ℚ × σ) :=
  if values.length ≤ sampled.length then .ok (sampled, rng)
  else
    match source.randrange rng values.length with
    | .error raised => .error raised
    | .ok (start, rng) => sampleBlocks hblock values
        (sampled ++ wrappedBlock blockSessions values start) rng
termination_by values.length - sampled.length
decreasing_by
  unfold wrappedBlock
  rw [List.length_append, List.length_map, List.length_range]
  omega

def meanDraws {blockSessions : Nat} (hblock : 0 < blockSessions) (values : List ℚ) :
    Nat → σ → Except Raised (List ℚ)
  | 0, _ => .ok []
  | iterations + 1, rng => do
      let (sampled, rng) ← sampleBlocks source hblock values [] rng
      let draws ← meanDraws hblock values iterations rng
      return mean (sampled.take values.length) :: draws

variable (values : List ℚ)

def movingBlockMeanDraws (iterations blockSessions : Nat) (rng : σ) : Except Raised (List ℚ) := do
  if h : values ≠ [] ∧ 0 < iterations ∧ 0 < blockSessions then
    Lib.require (blockSessions ≤ values.length)
      (.valueError "moving-block length exceeds the observation count")
    meanDraws source h.2.2 values iterations rng
  else throw (.valueError "moving-block mean diagnostic dimensions are invalid")

/-- `_percentile_interval`, of a confidence between zero and one. -/
def percentileInterval (estimates : List ℚ) (confidence : ℚ) : Except Raised (ℚ × ℚ) :=
  let ordered := sortBy id estimates
  let alpha := (1 - confidence) / 2
  let low := ordered[min (ordered.length - 1) ⌊alpha * ordered.length⌋₊]?
  let high := ordered[min (ordered.length - 1) ⌊(1 - alpha) * ordered.length⌋₊]?
  match low, high with
  | some low, some high => .ok (low, high)
  | _, _ => .error (.lookupError "tuple index out of range")

def movingBlockMeanInterval (iterations blockSessions : Nat)
    (confidenceLevel : ℚ) (rng : σ) : Except Raised (ℚ × ℚ × ℚ) := do
  Lib.require (0 < confidenceLevel ∧ confidenceLevel < 1)
    (.valueError "moving-block confidence level must be within (0, 1)")
  let draws ← movingBlockMeanDraws source values iterations blockSessions rng
  let (lower, upper) ← percentileInterval draws confidenceLevel
  return (mean values, lower, upper)

inductive AlternativeHypothesis where
  | notApplicable
  | twoSided
  | greater
  | less
  deriving DecidableEq

def nullCenteredPValue (estimate : ℚ) (bootstrapEstimates : List ℚ) (nullValue : ℚ)
    (alternative : AlternativeHypothesis) : Except Raised ℚ := do
  let observed := estimate - nullValue
  let nullDraws := bootstrapEstimates.map (· - estimate)
  let extreme ← match alternative with
    | .twoSided => .ok (nullDraws.countP fun item => |observed| ≤ |item|)
    | .greater => .ok (nullDraws.countP fun item => observed ≤ item)
    | .less => .ok (nullDraws.countP fun item => item ≤ observed)
    | .notApplicable => .error (.valueError "hypothesis test requires a directional alternative")
  return ((extreme + 1 : Nat) : ℚ) / ((nullDraws.length + 1 : Nat) : ℚ)

def movingBlockMeanNullPValue (iterations blockSessions : Nat)
    (rng : σ) (nullValue : ℚ) (alternative : AlternativeHypothesis) :
    Except Raised ℚ := do
  let draws ← movingBlockMeanDraws source values iterations blockSessions rng
  nullCenteredPValue (mean values) draws nullValue alternative

end Draws

end MarketRegimeAlpha.ResearchValidation
