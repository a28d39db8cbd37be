/-
The version 1 Backtest formulas that the validity statistics evaluate.

# What stands for what

A `Decimal` is the rational it spells; every operation under the context of
38 digits is rounded half-even (`decimal`), a sum term by term. `x ** 2` is
computed with three more digits and rounded again, and `sqrt` is the nearest
root. The exponents of the context are not bounded here.

Every observation is available and has its value, and all of them are in one
group, so a formula is evaluated on the values and, for the formulas on
pairs, the secondary values. The identifiers and hashes of the formula
definition, which the result does not read, are left out.
-/
import Mathlib.Data.Prod.Lex
import MarketRegimeAlpha.Lib.OrderStat
import MarketRegimeAlpha.Lib.Quantize

namespace MarketRegimeAlpha.ResearchQualification

open Lib

-- ==== the arithmetic

def decimalPrecision : Nat := 38

/-- An exact result in the context. -/
def decimal (x : ℚ) : ℚ := roundSignificant decimalPrecision x

variable (values : List ℚ)

def decimalSum : ℚ := sumContext decimalPrecision values

/-- `x ** 2`. -/
def square (x : ℚ) : ℚ := decimal (roundSignificant (decimalPrecision + 3) (x * x))

/-- `x.sqrt()`, of a number that is not negative. -/
def squareRoot (x : ℚ) : ℚ :=
  if x = 0 then 0
  else
    let unit := (10 : ℚ) ^ (Int.log 10 x / 2 + 1 - decimalPrecision)
    let scaled := x / (unit * unit)
    let root := Nat.sqrt ⌊scaled⌋₊
    let half := (root : ℚ) + 1 / 2
    if half * half < scaled ∨ (half * half = scaled ∧ root % 2 = 1) then
      (root + 1) * unit
    else root * unit

-- ==== the formulas

inductive BacktestFormulaCode where
  | mean
  | sampleStddev
  | icir
  | rankIc
  | predictiveBias
  | predictiveMae
  | predictiveRmse
  deriving DecidableEq

def BacktestFormulaCode.text : BacktestFormulaCode → String
  | .mean => "mean"
  | .sampleStddev => "sample_stddev"
  | .icir => "icir"
  | .rankIc => "rank_ic"
  | .predictiveBias => "predictive_bias"
  | .predictiveMae => "predictive_mae"
  | .predictiveRmse => "predictive_rmse"

/-- `FormulaEvaluationResult`: its state says whether there is a value. -/
structure FormulaEvaluationResult where
  decimalValue : Option ℚ
  estimableCount : Nat
  reasonCode : String

def estimated (value : ℚ) (count : Nat) : FormulaEvaluationResult :=
  ⟨some value, count, "ESTIMATED_BY_FROZEN_FORMULA"⟩

def notEstimable (reason : String) (count : Nat) : FormulaEvaluationResult := ⟨none, count, reason⟩

def mean : ℚ := decimal (decimalSum values / values.length)

def sampleStd : Option ℚ :=
  if values.length < 2 then none
  else
    let deviations := values.map fun item => square (decimal (item - mean values))
    some (squareRoot (decimal (decimalSum deviations / ((values.length - 1 : Nat) : ℚ))))

/-- The ranks of tied values, from a place in the order on. -/
def midranksFrom (cursor : Nat) : List (List (ℚ × Nat)) → List ℚ → List ℚ
  | [], ranks => ranks
  | tied :: rest, ranks =>
    let stop := cursor + tied.length
    let rank := decimal (decimal ((cursor : ℚ) + 1 + stop) / 2)
    midranksFrom stop rest (tied.foldl (fun ranks item => ranks.set item.2 rank) ranks)

def midranks : List ℚ :=
  let ordered := sortBy (fun item : ℚ × Nat => toLex (item.1, item.2)) values.zipIdx
  midranksFrom 0 (ordered.splitBy fun a b => a.1 == b.1) (List.replicate values.length 0)

variable (pairs : List (ℚ × ℚ))

def spearman : Option ℚ :=
  let left := midranks (pairs.map (·.1))
  let right := midranks (pairs.map (·.2))
  let products := (left.zip right).map fun (x, y) =>
    decimal (decimal (x - mean left) * decimal (y - mean right))
  let leftSum := decimalSum (left.map fun item => square (decimal (item - mean left)))
  let rightSum := decimalSum (right.map fun item => square (decimal (item - mean right)))
  let denominator := squareRoot (decimal (leftSum * rightSum))
  if denominator = 0 then none
  else some (decimal (decimalSum products / denominator))

/-- `_rank_ic`, of one group of at least the minimum of pairs. -/
def evaluateRankIc : FormulaEvaluationResult :=
  match spearman pairs with
  | none => notEstimable "NO_ESTIMABLE_RANK_GROUP" 0
  | some correlation => estimated (mean [correlation]) pairs.length

variable (code : BacktestFormulaCode)

def predictive (pairs : List (ℚ × ℚ)) : FormulaEvaluationResult :=
  if pairs = [] then notEstimable "NO_COMPLETE_FORECAST_OUTCOME_PAIR" 0
  else
    let errors := pairs.map fun (forecast, target) => decimal (forecast - target)
    match code with
    | .predictiveBias => estimated (mean errors) pairs.length
    | .predictiveMae => estimated (mean (errors.map fun item => decimal |item|)) pairs.length
    | _ => estimated (squareRoot (mean (errors.map fun item => decimal (item * item)))) pairs.length

/-- `_evaluate_v1`, with the least number of observations that the
definition of the formula sets. -/
def evaluateFormula (minimum : Nat) (values secondary : List ℚ) : FormulaEvaluationResult :=
  if values.length < minimum then
    notEstimable "INSUFFICIENT_OBSERVATIONS" values.length
  else
    match code with
    | .mean => estimated (mean values) values.length
    | .sampleStddev =>
      match sampleStd values with
      | none => notEstimable "INSUFFICIENT_OBSERVATIONS" values.length
      | some deviation => estimated deviation values.length
    | .icir =>
      match sampleStd values with
      | none => notEstimable "INSUFFICIENT_OBSERVATIONS" values.length
      | some deviation =>
        if deviation = 0 then notEstimable "ZERO_VARIANCE" values.length
        else
          estimated (decimal (mean values / deviation)) values.length
    | .rankIc => evaluateRankIc (values.zip secondary)
    | .predictiveBias => predictive code (values.zip secondary)
    | .predictiveMae => predictive code (values.zip secondary)
    | .predictiveRmse => predictive code (values.zip secondary)

end MarketRegimeAlpha.ResearchQualification
