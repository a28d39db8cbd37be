/-
The error metrics and the calibration of the validity statistics, over an
`Arithmetic`.

# Cells

A cell is what `_pair_metrics` says of the errors and of the calibration of
one population: a session, the pairs of all sessions, or those of a window. The
report of the errors is the part of the report of `validity_statistics` that
consists of such cells; in the context of 38 digits it is that part
(`errorReport_context`).
-/
import MarketRegimeAlpha.Lib.Arithmetic
import MarketRegimeAlpha.ResearchQualification.ValidityStatistics

namespace MarketRegimeAlpha.ResearchQualification

open Lib

-- ==== one cell

/-- `bias`, `mae`, `rmse`, `calibration_slope` and `calibration_intercept` of
`_pair_metrics`, with their denominator. -/
structure ErrorCell (K : Type _) where
  count : Nat
  (bias mae rmse slope intercept : Option K)

section Cells

variable {K : Type _} [Field K] [LinearOrder K] (A : Arithmetic K)

/-- `_mean`, of some values. -/
def roundedMean (values : List K) : K := A.round (A.sum values / values.length)

variable (pairs : List (K × K))

/-- `errors`, of `_predictive`. -/
def forecastErrors : List K :=
  pairs.map fun (forecast, target) => A.round (forecast - target)

/-- `_calibration`: the slope and the intercept, where they are estimable. -/
def calibrated : Option (K × K) :=
  if pairs.length < 3 then none
  else
    let xmean := A.round (A.sum (pairs.map (·.1)) / pairs.length)
    let ymean := A.round (A.sum (pairs.map (·.2)) / pairs.length)
    let xx := A.sum (pairs.map fun (x, _) => A.square (A.round (x - xmean)))
    if xx = 0 then none
    else
      let products := pairs.map fun (x, y) => A.round (A.round (x - xmean) * A.round (y - ymean))
      let slope := A.round (A.sum products / xx)
      some (slope, A.round (ymean - A.round (slope * xmean)))

/-- The errors and the calibration of `_pair_metrics`. -/
def errorCell : ErrorCell K :=
  let errors := forecastErrors A pairs
  let estimable (value : K) := if pairs = [] then none else some value
  { count := pairs.length
    bias := estimable (roundedMean A errors)
    mae := estimable (roundedMean A (errors.map fun item => A.round |item|))
    rmse := estimable (A.root (roundedMean A (errors.map fun item => A.round (item * item))))
    slope := (calibrated A pairs).map (·.1)
    intercept := (calibrated A pairs).map (·.2) }

def forecastPairs (K : Type _) [Field K] (role : ValidityPair → ℚ)
    (members : List ValidityPair) : List (K × K) :=
  members.map fun pair => ((role pair : K), (pair.label : K))

-- ==== the report

structure RoleCells (K : Type _) where
  (model baseline : ErrorCell K)

def roleCells (members : List ValidityPair) : RoleCells K where
  model := errorCell A (forecastPairs K (·.model) members)
  baseline := errorCell A (forecastPairs K (·.baseline) members)

/-- The cells of the report of `validity_statistics`. -/
structure ErrorReport (K : Type _) where
  perSession : List (RoleCells K)
  pooled : RoleCells K
  rolling : List (RoleCells K)

/-- `validity_statistics`, its cells. -/
def errorReport (pairs : List ValidityPair) (parameters : ValidityParameters)
    (sessionRoster : Option (List Session)) : Except Raised (ErrorReport K) := do
  validityChecks pairs parameters sessionRoster
  let sessions := rosterOf pairs sessionRoster
  let group := grouped pairs
  let width := parameters.rollingSessions.toNat
  return {
    perSession := sessions.map fun session => roleCells A (group session)
    pooled := roleCells A (sessions.flatMap group)
    rolling := sessions.zipIdx.map fun (_, index) =>
      roleCells A ((window width index sessions).flatMap group) }

end Cells

end MarketRegimeAlpha.ResearchQualification
