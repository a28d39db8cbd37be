/-
Point-in-time adjustment of closes by the corporate actions in effect.

# The numbers

A float is the rational it stands for and the arithmetic is exact, so that
every number is finite. The closes and the timestamps are two columns of one
frame. An action that is not a `CorporateAction`, or whose effective time is
no timestamp, is not a value of the types here.
-/
import MarketRegimeAlpha.DividendT.Chan
import MarketRegimeAlpha.Lib.Checked
import MarketRegimeAlpha.Lib.OrderStat

namespace MarketRegimeAlpha.DividendT

open Lib

structure CorporateAction where
  effectiveTime : Instant
  (shareFactor cashPerShare : ℚ)
  deriving DecidableEq

def CorporateAction.rebase (action : CorporateAction) (value : ℚ) : ℚ :=
  (value - action.cashPerShare) / action.shareFactor

/-- One action of the loop of `_point_in_time_adjusted_closes`. -/
def applyAction (timestamps : List Instant) (evaluationTime : Instant)
    (values : List ℚ) (action : CorporateAction) : Except Raised (List ℚ) := do
  if evaluationTime < action.effectiveTime then return values
  else
    Lib.require (0 < action.shareFactor)
      (.valueError "corporate action share factor must be finite and positive")
    Lib.require (0 ≤ action.cashPerShare) (.valueError
      "corporate action cash amount must be finite and non-negative")
    return List.zipWith (fun timestamp value =>
      if timestamp < action.effectiveTime then action.rebase value else value)
      timestamps values

def pointInTimeAdjustedCloses (rawCloses : List ℚ) (timestamps : List Instant)
    (actions : List CorporateAction) (evaluationTime : Instant) :
    Except Raised (List ℚ) := do
  let values ← (sortBy (·.effectiveTime) actions).foldlM
    (applyAction timestamps evaluationTime) rawCloses
  Lib.require (∀ value ∈ values, 0 < value)
    (.valueError "adjusted close must be finite and positive")
  return values

end MarketRegimeAlpha.DividendT
