/-
The ten daily research factors, and the bounded state they are computed from
session by session.

# How it is translated

A population is the list of the items of its dictionary, and so is the result of
each of its instruments. A UUID is its number, whose order is that of its text,
and a date the number of its day. The arithmetic is that of the context of 60
digits, with `quantize` for the final rounding of a cell. Every divisor is
positive: a price, a sum that is not zero, or a count; so no operation signals.

The formulas of the factors, which only their content hash reads, are left out.
-/
import Mathlib.Data.List.DropRight
import Mathlib.Data.Prod.Lex
import MarketRegimeAlpha.Lib.Arithmetic
import MarketRegimeAlpha.Lib.OrderStat

namespace MarketRegimeAlpha.ResearchQualification.HistoricalFeatures

open Lib

-- ==== the factors

inductive FactorGroup where
  | intraday
  | returns
  | volatility
  | activity
  | relative
  deriving DecidableEq

structure HistoricalFactor where
  name : String
  lookback : Nat
  group : FactorGroup
  basis : String
  deriving DecidableEq

/-- The factor of the return over `n` sessions. -/
def returnFactor (n : Nat) : HistoricalFactor :=
  ⟨"return_" ++ toString n, n, .returns, "BACKWARD_ADJUSTED"⟩

def factors : List HistoricalFactor :=
  [⟨"intraday", 0, .intraday, "RAW_UNADJUSTED"⟩, returnFactor 1, returnFactor 5, returnFactor 20,
    ⟨"volatility_20", 20, .volatility, "BACKWARD_ADJUSTED"⟩,
    ⟨"volume_5_20", 19, .activity, "RAW_UNADJUSTED"⟩,
    ⟨"amount_5_20", 19, .activity, "RAW_UNADJUSTED"⟩,
    ⟨"peer_relative_5", 5, .relative, "BACKWARD_ADJUSTED"⟩,
    ⟨"peer_relative_20", 20, .relative, "BACKWARD_ADJUSTED"⟩,
    ⟨"cross_section_5", 5, .relative, "BACKWARD_ADJUSTED"⟩]

/-- `name.startswith(..)`. -/
def startsWith (name start : String) : Bool := start.toList.isPrefixOf name.toList

/-- `name.endswith(..)`. -/
def endsWith (name ending : String) : Bool := ending.toList.isSuffixOf name.toList

-- ==== the points

def Priced {K : Type _} [Zero K] [LT K] (price : Option K) : Prop := ∀ value ∈ price, 0 < value

/-- A quantity that is there is not negative. -/
def Counted {K : Type _} [Zero K] [LE K] (quantity : Option K) : Prop :=
  ∀ value ∈ quantity, 0 ≤ value

@[ext] structure HistoricalDailyPoint (K : Type _) [Zero K] [LE K] [LT K] where
  sessionDate : Int
  (rawOpen rawClose adjustedClose volume amount : Option K)
  priced : Priced rawOpen ∧ Priced rawClose ∧ Priced adjustedClose
  counted : Counted volume ∧ Counted amount

structure HistoricalFactorValue (K : Type _) where
  value : Option K
  reason : String
  dependencies : List (Nat × Int)

/-- The instruments and their points. -/
abbrev Population (K : Type _) [Zero K] [LE K] [LT K] := List (Nat × List (HistoricalDailyPoint K))

/-- An arithmetic with `value.quantize(_QUANTUM)`. -/
structure FactorArithmetic (K : Type _) extends Arithmetic K where
  quantize : K → K

/-- `_CONTEXT`, with `_QUANTUM`. -/
def factorContext : FactorArithmetic ℚ where
  toArithmetic := (DecimalContext.mk 60 .roundHalfEven).arithmetic fun x _ => x
  quantize := Lib.quantize halfEven (1 / 10 ^ 12)

-- ==== the values

/-- The values, if all of them are there. -/
def allPresent {K : Type _} (values : List (Option K)) : Option (List K) :=
  if values.all Option.isSome then some values.reduceOption else none

section Values

variable {K : Type _} [Field K] [LinearOrder K] (A : FactorArithmetic K)

/-- `p.raw_close / p.raw_open - 1`. -/
def intradayValue (point : HistoricalDailyPoint K) : Option K :=
  match point.rawOpen, point.rawClose with
  | some opened, some closed => some (A.round (A.round (closed / opened) - 1))
  | _, _ => none

variable (exact : List K)

/-- `exact[-1] / exact[0] - 1`. -/
def returnValue : K := A.round (A.round (exact.getLastD 0 / exact.headD 0) - 1)

def dailyReturns : List K :=
  (exact.zip exact.tail).map fun (a, b) => A.round (A.round (b / a) - 1)

/-- The sample standard deviation of the daily returns. -/
def volatilityValue : K :=
  let returns := dailyReturns A exact
  let mean := A.round (A.sum returns / returns.length)
  A.root (A.round (A.sum (returns.map fun r => A.square (A.round (r - mean)))
    / ((returns.length - 1 : Nat) : K)))

/-- `4 * sum(exact[-5:]) / sum(exact) - 1`. -/
def activityValue : K :=
  A.round (A.round (A.round (4 * A.sum (exact.rtake 5)) / A.sum exact) - 1)

variable (factor : HistoricalFactor)

def ownValue (points : List (HistoricalDailyPoint K)) : Option K × String :=
  let window := points.rtake (factor.lookback + 1)
  if window.length = factor.lookback + 1 then
    if factor.name = "intraday" then
      (window.getLast?.bind (intradayValue A), "FEATURE_INPUT_MISSING")
    else if factor.group = .returns ∨ factor.group = .volatility then
      ((allPresent (window.map (·.adjustedClose))).map
        (if factor.group = .returns then returnValue A else volatilityValue A),
        "FEATURE_INPUT_MISSING")
    else
      match allPresent (window.map fun point =>
        if startsWith factor.name "volume" then point.volume else point.amount) with
      | none => (none, "FEATURE_INPUT_MISSING")
      | some exact =>
        if A.sum exact = 0 then (none, "FEATURE_ZERO_ACTIVITY_DENOMINATOR")
        else (some (activityValue A exact), "FEATURE_INPUT_MISSING")
  else (none, "FEATURE_WARMUP_INSUFFICIENT")

/-- `HistoricalFactorValue(..)` of an unrounded value. -/
def cell (value : Option K) (reason : String) (dependencies : List (Nat × Int)) :
    HistoricalFactorValue K where
  value := value.map A.quantize
  reason := if value.isNone then reason else "EXACT_HISTORICAL_FACTOR"
  dependencies

def ownCell (member : Nat × List (HistoricalDailyPoint K)) : HistoricalFactorValue K :=
  let own := ownValue A factor member.2
  cell A own.1 own.2 ((member.2.rtake (factor.lookback + 1)).map fun point =>
    (member.1, point.sessionDate))

/-- `unrounded_returns[(i, f"return_{n}")]`. -/
def unroundedReturn (n : Nat) (points : List (HistoricalDailyPoint K)) : Option K :=
  (ownValue A (returnFactor n) points).1

def peerSessions : Nat := if endsWith factor.name "20" then 20 else 5

/-- `valid`: the returns of the complete peers. -/
def validReturns (n : Nat) (population : Population K) : List K :=
  population.filterMap fun member => unroundedReturn A n member.2

local instance atLeastTwo : Nat.AtLeastTwo 2 := ⟨le_rfl⟩

def peerValue (valid : List K) (own : K) : K :=
  if startsWith factor.name "peer_relative" then
    A.round (own - A.round (A.sum valid / valid.length))
  else
    let less := valid.countP (· < own)
    let equal := valid.countP (· = own)
    A.round (A.round ((less : K) + A.round (((equal - 1 : Nat) : K) / 2))
      / ((valid.length - 1 : Nat) : K))

def relativeValue (population : Population K) (points : List (HistoricalDailyPoint K)) : Option K :=
  let n := peerSessions factor
  let valid := validReturns A n population
  if 2 ≤ valid.length then
    (unroundedReturn A n points).map (peerValue A factor valid)
  else none

def peerDependencies (n : Nat) (population : Population K) : List (Nat × Int) :=
  let all := population.flatMap fun member => (ownCell A (returnFactor n) member).dependencies
  (sortedDistinct (all.map fun dependency => (toLex dependency : Nat ×ₗ Int))).map
    fun dependency => ofLex dependency

def relativeCell (population : Population K)
    (member : Nat × List (HistoricalDailyPoint K)) : HistoricalFactorValue K :=
  let own := ownCell A (returnFactor (peerSessions factor)) member
  cell A (relativeValue A factor population member.2)
    (if own.value.isNone then own.reason else "FEATURE_PEER_POPULATION_INSUFFICIENT")
    (peerDependencies A (peerSessions factor) population)

-- ==== the computation

/-- The results: the values of the factors of each instrument. -/
abbrev Features (K : Type _) := List (Nat × List (String × HistoricalFactorValue K))

variable (population : Population K)

/-- `result[instrument][factor.name]`. -/
def factorCell (member : Nat × List (HistoricalDailyPoint K)) (factor : HistoricalFactor) :
    HistoricalFactorValue K :=
  if factor.group = .relative then relativeCell A factor population member
  else ownCell A factor member

/-- The values of the factors of an instrument. -/
def featuresOf (member : Nat × List (HistoricalDailyPoint K)) :
    List (String × HistoricalFactorValue K) :=
  factors.map fun factor => (factor.name, factorCell A population member factor)

variable (sessions : List Int)

def calculateHistoricalFeatures (population : Population K) : Except Raised (Features K) := do
  Lib.require (sessions ≠ [] ∧ sessions.length ≤ 21 ∧ sessions = sortedDistinct sessions)
    (.valueError "historical factors require 1..21 exact ordered Calendar sessions")
  Lib.require (∀ member ∈ population, member.2.map (·.sessionDate) = sessions)
    (.valueError ("each member must retain every exact Calendar session, "
      ++ "including missing bars"))
  return population.map fun member => (member.1, featuresOf A population member)

def appendHistoricalSession (population : Population K)
    (nextPoints : List (Nat × HistoricalDailyPoint K)) :
    Except Raised (List Int × Population K) := do
  Lib.require (nextPoints ≠ [] ∧ (∀ member ∈ population, member.1 ∈ nextPoints.map (·.1))
      ∧ ∀ next ∈ nextPoints, next.1 ∈ population.map (·.1))
    (.valueError "incremental factors require an unchanged explicit population")
  let dates := sortedDistinct (nextPoints.map (·.2.sessionDate))
  let day := dates.headD 0
  Lib.require (dates.length = 1 ∧ ∀ last ∈ sessions.getLast?, last < day)
    (.valueError "incremental factor session must be unique and strictly later")
  let updated := (sessions ++ [day]).rtake 21
  let points ← population.mapM fun member => do
    let next ← item nextPoints member.1
    return (member.1, (member.2 ++ [next]).rtake 21)
  -- the alignment is validated
  let _ ← calculateHistoricalFeatures A updated points
  return (updated, points)

end Values

end MarketRegimeAlpha.ResearchQualification.HistoricalFeatures
