/-
The daily research factors by their definitions, on a whole history.

# Windows

A history has one cell for each session, the last one newest, and a cell may be
missing. Each factor is of the last sessions of the history: the window is
complete when there are as many and none of their cells is missing, and without
a complete window there is no factor.

# Peers

The peers of an instrument are the members of the population whose window is
complete, itself among them if its own is. A factor relative to the peers takes
two of them.
-/
import MarketRegimeAlpha.Lib.Ranks
import MarketRegimeAlpha.ResearchQualification.HistoricalFeatures
import Mathlib.Analysis.Real.Sqrt

namespace MarketRegimeAlpha.ResearchQualification.HistoricalFeatures

open Lib

/-- The last `n` values of a history, if there are as many and none is
missing. -/
def completeWindow (n : Nat) (history : List (Option ℝ)) : Option (List ℝ) :=
  if n ≤ history.length then allPresent (history.rtake n) else none

noncomputable section

variable (values : List ℝ)

/-- The mean of some values. -/
def average : ℝ := values.sum / values.length

def sampleDeviation : ℝ :=
  √((values.map fun x => (x - average values) ^ 2).sum / ((values.length : ℝ) - 1))

def stepReturns : List ℝ := (values.zip values.tail).map fun (a, b) => b / a - 1

-- ==== of one instrument

section Histories

variable (history : List (HistoricalDailyPoint ℝ))

def intradayReturn : Option ℝ := do
  let point ← history.getLast?
  let opened ← point.rawOpen
  let closed ← point.rawClose
  return closed / opened - 1

/-- The return of the adjusted closes over `n` sessions. -/
def periodReturn (n : Nat) : Option ℝ :=
  (completeWindow (n + 1) (history.map (·.adjustedClose))).map fun window =>
    window.getLastD 0 / window.headD 0 - 1

/-- The sample deviation of `n` daily returns of the adjusted closes. -/
def volatility (n : Nat) : Option ℝ :=
  (completeWindow (n + 1) (history.map (·.adjustedClose))).map fun window =>
    sampleDeviation (stepReturns window)

end Histories

/-- The mean of the last five of twenty quantities to that of the twenty. -/
def meanRatio (quantities : List (Option ℝ)) : Option ℝ :=
  (completeWindow 20 quantities).bind fun window =>
    if window.sum = 0 then none
    else some (average (window.rtake 5) / average window - 1)

-- ==== of the peers

section Peers

variable (population : Population ℝ) (history : List (HistoricalDailyPoint ℝ))

def peerReturns (n : Nat) : List ℝ := population.filterMap fun member => periodReturn member.2 n

def peerRelative (n : Nat) : Option ℝ :=
  if 2 ≤ (peerReturns population n).length then
    (periodReturn history n).map (· - average (peerReturns population n))
  else none

/-- The rank of the return among the peers', from zero to one. -/
def crossSection (n : Nat) : Option ℝ :=
  if 2 ≤ (peerReturns population n).length then
    (periodReturn history n).map fun value =>
      (midrank ℝ (peerReturns population n) value - 1) / ((peerReturns population n).length - 1)
  else none

def definedFactor : String → Option ℝ
  | "intraday" => intradayReturn history
  | "return_1" => periodReturn history 1
  | "return_5" => periodReturn history 5
  | "return_20" => periodReturn history 20
  | "volatility_20" => volatility history 20
  | "volume_5_20" => meanRatio (history.map (·.volume))
  | "amount_5_20" => meanRatio (history.map (·.amount))
  | "peer_relative_5" => peerRelative population history 5
  | "peer_relative_20" => peerRelative population history 20
  | "cross_section_5" => crossSection population history 5
  | _ => none

end Peers

end

end MarketRegimeAlpha.ResearchQualification.HistoricalFeatures
