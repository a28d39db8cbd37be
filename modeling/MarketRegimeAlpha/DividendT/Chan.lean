/-
Chan structure: bars without inclusions, the fractals among them and the
strokes between fractals.

# The numbers

A float is the rational it stands for, and its comparisons are exact. What
the code rounds goes through a `Rounding`: the result of a float
operation, `round(price, 3)` and `round(price_change, 5)`. All that the
model asks of them is that the first two keep the order, and that 0 and 1
are floats; `Rounding.exact` rounds nothing. The volumes, the strengths and the MACD areas of fractals
and strokes, which decide nothing here, are left out.
-/
import MarketRegimeAlpha.Lib.Checked
import MarketRegimeAlpha.Lib.OrderStat

namespace MarketRegimeAlpha.DividendT

open Lib

/-- A timestamp, in microseconds. -/
abbrev Instant := Int

structure Rounding where
  (float price percent : ℚ → ℚ)
  float_mono : Monotone float
  float_zero : float 0 = 0
  float_one : float 1 = 1
  price_mono : Monotone price

def Rounding.exact : Rounding where
  float := id
  price := id
  percent := id
  float_mono := monotone_id
  float_zero := rfl
  float_one := rfl
  price_mono := monotone_id

-- ==== the bars

/-- A row of the frame. -/
structure Bar where
  timestamp : Instant
  (openPrice high low close volume amount : ℚ)

structure Row extends Bar where
  (sourceStartIndex sourceEndIndex : Nat)

inductive Direction where
  | up
  | down
  deriving DecidableEq

def contains (previous bar : Row) : Bool :=
  (bar.high ≤ previous.high && previous.low ≤ bar.low)
    || (previous.high ≤ bar.high && bar.low ≤ previous.low)

variable (direction : Direction)

/-- `rows[-1]` after a bar in inclusion with it. -/
def merge (previous bar : Row) : Row :=
  { previous with
    timestamp := bar.timestamp
    high := if direction = .down then min previous.high bar.high
      else max previous.high bar.high
    low := if direction = .down then min previous.low bar.low
      else max previous.low bar.low
    close := bar.close
    volume := previous.volume + bar.volume
    amount := previous.amount + bar.amount
    sourceEndIndex := bar.sourceEndIndex }

def nextDirection (previous bar : Row) : Direction :=
  if previous.high < bar.high ∧ previous.low < bar.low then .up
  else if bar.high < previous.high ∧ bar.low < previous.low then .down
  else direction

/-- The loop of `_normalize_inclusions` from the bars on, where `previous`
is `rows[-1]`: the rows from there on. -/
def normalizeFrom (direction : Direction) (previous : Row) : List Row → List Row
  | [] => [previous]
  | bar :: bars =>
    if contains previous bar then
      normalizeFrom direction (merge direction previous bar) bars
    else
      previous :: normalizeFrom (nextDirection direction previous bar) bar bars

def normalizeInclusions (bars : List Bar) : List Row :=
  match bars.zipIdx.map fun (bar, index) =>
      { bar with sourceStartIndex := index, sourceEndIndex := index : Row } with
  | [] => []
  | first :: rest => normalizeFrom .up first rest

-- ==== the fractals

inductive FractalType where
  | top
  | bottom
  deriving DecidableEq

structure ChanFractal where
  index : Nat
  timestamp : Instant
  fractalType : FractalType
  (price high low : ℚ)

variable (previous current following : Row)

def isTop : Bool :=
  previous.high < current.high && following.high < current.high
    && previous.low < current.low && following.low < current.low

def isBottom : Bool :=
  current.low < previous.low && current.low < following.low
    && current.high < previous.high && current.high < following.high

variable (rounding : Rounding)

def fractalAt (index : Nat) (current : Row) (fractalType : FractalType) : ChanFractal :=
  { index
    timestamp := current.timestamp
    fractalType
    price := rounding.price (if fractalType = .top then current.high else current.low)
    high := rounding.price current.high
    low := rounding.price current.low }

/-- The loop of `_find_fractals` from `index` on, over the bars from the one
before. -/
def fractalsFrom (rounding : Rounding) (index : Nat) : List Row → List ChanFractal
  | previous :: current :: following :: rest =>
    let fractals := fractalsFrom rounding (index + 1) (current :: following :: rest)
    if isTop previous current following then
      fractalAt rounding index current .top :: fractals
    else if isBottom previous current following then
      fractalAt rounding index current .bottom :: fractals
    else fractals
  | _ => []

/-- `_find_fractals`: a frame without rows has no column to look up. -/
def findFractals (data : List Row) : Except Raised (List ChanFractal) := do
  Lib.require (data ≠ []) (.lookupError "volume")
  return fractalsFrom rounding 1 data

-- ==== the strokes

structure ChanStroke where
  (startIndex endIndex : Nat)
  (startTime endTime : Instant)
  direction : Direction
  (startPrice endPrice high low priceChangePct : ℚ)

def moreExtreme (candidate current : ChanFractal) : Bool :=
  if candidate.fractalType = .top then current.price < candidate.price
  else candidate.price < current.price

/-- `abs(end / start - 1.0) if start > 0 else 0.0`. -/
def priceChange (startPrice endPrice : ℚ) : ℚ :=
  if 0 < startPrice then
    |rounding.float (rounding.float (endPrice / startPrice) - 1)|
  else 0

def validStroke (minKlineGap : Int) (minPriceChange : ℚ) (first last : ChanFractal) : Bool :=
  minKlineGap ≤ |(last.index : Int) - first.index|
    && minPriceChange ≤ priceChange rounding first.price last.price

/-- The loop of `_build_strokes` over the fractals, where `previous` is
`accepted[-1]`: the accepted fractals from there on. -/
def acceptFrom (rounding : Rounding) (minKlineGap : Int) (minPriceChange : ℚ)
    (previous : ChanFractal) : List ChanFractal → List ChanFractal
  | [] => [previous]
  | fractal :: fractals =>
    let go := fun previous => acceptFrom rounding minKlineGap minPriceChange previous fractals
    if fractal.fractalType = previous.fractalType then
      if moreExtreme fractal previous then go fractal else go previous
    else if validStroke rounding minKlineGap minPriceChange previous fractal
    then previous :: go fractal
    else go previous

def accept (minKlineGap : Int) (minPriceChange : ℚ) : List ChanFractal → List ChanFractal
  | [] => []
  | first :: fractals => acceptFrom rounding minKlineGap minPriceChange first fractals

def strokeBetween (data : List Row) (first last : ChanFractal) : ChanStroke :=
  let lowIndex := min first.index last.index
  let highIndex := max first.index last.index
  let window := (data.take (highIndex + 1)).drop lowIndex
  { startIndex := first.index
    endIndex := last.index
    startTime := first.timestamp
    endTime := last.timestamp
    direction := if first.fractalType = .bottom ∧ last.fractalType = .top then .up else .down
    startPrice := first.price
    endPrice := last.price
    high := rounding.price (maxOr 0 (window.map (·.high)))
    low := rounding.price (-maxOr 0 (window.map (-·.low)))
    priceChangePct := rounding.percent (priceChange rounding first.price last.price) }

def buildStrokes (data : List Row)
    (fractals : List ChanFractal) (minKlineGap : Int) (minPriceChange : ℚ) :
    List ChanStroke :=
  let accepted := accept rounding minKlineGap minPriceChange fractals
  (accepted.zip accepted.tail).map fun pair => strokeBetween rounding data pair.1 pair.2

end MarketRegimeAlpha.DividendT
