/-
Hypothetical closed episodes: the legs of an arm, grouped, priced at
their checkpoints and closed.

# What stands for what

A UUID is its number, whose order is that of its text. A timestamp is a
number of microseconds in UTC. A `Decimal` is the rational it spells,
and every operation under `localcontext` is rounded to the digits of the
policy (`roundSignificant`); the exponents of the context are not
bounded here. The content hash of a path, which nothing here reads, is
left out.
-/
import Mathlib.Data.Prod.Lex
import Mathlib.Data.String.Basic
import MarketRegimeAlpha.Lib.Dict
import MarketRegimeAlpha.Lib.OrderStat
import MarketRegimeAlpha.Lib.Quantize

namespace MarketRegimeAlpha.ResearchQualification

open Lib

/-- A timestamp, in microseconds. -/
abbrev Instant := Int

/-- What the calculation of a path raises. -/
inductive EpisodeError where
  | valueError (message : String)
  | invalidOperation
  deriving DecidableEq

def cent : ℚ := 1 / 100

-- ==== the policy

/-- An `EpisodePolicy` that its `__post_init__` accepts. The constants
of the contract are its only accepted values, and `decimal_precision` is
also the room that the quantized capital must fit in. -/
structure EpisodePolicy where
  (initialCapital buyFeeBps sellFeeBps : ℚ)
  decimalPrecision : Nat
  precision_bounds : 34 ≤ decimalPrecision ∧ decimalPrecision ≤ 100
  fees_nonneg : 0 ≤ buyFeeBps ∧ 0 ≤ sellFeeBps
  capital_pos : 0 < initialCapital
  capital_cents : initialCapital = quantize halfEven cent initialCapital
    ∧ initialCapital / cent < 10 ^ decimalPrecision

def EpisodePolicy.priceBasis (_ : EpisodePolicy) : String := "RAW_UNADJUSTED"

variable (policy : EpisodePolicy)

def EpisodePolicy.round (x : ℚ) : ℚ :=
  roundSignificant policy.decimalPrecision x

/-- `x.quantize(unit, rounding=rounding)` in the context of the policy,
which signals when the coefficient does not fit. -/
def EpisodePolicy.quantize (rounding : ℚ → Int) (unit x : ℚ) : Except EpisodeError ℚ := do
  Lib.require (|rounding (x / unit)| < 10 ^ policy.decimalPrecision) .invalidOperation
  return Lib.quantize rounding unit x

-- ==== the legs

inductive RiskStatus where
  | authorized
  | rejected
  | unknown
  | noAction
  deriving DecidableEq

/-- An `EpisodeLeg` that its `__post_init__` accepts: `opening_units` is
0 in every one. -/
structure EpisodeLeg where
  (observationId instrumentId : Nat)
  (episodeKey armKey foldKey : String)
  (decisionTime entryTime exitTime knowledgeCutoff outcomeKnownAt : Instant)
  proposedWeight : ℚ
  riskStatus : RiskStatus
  (entryPrice exitPrice : Option ℚ)
  (priceBasis availability : String)
  times : decisionTime < entryTime ∧ entryTime < exitTime
    ∧ exitTime ≤ outcomeKnownAt ∧ outcomeKnownAt ≤ knowledgeCutoff
  weight_fraction : 0 ≤ proposedWeight ∧ proposedWeight ≤ 1
  prices_pos : (∀ price ∈ entryPrice, 0 < price) ∧ ∀ price ∈ exitPrice, 0 < price

def EpisodeLeg.idle (leg : EpisodeLeg) : Prop :=
  leg.riskStatus ≠ .authorized ∨ leg.proposedWeight = 0

instance (leg : EpisodeLeg) : Decidable leg.idle :=
  inferInstanceAs (Decidable (_ ∨ _))

def EpisodeLeg.shape (leg : EpisodeLeg) : String × String × Instant × Instant × Instant :=
  (leg.armKey, leg.foldKey, leg.decisionTime, leg.entryTime, leg.exitTime)

-- ==== the results

structure EpisodeLegResult where
  observationId : Nat
  (units buyNotional sellNotional buyFee sellFee grossProfit netProfit : ℚ)
  deriving DecidableEq

inductive EpisodeReason where
  | episodeClosed
  | unsupportedOrMissingMarketFact
  | incompatiblePriceBasis
  | incompleteEntryExitPrice
  | insufficientCashForCosts
  | insufficientCashForExitCosts
  deriving DecidableEq

structure EpisodeResult where
  episodeKey : String
  observationIds : List Nat
  reason : EpisodeReason
  initialCash : ℚ
  (cashAfterEntry entryHoldings finalCash finalUnits buyNotional sellNotional fees grossReturn
    netReturn : Option ℚ)
  legs : List EpisodeLegResult
  deriving DecidableEq

-- ==== closing an episode

def EpisodeLegResult.none (observationId : Nat) : EpisodeLegResult :=
  { observationId, units := 0, buyNotional := 0, sellNotional := 0,
    buyFee := 0, sellFee := 0, grossProfit := 0, netProfit := 0 }

/-- The trade of a leg at its two prices: the body of the loop of
`_close_episode` from `units` on. -/
def tradeAt (leg : EpisodeLeg)
    (entryPrice exitPrice : ℚ) : Except EpisodeError EpisodeLegResult := do
  let units ← policy.quantize truncate (1 / 10 ^ 18)
    (policy.round (policy.round (policy.initialCapital * leg.proposedWeight) / entryPrice))
  let buy ← policy.quantize halfEven cent (policy.round (units * entryPrice))
  let sell ← policy.quantize halfEven cent (policy.round (units * exitPrice))
  let buyFee ← policy.quantize halfEven cent
    (policy.round (policy.round (buy * policy.buyFeeBps) / 10000))
  let sellFee ← policy.quantize halfEven cent
    (policy.round (policy.round (sell * policy.sellFeeBps) / 10000))
  return {
    observationId := leg.observationId
    units
    buyNotional := buy
    sellNotional := sell
    buyFee
    sellFee
    grossProfit := policy.round (sell - buy)
    netProfit := policy.round (policy.round (policy.round (sell - buy) - buyFee) - sellFee) }

/-- One turn of the loop of `_close_episode`: a trade, or the reason why
the episode stays incomplete. -/
def tradeLeg (leg : EpisodeLeg) : Except EpisodeError (Except EpisodeReason EpisodeLegResult) :=
  if leg.idle then
    return .ok (.none leg.observationId)
  else if leg.availability ≠ "AVAILABLE" then
    return .error .unsupportedOrMissingMarketFact
  else if leg.priceBasis ≠ policy.priceBasis then
    return .error .incompatiblePriceBasis
  else
    match leg.entryPrice, leg.exitPrice with
    | some entryPrice, some exitPrice => do
        return .ok (← tradeAt policy leg entryPrice exitPrice)
    | _, _ => return .error .incompleteEntryExitPrice

/-- The loop of `_close_episode`, which the first reason ends. -/
def tradeLegs (policy : EpisodePolicy) : List EpisodeLeg →
    Except EpisodeError (Except EpisodeReason (List EpisodeLegResult))
  | [] => return .ok []
  | leg :: legs => do
      match ← tradeLeg policy leg with
      | .error reason => return .error reason
      | .ok trade =>
        match ← tradeLegs policy legs with
        | .error reason => return .error reason
        | .ok trades => return .ok (trade :: trades)

def incomplete (episodeKey : String)
    (legs : List EpisodeLeg) (reason : EpisodeReason) : EpisodeResult :=
  { episodeKey, observationIds := legs.map (·.observationId), reason
    initialCash := policy.initialCapital
    cashAfterEntry := .none, entryHoldings := .none, finalCash := .none
    finalUnits := .none, buyNotional := .none, sellNotional := .none
    fees := .none, grossReturn := .none, netReturn := .none, legs := [] }

/-- `_close_episode` after its loop. -/
def settle (episodeKey : String) (legs : List EpisodeLeg) (trades : List EpisodeLegResult) :
    EpisodeResult :=
  let sum := fun (column : EpisodeLegResult → ℚ) =>
    sumContext policy.decimalPrecision (trades.map column)
  let buy := sum (·.buyNotional)
  let sell := sum (·.sellNotional)
  let buyFees := sum (·.buyFee)
  let fees := policy.round (buyFees + sum (·.sellFee))
  let cash := policy.round (policy.round (policy.initialCapital - buy) - buyFees)
  if cash < 0 then
    incomplete policy episodeKey legs .insufficientCashForCosts
  else
    let final := policy.round (policy.round (policy.round
      (policy.initialCapital + sell) - buy) - fees)
    if final < 0 then
      incomplete policy episodeKey legs .insufficientCashForExitCosts
    else
      { episodeKey, observationIds := legs.map (·.observationId)
        reason := .episodeClosed
        initialCash := policy.initialCapital
        cashAfterEntry := some cash
        entryHoldings := some buy
        finalCash := some final
        finalUnits := some 0
        buyNotional := some buy
        sellNotional := some sell
        fees := some fees
        grossReturn := some (policy.round (policy.round (sell - buy) / policy.initialCapital))
        netReturn := some (policy.round (policy.round (final - policy.initialCapital)
            / policy.initialCapital))
        legs := trades }

def closeEpisode (episodeKey : String)
    (legs : List EpisodeLeg) : Except EpisodeError EpisodeResult := do
  match ← tradeLegs policy legs with
  | .error reason => return incomplete policy episodeKey legs reason
  | .ok trades => return settle policy episodeKey legs trades

-- ==== the path

/-- One turn of the loop of `build_episode_path` over the groups. -/
def visitGroup (state : List (String × Instant) × List EpisodeResult)
    (first : EpisodeLeg) (group : List EpisodeLeg) :
    Except EpisodeError (List (String × Instant) × List EpisodeResult) := do
  Lib.require (∀ leg ∈ group, leg.shape = first.shape)
    (.valueError "episode must have one complete capital/time/fold roster")
  Lib.require (group.map (·.instrumentId)).Nodup
    (.valueError "duplicate instrument capital allocation")
  Lib.require (sumContext policy.decimalPrecision (group.map (·.proposedWeight)) ≤ 1)
    (.valueError "episode allocation exceeds initial capital")
  Lib.require (∀ last ∈ state.1.lookup first.armKey, last ≤ first.entryTime)
    (.valueError "overlapping episode capital occupation is unsupported")
  let result ← closeEpisode policy first.episodeKey (sortBy (·.instrumentId) group)
  return (setItem state.1 first.armKey first.exitTime, state.2 ++ [result])

/-- The legs of each key, none empty. -/
def groups (legs : List EpisodeLeg) : List (EpisodeLeg × List EpisodeLeg) :=
  (groupBy (·.episodeKey) legs).filterMap fun pair => pair.2.head?.map fun first => (first, pair.2)

def buildEpisodePath (legs : List EpisodeLeg) : Except EpisodeError (List EpisodeResult) := do
  Lib.require (legs ≠ [] ∧ (legs.map (·.observationId)).Nodup)
    (.valueError "episode observation roster must be nonempty and unique")
  let ordered := sortBy (fun group : EpisodeLeg × List EpisodeLeg =>
    toLex (group.1.decisionTime, group.1.episodeKey)) (groups legs)
  let (_, results) ← ordered.foldlM (fun state group =>
    visitGroup policy state group.1 group.2) ([], [])
  return results

end MarketRegimeAlpha.ResearchQualification
