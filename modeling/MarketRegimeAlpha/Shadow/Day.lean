/-
One day of the Shadow Portfolio.

# How it is translated

`run_shadow_portfolio_day` is cut at its joints. Its mutable locals are
`Trading`; its two loops are `sell` and `buy`, folded over the positions
that are held and the observations that are selected; `stateValues` is
what it computes after the last trade. The dictionaries are the lists of
their items, in insertion order.
-/
import MarketRegimeAlpha.Shadow.Portfolio

namespace MarketRegimeAlpha.Shadow

open Lib

-- ==== the selection

/-- The order of the ranking: scored first, then by score downwards,
then by symbol. -/
def rankKey (item : ShadowPortfolioMarketObservation) : Bool ×ₗ ℚ ×ₗ String :=
  toLex (item.score.isNone, toLex (-(item.score.getD 0), item.symbol))

/-- `selected`: the first of the ranking that have a score. -/
def selected (policy : ShadowPortfolioPolicy)
    (observations : List ShadowPortfolioMarketObservation) :
    List ShadowPortfolioMarketObservation :=
  ((sortBy rankKey observations).filter (·.score.isSome)).take policy.topK

def observationBySymbol (observations : List ShadowPortfolioMarketObservation) :
    List (String × ShadowPortfolioMarketObservation) :=
  dictOf (observations.map fun item => (item.symbol, item))

-- ==== the trades

structure Trading where
  cash : ℚ
  positions : List (String × ShadowPortfolioPosition)
  intents : List ShadowPortfolioOrderIntent
  fills : List ShadowPortfolioFill
  (realized costs : List (String × ℚ))
  tradedNotional : ℚ

def Trading.opening (portfolio : ShadowPortfolio)
    (previous : Option ShadowPortfolioDayState) : Trading where
  cash := match previous with
    | none => portfolio.initialCash
    | some previous => previous.cash
  positions := match previous with
    | none => []
    | some previous => dictOf (previous.positions.map fun item => (item.symbol, item))
  intents := []
  fills := []
  realized := []
  costs := []
  tradedNotional := 0

def Trading.record (state : Trading) (order : ShadowPortfolioOrderIntent)
    (filled : ShadowPortfolioFill) : Trading :=
  { state with
    intents := state.intents ++ [order]
    fills := state.fills ++ [filled]
    costs := setItem state.costs order.symbol
      ((state.costs.lookup order.symbol).getD 0 + filled.totalCost) }

def markedPosition (symbol : String) (quantity averageCost : ℚ)
    (openedOn : Day) (mark : ℚ) : ShadowPortfolioPosition where
  symbol := symbol
  quantity := quantity
  averageCost := averageCost
  openedOn := openedOn
  markPrice := mark
  marketValue := mark * quantity
  unrealizedPnl := (mark - averageCost) * quantity

def markOf (bySymbol : List (String × ShadowPortfolioMarketObservation))
    (symbol : String) (position : ShadowPortfolioPosition) : ℚ :=
  ((bySymbol.lookup symbol).bind (·.markPrice)).getD position.markPrice

/-- What may be traded of a symbol in a day: a share of its average daily
amount, in lots. -/
def capacityQuantity (observation : ShadowPortfolioMarketObservation)
    (policy : ShadowPortfolioPolicy) : ℚ :=
  match observation.averageDailyAmount, observation.referencePrice with
  | some averageDailyAmount, some referencePrice =>
    lotFloor (averageDailyAmount * policy.parameter "max_participation_rate"
      / referencePrice) policy.lotSize
  | _, _ => 0

section Sell

variable (policy : ShadowPortfolioPolicy) (tradingDate : Day)
  (bySymbol : List (String × ShadowPortfolioMarketObservation))

variable (symbol : String)

def sellCapacity : ℚ :=
  match bySymbol.lookup symbol with
  | none => 0
  | some observation => capacityQuantity observation policy

def sellIntent (position : ShadowPortfolioPosition) : ShadowPortfolioOrderIntent :=
  let observation := bySymbol.lookup symbol
  let reasons := sellRejections observation position tradingDate policy
  intent symbol .sell position.quantity (observation.bind (·.referencePrice))
    (if sellCapacity policy bySymbol symbol = 0 then
      sortedDistinct (reasons ++ ["ZERO_EXECUTABLE_LOT"])
    else reasons)

def sellFill (position : ShadowPortfolioPosition) : ShadowPortfolioFill :=
  fill (sellIntent policy tradingDate bySymbol symbol position) (bySymbol.lookup symbol) policy
    (some (sellCapacity policy bySymbol symbol))

/-- The locals after a sale at a price: the proceeds, what is realized,
and the position that remains, if any. -/
def Trading.afterSale (state : Trading) (symbol : String) (position : ShadowPortfolioPosition)
    (filled : ShadowPortfolioFill) (fillPrice : ℚ) : Trading :=
  let explicitExitCost := explicitCashCost filled.notional policy true
  let proceeds := filled.notional - explicitExitCost
  let remainingQuantity := position.quantity - filled.filledQuantity
  let mark := ((bySymbol.lookup symbol).bind (·.markPrice)).getD fillPrice
  { state with
    cash := state.cash + proceeds
    realized := setItem state.realized symbol
      ((fillPrice - position.averageCost) * filled.filledQuantity - explicitExitCost)
    tradedNotional := state.tradedNotional + filled.notional
    positions :=
      if remainingQuantity = 0 then delItem state.positions symbol
      else setItem state.positions symbol
        (markedPosition symbol remainingQuantity position.averageCost position.openedOn mark) }

def sell (selectedSymbols : List String) (state : Trading)
    (pair : String × ShadowPortfolioPosition) : Except Raised Trading :=
  if pair.1 ∈ selectedSymbols then .ok state
  else
    let order := sellIntent policy tradingDate bySymbol pair.1 pair.2
    let filled := sellFill policy tradingDate bySymbol pair.1 pair.2
    let state := state.record order filled
    if filled.status = .unfilled then .ok state
    else
      match filled.fillPrice with
      | none => .error (.assertionError "")
      | some fillPrice => .ok
          (state.afterSale policy bySymbol pair.1 pair.2 filled fillPrice)

end Sell

section Buy

variable (policy : ShadowPortfolioPolicy) (tradingDate : Day)

def intendedQuantity (targetValue : ℚ) (observation : ShadowPortfolioMarketObservation) : ℚ :=
  match observation.referencePrice with
  | none => 0
  | some referencePrice => lotFloor (targetValue / referencePrice) policy.lotSize

def affordableQuantity (cash : ℚ) (observation : ShadowPortfolioMarketObservation) : ℚ :=
  match observation.referencePrice with
  | none => 0
  | some referencePrice =>
    lotFloor (cash / (referencePrice * (1 + (policy.parameter "slippage_bps"
      + policy.parameter "impact_bps" + policy.parameter "commission_bps") / 10000))) policy.lotSize

variable (cash targetValue : ℚ)

def executableQuantity (observation : ShadowPortfolioMarketObservation) : ℚ :=
  min (min (intendedQuantity policy targetValue observation) (capacityQuantity observation policy))
    (affordableQuantity policy cash observation)

def buyIntent (observation : ShadowPortfolioMarketObservation) : ShadowPortfolioOrderIntent :=
  let intended := intendedQuantity policy targetValue observation
  let reasons := buyRejections observation policy
  let reasons :=
    if 0 < intended ∧ capacityQuantity observation policy = 0 then
      sortedDistinct (reasons ++ ["CAPACITY_ZERO"])
    else reasons
  intent observation.symbol .buy intended observation.referencePrice
    (if executableQuantity policy cash targetValue observation = 0 then
      sortedDistinct (reasons ++ ["ZERO_EXECUTABLE_LOT"])
    else reasons)

def buyFill (observation : ShadowPortfolioMarketObservation) : ShadowPortfolioFill :=
  fill (buyIntent policy cash targetValue observation) (some observation)
    policy (some (executableQuantity policy cash targetValue observation))

def Trading.afterPurchase (state : Trading) (observation : ShadowPortfolioMarketObservation)
    (filled : ShadowPortfolioFill) (fillPrice : ℚ) :
    Except Raised Trading := do
  let cashCost := explicitCashCost filled.notional policy false
  let cash := state.cash - (filled.notional + cashCost)
  Lib.require (¬ cash < 0) (.valueError "Shadow Portfolio fill exceeded available Cash")
  let mark := observation.markPrice.getD fillPrice
  let averageCost := (filled.notional + cashCost) / filled.filledQuantity
  return { state with
    cash := cash
    positions := setItem state.positions observation.symbol
      (markedPosition observation.symbol filled.filledQuantity averageCost tradingDate mark)
    tradedNotional := state.tradedNotional + filled.notional }

def buy (weights : List (String × ℚ)) (pretradeNav : ℚ) (state : Trading)
    (observation : ShadowPortfolioMarketObservation) :
    Except Raised Trading :=
  if (state.positions.lookup observation.symbol).isSome then .ok state
  else do
    let weight ← item weights observation.symbol
    let targetValue := pretradeNav * weight
    let order := buyIntent policy state.cash targetValue observation
    let filled := buyFill policy state.cash targetValue observation
    let state := state.record order filled
    if filled.status = .unfilled then return state
    else
      match filled.fillPrice with
      | none => .error (.assertionError "")
      | some fillPrice => state.afterPurchase policy tradingDate observation filled fillPrice

end Buy

-- ==== the day's end

/-- `pretrade_nav`: the cash and the positions at their marks. -/
def pretradeNav (bySymbol : List (String × ShadowPortfolioMarketObservation))
    (state : Trading) : ℚ :=
  state.cash + (state.positions.map fun (_, item) =>
    item.quantity * markOf bySymbol item.symbol item).sum

/-- `marked`: the positions at their marks, sorted. -/
def marked (bySymbol : List (String × ShadowPortfolioMarketObservation))
    (positions : List (String × ShadowPortfolioPosition)) :
    List ShadowPortfolioPosition :=
  (sortBy (·.1) positions).map fun (symbol, position) =>
    markedPosition symbol position.quantity position.averageCost
      position.openedOn (markOf bySymbol symbol position)

/-- `attribution`: one row for each symbol held or traded. -/
def attribution (marked : List ShadowPortfolioPosition) (state : Trading) :
    List ShadowPortfolioAttribution :=
  (sortedDistinct (keys state.costs ++ keys state.realized
      ++ marked.map (·.symbol))).map fun symbol =>
    let position := marked.find? (·.symbol = symbol)
    { symbol := symbol
      marketValue := (position.map (·.marketValue)).getD 0
      unrealizedPnl := (position.map (·.unrealizedPnl)).getD 0
      realizedPnl := (state.realized.lookup symbol).getD 0
      cost := (state.costs.lookup symbol).getD 0 }

variable (portfolio : ShadowPortfolio)

/-- `state_values`: what the day leaves after its last trade. -/
def stateValues (tradingDate : Day) (observations : List ShadowPortfolioMarketObservation)
    (previous : Option ShadowPortfolioDayState) (pretradeNav : ℚ)
    (state : Trading) (recordedAt : Instant) : StateValues :=
  let marked := marked (observationBySymbol observations) state.positions
  let marketValue := (marked.map (·.marketValue)).sum
  let nav := state.cash + marketValue
  let peakNav := max nav (match previous with
    | none => portfolio.initialCash
    | some previous => previous.peakNav)
  { portfolioReference :=
      ⟨"SHADOW_PORTFOLIO", portfolio.portfolioId, portfolio.portfolioHash⟩
    policyReference := portfolio.policyReference
    sequence := match previous with
      | none => 1
      | some previous => previous.sequence + 1
    tradingDate := tradingDate
    cash := state.cash
    positions := marked
    orderIntents := state.intents
    fills := state.fills
    nav := nav
    peakNav := peakNav
    grossExposure := if nav = 0 then 0 else marketValue / nav
    turnover := if pretradeNav = 0 then 0 else state.tradedNotional / pretradeNav
    drawdown := if peakNav = 0 then 0 else nav / peakNav - 1
    totalCost := (state.fills.map (·.totalCost)).sum
    attribution := attribution marked state
    sourceReferences := sortedReferences
      (portfolio.researchReference :: portfolio.candidateReference
        :: observations.flatMap (·.sourceReferences))
    recordedAt := recordedAt
    limitations := sortedDistinct (portfolio.limitations
      ++ ["SHADOW_ORDER_INTENT_NOT_ORDER", "NOT_REAL_FILL", "NOT_REAL_POSITION", "NO_BROKER"]) }

-- ==== the day

def checkPrevious (tradingDate : Day) : Option ShadowPortfolioDayState → Except Raised Unit
  | none => .ok ()
  | some previous => do
      Lib.require (previous.portfolioReference.artifactId = portfolio.portfolioId) (.valueError
        "previous Portfolio Shadow state belongs to another Portfolio")
      Lib.require (previous.tradingDate < tradingDate) (.valueError
        "Portfolio Shadow trading dates must increase")

def runShadowPortfolioDay (policy : ShadowPortfolioPolicy)
    (tradingDate : Day) (observations : List ShadowPortfolioMarketObservation)
    (previous : Option ShadowPortfolioDayState) (recordedAt : Instant) :
    Except Raised ShadowPortfolioDayState := do
  Lib.require (portfolio.policyReference.artifactId = policy.policyId
      ∧ portfolio.policyReference.contentHash = policy.policyHash)
    (.valueError "Shadow Portfolio Policy identity mismatch")
  Lib.require (observations ≠ [] ∧ observations.map (·.symbol)
      = sortedDistinct (observations.map (·.symbol))) (.valueError
    "Shadow Portfolio observations must be non-empty, unique, and sorted")
  checkPrevious portfolio tradingDate previous
  let bySymbol := observationBySymbol observations
  let selected := selected policy observations
  let weights ← weights selected policy.weightingMethod
  let opening := Trading.opening portfolio previous
  let sold ← (sortBy (·.1) opening.positions).foldlM
    (sell policy tradingDate bySymbol (selected.map (·.symbol))) opening
  let pretradeNav := pretradeNav bySymbol sold
  let bought ← selected.foldlM (buy policy tradingDate weights pretradeNav) sold
  ShadowPortfolioDayState.construct (stateValues portfolio tradingDate
    observations previous pretradeNav bought recordedAt)

structure DayInput where
  policy : ShadowPortfolioPolicy
  tradingDate : Day
  observations : List ShadowPortfolioMarketObservation
  recordedAt : Instant

/-- Days run one after the other, each from the state of the one
before. -/
def runDays (portfolio : ShadowPortfolio) : Option ShadowPortfolioDayState → List DayInput →
      Except Raised (List ShadowPortfolioDayState)
  | _, [] => .ok []
  | previous, day :: days => do
      let state ← runShadowPortfolioDay portfolio day.policy day.tradingDate
        day.observations previous day.recordedAt
      let states ← runDays portfolio (some state) days
      return state :: states

-- ==== a sample

def samplePolicy : ShadowPortfolioPolicy where
  policyId := "policy"
  policyHash := "sha256:policy"
  topK := 1
  weightingMethod := .equalWeight
  lotSize := 100
  tPlusOne := true
  parameters := [⟨"commission_bps", 3, .engineeringAssumption, by decide⟩,
    ⟨"exit_cost_bps", 10, .engineeringAssumption, by decide⟩,
    ⟨"impact_bps", 2, .engineeringAssumption, by decide⟩,
    ⟨"max_participation_rate", 1 / 10, .operatorInput, by norm_num⟩,
    ⟨"slippage_bps", 5, .engineeringAssumption, by decide⟩]
  allowedTradeSessions := [.continuousAm, .continuousPm]
  limitations := []
  top_k_allowed := by decide
  lot_size_eq := rfl
  t_plus_one_enforced := rfl
  parameters_known := by decide
  parameters_required := by decide
  parameters_sorted := by simp
  participation_positive := by decide +kernel
  participation_le_one := by decide +kernel
  sessions_continuous := rfl

def samplePortfolio : ShadowPortfolio where
  portfolioId := "portfolio"
  portfolioHash := "sha256:portfolio"
  policyReference := ⟨"SHADOW_PORTFOLIO_POLICY", "policy", "sha256:policy"⟩
  researchReference := ⟨"RESEARCH", "research", "sha256:research"⟩
  candidateReference := ⟨"CANDIDATE", "candidate", "sha256:candidate"⟩
  initialCash := 10000
  limitations := []
  initial_cash_positive := by decide

theorem no_weight : ∀ v ∈ (none : Option ℚ), 0 < v := fun _ h => by
  cases h

theorem no_references : [] = sortedReferences [] := by
  decide

theorem no_reasons : ([] : List String) = sortedDistinct [] := by
  decide

def sampleObservation (symbol : String) (score price amount : Nat)
    (hprice : 0 < price) (hamount : 0 < amount) :
    ShadowPortfolioMarketObservation where
  symbol := symbol
  score := some score
  riskWeight := none
  referencePrice := some price
  markPrice := some price
  averageDailyAmount := some amount
  tradingStatus := .trading
  priceLimitState := .normal
  tradeSession := .continuousAm
  sourceReferences := []
  reasonCodes := []
  reference_price_positive := by simpa using hprice
  mark_price_positive := by simpa using hprice
  average_daily_amount_positive := by simpa using hamount
  risk_weight_positive := no_weight
  references_sorted := no_references
  reasons_sorted := no_reasons

/-- A purchase of the first symbol; then a sale of part of it, for want of
capacity, and a purchase of the second. -/
def sampleDays : List DayInput :=
  [⟨samplePolicy, 1, [sampleObservation "A" 2 10 1000000 (by decide) (by decide),
        sampleObservation "B" 1 20 1000000 (Nat.succ_pos 19) (by decide)], 1⟩,
    ⟨samplePolicy, 2, [sampleObservation "A" 1 12 60000 (by decide) (by decide),
        sampleObservation "B" 2 10 1000000 (by decide) (by decide)], 2⟩]

end MarketRegimeAlpha.Shadow
