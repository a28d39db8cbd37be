/-
Whether a purchase can cost more than the cash it was sized by.

# Two ways to charge

`affordable_quantity` divides the cash by `1 + (slippage + impact +
commission)`, each in basis points: it takes the three charges to add
up. A purchase pays slippage and impact in its price, and the commission
on the notional at that price: there they compound
(`ShadowPortfolioPolicy.charge_eq`). The two agree exactly when the
policy has no commission, or neither slippage nor impact; for any other
policy there is a day whose first purchase is sized beyond its cash
(`exceedingDay`), and the day raises.
-/
import MarketRegimeAlpha.Shadow.Proofs.Conservation
import MarketRegimeAlpha.Shadow.Proofs.Legality

namespace MarketRegimeAlpha.Shadow

open Lib

/-- What a purchase raises that leaves a debt. -/
def cashExceeded : Raised := .valueError "Shadow Portfolio fill exceeded available Cash"

namespace ShadowPortfolioPolicy

variable (policy : ShadowPortfolioPolicy)

/-- What a purchase is taken to cost, for each unit of its value at the
reference price. -/
def estimate : ℚ :=
  1 + (policy.parameter "slippage_bps" + policy.parameter "impact_bps"
    + policy.parameter "commission_bps") / 10000

/-- What a purchase does cost, for each unit of its value at the reference
price. -/
def charge : ℚ :=
  (1 + (policy.parameter "slippage_bps" + policy.parameter "impact_bps") / 10000)
    * (1 + policy.parameter "commission_bps" / 10000)

/-- The commission on what slippage and impact add to the price, which
the estimate leaves out. -/
def compounded : ℚ :=
  (policy.parameter "slippage_bps" + policy.parameter "impact_bps")
    * policy.parameter "commission_bps"

theorem charge_eq : policy.charge = policy.estimate + policy.compounded / 100000000 := by
  unfold charge estimate compounded
  ring

theorem estimate_ge_one : 1 ≤ policy.estimate := by
  have hslippage := policy.parameter_nonneg "slippage_bps"
  have himpact := policy.parameter_nonneg "impact_bps"
  have hcommission := policy.parameter_nonneg "commission_bps"
  unfold estimate
  have hsum : 0 ≤ (policy.parameter "slippage_bps"
      + policy.parameter "impact_bps" + policy.parameter "commission_bps") / 10000 := by positivity
  linarith only [hsum]

theorem compounded_nonneg : 0 ≤ policy.compounded := by
  have hslippage := policy.parameter_nonneg "slippage_bps"
  have himpact := policy.parameter_nonneg "impact_bps"
  have hcommission := policy.parameter_nonneg "commission_bps"
  unfold compounded
  positivity

end ShadowPortfolioPolicy

-- ==== one purchase

section Purchase

variable {policy : ShadowPortfolioPolicy} {tradingDate : Day}
  {cash target fillPrice referencePrice : ℚ} {observation : ShadowPortfolioMarketObservation}
  {filled : ShadowPortfolioFill}

theorem cashCost_of_buy {order : ShadowPortfolioOrderIntent} {maximum : Option ℚ}
    (hside : order.side = .buy) (hprice : observation.referencePrice = some referencePrice)
    (hex : Executes order (some observation) policy maximum filled fillPrice) :
    filled.notional + explicitCashCost filled.notional policy false
      = referencePrice * policy.charge * filled.filledQuantity := by
  obtain ⟨price, hreference, hfill⟩ := hex.price_eq
  have hsame : price = referencePrice := Option.some.inj (hreference.symm.trans hprice)
  rw [hex.notional_eq, hfill, if_pos hside, hsame]
  unfold explicitCashCost ShadowPortfolioPolicy.charge
  simp only [Bool.false_eq_true, if_false]
  ring

/-- A quantity the cash affords is worth no more than the cash, at the
estimate. -/
theorem affordable_le {quantity : ℚ} (hquantity : 0 < quantity)
    (hprice : observation.referencePrice = some referencePrice)
    (h : quantity ≤ affordableQuantity policy cash observation) :
    referencePrice * policy.estimate * quantity ≤ cash := by
  have hpositive : 0 < referencePrice * policy.estimate :=
    mul_pos (observation.reference_price_positive _ hprice)
      (lt_of_lt_of_le one_pos policy.estimate_ge_one)
  unfold affordableQuantity at h
  rw [hprice] at h
  change quantity ≤ lotFloor (cash / (referencePrice * policy.estimate)) policy.lotSize at h
  have hcash : 0 < cash / (referencePrice * policy.estimate) := by
    by_contra hnot
    have hnone := @lotFloor_nonpos policy _ (not_lt.mp hnot)
    linarith only [h, hnone, hquantity]
  have hfloor := (lotFloor_spec policy hcash.le).2
  have hle := h.trans hfloor
  rw [le_div_iff₀ hpositive] at hle
  linarith only [hle]

theorem cashCost_le (hcompounded : policy.compounded = 0)
    (hex : Executes (buyIntent policy cash target observation) (some observation) policy
      (some (executableQuantity policy cash target observation)) filled
      fillPrice) :
    filled.notional + explicitCashCost filled.notional policy false ≤ cash := by
  obtain ⟨price, hreference, -⟩ := hex.price_eq
  have hprice : observation.referencePrice = some price := hreference
  rw [cashCost_of_buy rfl hprice hex, policy.charge_eq, hcompounded, zero_div, add_zero]
  apply affordable_le hex.quantity_pos hprice
  rw [hex.quantity_eq]
  exact (min_le_right _ _).trans (min_le_right _ _)

end Purchase

theorem fill_executes {order : ShadowPortfolioOrderIntent}
    {seen : Option ShadowPortfolioMarketObservation} {maximum : ℚ}
    (hreasons : order.reasonCodes = []) (hrequested : 0 < order.requestedQuantity)
    (hmaximum : 0 < maximum) (hprice : seen.bind (·.referencePrice) = some referencePrice) :
    ∃ fillPrice, Executes order seen policy (some maximum)
      (fill order seen policy (some maximum)) fillPrice := by
  have hpositive : ¬ min order.requestedQuantity maximum ≤ 0 :=
    not_le.mpr (lt_min hrequested hmaximum)
  rcases fill_cases order seen policy (some maximum) with hun | hex
  · have hstatus := hun.status_eq
    unfold fill at hstatus
    simp only [hprice, hreasons, Option.getD_some, ne_eq, not_true,
      false_or, decide_eq_true_eq, if_neg hpositive,
      if_neg hrequested.not_ge, buildFill] at hstatus
    split at hstatus
    · cases hstatus
    · cases hstatus
  · exact hex

-- ==== the day

section Day

variable {portfolio : ShadowPortfolio} {policy : ShadowPortfolioPolicy} {tradingDate : Day}
  {observations : List ShadowPortfolioMarketObservation} {previous : Option ShadowPortfolioDayState}
  {recordedAt : Instant} {state : Trading} {chosen : List ShadowPortfolioMarketObservation}
  {method : PortfolioWeightingMethod}

theorem weights_error {e : Raised} (h : weights chosen method = .error e) :
    e = .valueError (method.value ++ " requires positive explicit weights") := by
  unfold weights at h
  by_cases hchosen : chosen = []
  · rw [if_pos hchosen] at h
    cases h
  · rw [if_neg hchosen] at h
    by_cases hequal : method = .equalWeight
    · rw [if_pos hequal] at h
      cases h
    · rw [if_neg hequal] at h
      generalize dictOf (chosen.map fun o => (o.symbol,
        if method = .scoreWeight then o.score else o.riskWeight)) = values
        at h
      dsimp only at h
      split at h
      · injection h with h
        exact h.symm
      · cases h

theorem weights_ne_exceeded : weights chosen method ≠ .error cashExceeded := by
  intro h
  have herror := weights_error h
  revert herror
  cases method with
  | equalWeight => decide +kernel
  | scoreWeight => decide +kernel
  | riskWeight => decide +kernel

theorem sell_ne_exceeded {bySymbol : List (String × ShadowPortfolioMarketObservation)}
    {selectedSymbols : List String} {pair : String × ShadowPortfolioPosition} :
    sell policy tradingDate bySymbol selectedSymbols state pair ≠ .error cashExceeded := by
  unfold sell
  split
  · exact fun h => nomatch h
  · dsimp only
    split
    · exact fun h => nomatch h
    · split
      · exact fun h => nomatch h
      · exact fun h => nomatch h

theorem buy_ne_exceeded (hcompounded : policy.compounded = 0) {weightOf : List (String × ℚ)}
    {pretrade : ℚ} {observation : ShadowPortfolioMarketObservation} :
    buy policy tradingDate weightOf pretrade state observation ≠ .error cashExceeded := by
  intro h
  unfold buy at h
  split at h
  · cases h
  · rcases bind_error.mp h with h | ⟨weight, -, h⟩
    · unfold item at h
      split at h
      · cases h
      · cases h
    · dsimp only at h
      rcases fill_cases (buyIntent policy state.cash (pretrade * weight)
          observation) (some observation) policy
          (some (executableQuantity policy state.cash (pretrade * weight)
            observation)) with hun | ⟨fillPrice, hex⟩
      · rw [if_pos (show (buyFill _ _ _ _).status = _ from hun.status_eq)] at h
        cases h
      · have hprice : (buyFill policy state.cash (pretrade * weight)
            observation).fillPrice = some fillPrice := hex.price_some
        rw [if_neg (show (buyFill _ _ _ _).status ≠ _ from hex.status_ne), hprice] at h
        unfold Trading.afterPurchase at h
        rcases bind_error.mp h with h | ⟨-, -, h⟩
        · have hpaid := cashCost_le hcompounded hex
          have hdebt := not_not.mp (require_error.mp h).1
          exact absurd hdebt (not_lt.mpr (sub_nonneg.mpr hpaid))
        · cases h

theorem construct_ne_exceeded {values : StateValues} :
    ShadowPortfolioDayState.construct values ≠ .error cashExceeded := by
  unfold ShadowPortfolioDayState.construct
  split
  · split
    · simp
    · simp [cashExceeded]
  · simp [cashExceeded]

/-- Where nothing compounds, no day raises that its fills exceeded the
cash. -/
theorem day_ne_exceeded (hcompounded : policy.compounded = 0) :
    runShadowPortfolioDay portfolio policy tradingDate observations previous
      recordedAt ≠ .error cashExceeded := by
  intro h
  unfold runShadowPortfolioDay at h
  rcases bind_error.mp h with h | ⟨-, -, h⟩
  · exact absurd (require_error.mp h).2 (by simp [cashExceeded])
  rcases bind_error.mp h with h | ⟨-, -, h⟩
  · exact absurd (require_error.mp h).2 (by simp [cashExceeded])
  rcases bind_error.mp h with h | ⟨-, -, h⟩
  · cases previous with
    | none => cases h
    | some previous =>
      rcases bind_error.mp h with h | ⟨-, -, h⟩
      · exact absurd (require_error.mp h).2 (by simp [cashExceeded])
      · exact absurd (require_error.mp h).2 (by simp [cashExceeded])
  rcases bind_error.mp h with h | ⟨weightOf, -, h⟩
  · exact weights_ne_exceeded h
  rcases bind_error.mp h with h | ⟨sold, -, h⟩
  · obtain ⟨pair, -, state, hsell⟩ := foldlM_error h
    exact sell_ne_exceeded hsell
  rcases bind_error.mp h with h | ⟨bought, -, h⟩
  · obtain ⟨observation, -, state, hbuy⟩ := foldlM_error h
    exact buy_ne_exceeded hcompounded hbuy
  · exact construct_ne_exceeded h

end Day

-- ==== the day that exceeds

section Exceeding

variable (policy : ShadowPortfolioPolicy)

/-- A symbol that trades freely at the price of one, in the amount that a
hundred of it are taken to cost. -/
def exceedingObservation : ShadowPortfolioMarketObservation where
  symbol := "A"
  score := some 1
  riskWeight := some 1
  referencePrice := some 1
  markPrice := some 1
  averageDailyAmount := some (100 * policy.estimate / policy.parameter "max_participation_rate")
  tradingStatus := .trading
  priceLimitState := .normal
  tradeSession := .continuousAm
  sourceReferences := []
  reasonCodes := []
  reference_price_positive := by simp
  mark_price_positive := by simp
  average_daily_amount_positive := by
    intro amount hamount
    rw [← Option.some.inj hamount]
    have hestimate := lt_of_lt_of_le one_pos policy.estimate_ge_one
    exact div_pos (by positivity) policy.participation_positive
  risk_weight_positive := by simp
  references_sorted := no_references
  reasons_sorted := no_reasons

/-- A portfolio that begins with what a hundred of it are taken to
cost. -/
def exceedingPortfolio : ShadowPortfolio where
  portfolioId := "portfolio"
  portfolioHash := "sha256:portfolio"
  policyReference := ⟨"SHADOW_PORTFOLIO_POLICY", policy.policyId, policy.policyHash⟩
  researchReference := ⟨"RESEARCH", "research", "sha256:research"⟩
  candidateReference := ⟨"CANDIDATE", "candidate", "sha256:candidate"⟩
  initialCash := 100 * policy.estimate
  limitations := []
  initial_cash_positive := by
    have hestimate := lt_of_lt_of_le one_pos policy.estimate_ge_one
    positivity

variable {policy}

theorem lotFloor_hundred : lotFloor 100 policy.lotSize = 100 := by
  rw [policy.lot_size_eq]
  decide +kernel

theorem hundred_le_lotFloor {q : ℚ} (hq : 100 ≤ q) : 100 ≤ lotFloor q policy.lotSize := by
  have hone : 1 ≤ q / 100 := by
    rw [le_div_iff₀ (by norm_num)]
    linarith only [hq]
  unfold lotFloor roundDown
  rw [policy.lot_size_eq]
  push_cast
  rw [if_pos (by linarith only [hone])]
  have hfloor : (1 : ℤ) ≤ ⌊q / 100⌋ := Int.le_floor.mpr (by exact_mod_cast hone)
  have hcast : (1 : ℚ) ≤ (⌊q / 100⌋ : ℤ) := by exact_mod_cast hfloor
  linarith only [hcast]

theorem selected_exceeding : selected policy [exceedingObservation policy]
      = [exceedingObservation policy] := by
  have hpositive : 0 < policy.topK := by rcases policy.top_k_allowed with h | h | h <;> omega
  obtain ⟨k, hk⟩ := Nat.exists_eq_add_of_lt hpositive
  unfold selected
  rw [hk]
  simp [sortBy, exceedingObservation]

theorem weights_exceeding (method : PortfolioWeightingMethod) :
    weights [exceedingObservation policy] method = .ok [("A", 1)] := by
  cases method with
  | equalWeight => simp [weights, exceedingObservation, dictOf, setItem]
  | scoreWeight => simp [weights, exceedingObservation, dictOf, setItem]
  | riskWeight => simp [weights, exceedingObservation, dictOf, setItem]

theorem hundred_le_estimate : 100 ≤ lotFloor (100 * policy.estimate) policy.lotSize := by
  have hestimate := policy.estimate_ge_one
  exact hundred_le_lotFloor (by linarith only [hestimate])

theorem intended_exceeding : intendedQuantity policy (100 * policy.estimate * 1)
        (exceedingObservation policy)
      = lotFloor (100 * policy.estimate) policy.lotSize := by
  show lotFloor (100 * policy.estimate * 1 / 1) _ = _
  rw [mul_one, div_one]

theorem capacity_exceeding : capacityQuantity (exceedingObservation policy) policy
      = lotFloor (100 * policy.estimate) policy.lotSize := by
  have hrate : 0 < policy.parameter "max_participation_rate" := policy.participation_positive
  show lotFloor (100 * policy.estimate / policy.parameter "max_participation_rate"
      * policy.parameter "max_participation_rate" / 1) _ = _
  rw [div_mul_cancel₀ _ hrate.ne', div_one]

theorem affordable_exceeding : affordableQuantity policy (100 * policy.estimate)
      (exceedingObservation policy) = 100 := by
  have hestimate := policy.estimate_ge_one
  show lotFloor (100 * policy.estimate / (1 * policy.estimate)) _ = _
  rw [one_mul, mul_div_cancel_right₀ _ (by linarith only [hestimate])]
  exact lotFloor_hundred

/-- A hundred and no more is taken to be affordable, and no other limit
is lower. -/
theorem executable_exceeding : executableQuantity policy (100 * policy.estimate)
        (100 * policy.estimate * 1) (exceedingObservation policy) = 100 := by
  unfold executableQuantity
  rw [intended_exceeding, capacity_exceeding, affordable_exceeding, min_self]
  exact min_eq_right hundred_le_estimate

theorem buyIntent_exceeding : (buyIntent policy (100 * policy.estimate) (100 * policy.estimate * 1)
      (exceedingObservation policy)).reasonCodes = [] := by
  have hsessions := policy.sessions_continuous
  have hcapacity : capacityQuantity (exceedingObservation policy) policy ≠ 0 := by
    rw [capacity_exceeding]
    have hhundred := @hundred_le_estimate policy
    exact (lt_of_lt_of_le (by norm_num) hhundred).ne'
  have hrejections : buyRejections (exceedingObservation policy) policy = [] := by
    unfold buyRejections
    rw [sortedDistinct_eq_nil]
    simp [exceedingObservation, statusReasons, limitReasons, sessionReasons, hsessions]
  unfold buyIntent intent
  dsimp only
  rw [executable_exceeding, if_neg (by norm_num), if_neg (fun h => hcapacity h.2)]
  exact hrejections

/-- Where something compounds, the purchase exceeds the cash. -/
theorem buy_exceeding (hcompounded : 0 < policy.compounded) {tradingDate : Day} {state : Trading}
    (hcash : state.cash = 100 * policy.estimate) (hpositions : state.positions = []) :
    buy policy tradingDate [("A", 1)] (100 * policy.estimate) state
      (exceedingObservation policy) = .error cashExceeded := by
  have hrequested : (100 : ℚ) ≤ (buyIntent policy (100 * policy.estimate)
      (100 * policy.estimate * 1)
      (exceedingObservation policy)).requestedQuantity := by
    show 100 ≤ intendedQuantity _ _ _
    rw [intended_exceeding]
    exact hundred_le_estimate
  have hpositive : 0 < (buyIntent policy (100 * policy.estimate) (100 * policy.estimate * 1)
      (exceedingObservation policy)).requestedQuantity :=
    lt_of_lt_of_le (by norm_num) hrequested
  obtain ⟨fillPrice, hex⟩ : ∃ fillPrice, Executes
      (buyIntent policy (100 * policy.estimate) (100 * policy.estimate * 1)
        (exceedingObservation policy))
      (some (exceedingObservation policy)) policy (some 100)
      (fill (buyIntent policy (100 * policy.estimate)
          (100 * policy.estimate * 1) (exceedingObservation policy))
        (some (exceedingObservation policy)) policy (some 100)) fillPrice :=
    fill_executes buyIntent_exceeding hpositive (by norm_num) rfl
  have hquantity := hex.quantity_eq
  rw [Option.getD_some, min_eq_right hrequested] at hquantity
  have hcost := cashCost_of_buy rfl rfl hex
  have hfill : buyFill policy state.cash (100 * policy.estimate * 1) (exceedingObservation policy)
      = fill (buyIntent policy (100 * policy.estimate)
          (100 * policy.estimate * 1) (exceedingObservation policy))
          (some (exceedingObservation policy)) policy (some 100) := by
    unfold buyFill
    rw [hcash, executable_exceeding]
  have hitem : item [("A", (1 : ℚ))] (exceedingObservation policy).symbol = .ok 1 := rfl
  unfold buy
  rw [hpositions, if_neg (by simp), hitem, ok_bind]
  dsimp only
  rw [hfill, if_neg hex.status_ne, hex.price_some]
  dsimp only
  unfold Trading.afterPurchase
  refine bind_error.mpr (.inl (require_error.mpr ⟨?_, rfl⟩))
  -- a hundred at the charge against a hundred at the estimate
  rw [not_not, hcost, hquantity, policy.charge_eq]
  show state.cash - _ < 0
  rw [hcash]
  linarith only [hcompounded]

theorem exceeding_day (hcompounded : 0 < policy.compounded) :
    runShadowPortfolioDay (exceedingPortfolio policy) policy 1
      [exceedingObservation policy] none 1 = .error cashExceeded := by
  have hobserved : [exceedingObservation policy].map (·.symbol)
      = sortedDistinct ([exceedingObservation policy].map (·.symbol)) := by
    show ["A"] = sortedDistinct ["A"]
    decide +kernel
  have hnav : pretradeNav (observationBySymbol [exceedingObservation policy])
      (Trading.opening (exceedingPortfolio policy) none)
      = 100 * policy.estimate := add_zero _
  unfold runShadowPortfolioDay
  refine bind_error.mpr (.inr ⟨(), require_ok.mpr ⟨rfl, rfl⟩, ?_⟩)
  refine bind_error.mpr (.inr ⟨(), require_ok.mpr ⟨by simp, hobserved⟩, ?_⟩)
  refine bind_error.mpr (.inr ⟨(), rfl, ?_⟩)
  rw [selected_exceeding]
  refine bind_error.mpr (.inr ⟨_, weights_exceeding _, ?_⟩)
  -- nothing is held, so nothing is sold
  refine bind_error.mpr (.inr ⟨_, rfl, ?_⟩)
  rw [hnav]
  refine bind_error.mpr (.inl ?_)
  rw [List.foldlM_cons, buy_exceeding hcompounded rfl rfl]
  rfl

end Exceeding

-- ==== every day's cash

/-- A policy never sizes a purchase beyond the cash, whatever is observed
and whatever state the day follows, exactly when it charges no
commission, or neither slippage nor impact. -/
theorem purchases_fit_iff (policy : ShadowPortfolioPolicy) :
    (∀ (portfolio : ShadowPortfolio) (tradingDate : Day)
        (observations : List ShadowPortfolioMarketObservation)
        (previous : Option ShadowPortfolioDayState) (recordedAt : Instant),
      runShadowPortfolioDay portfolio policy tradingDate observations previous recordedAt
        ≠ .error (.valueError "Shadow Portfolio fill exceeded available Cash")
      ∧ ∀ state, runShadowPortfolioDay portfolio policy tradingDate
          observations previous recordedAt = .ok state → 0 ≤ state.cash)
    ↔ (policy.parameter "slippage_bps" + policy.parameter "impact_bps" = 0
        ∨ policy.parameter "commission_bps" = 0) := by
  rw [← mul_eq_zero]
  constructor
  · intro hfits
    by_contra hne
    have hcompounded : 0 < policy.compounded :=
      lt_of_le_of_ne policy.compounded_nonneg (Ne.symm hne)
    exact (hfits _ _ _ _ _).1 (exceeding_day hcompounded)
  · intro hcompounded portfolio tradingDate observations previous recordedAt
    exact ⟨day_ne_exceeded hcompounded, fun state _ => state.cash_nonneg⟩

/-- A policy that charges a hundred basis points of slippage and of
commission. -/
def costlyPolicy : ShadowPortfolioPolicy :=
  { samplePolicy with
    parameters := [⟨"commission_bps", 100, .engineeringAssumption, by decide⟩,
      ⟨"exit_cost_bps", 0, .engineeringAssumption, by decide⟩,
      ⟨"impact_bps", 0, .engineeringAssumption, by decide⟩,
      ⟨"max_participation_rate", 1, .operatorInput, zero_le_one⟩,
      ⟨"slippage_bps", 100, .engineeringAssumption, by decide⟩]
    parameters_known := by decide
    parameters_required := by decide
    parameters_sorted := by simp
    participation_positive := by decide +kernel
    participation_le_one := by decide +kernel }

/-- A hundred shares at ten, each way at one per cent: they cost 1020.1,
and cash of 1020 is taken to afford them. -/
theorem costly_purchase_exceeds : runShadowPortfolioDay { samplePortfolio with
          initialCash := 1020
          initial_cash_positive := by decide }
        costlyPolicy 1
        [sampleObservation "A" 1 10 1020 (by decide) (by decide)] none 1
      = .error (.valueError "Shadow Portfolio fill exceeded available Cash") := by
  decide +kernel

end MarketRegimeAlpha.Shadow
