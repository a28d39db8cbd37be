/-
A chain of days conserves: cash and positions at cost are the initial
cash and everything realized.

# One day

A day that succeeds is read back as a `DayRun`: its checks, its two
loops, and the values it leaves. The loops post to the account of the
day, so its capital is what the day began with; the marks, the peak and
the attribution are then read off `stateValues`.
-/
import MarketRegimeAlpha.Shadow.Proofs.Trades

namespace MarketRegimeAlpha.Shadow

open Lib List

-- ==== a day, read back

section Day

variable {portfolio : ShadowPortfolio} {policy : ShadowPortfolioPolicy} {tradingDate : Day}
  {observations : List ShadowPortfolioMarketObservation} {previous : Option ShadowPortfolioDayState}
  {recordedAt : Instant} {state : ShadowPortfolioDayState} {weightOf : List (String × ℚ)}
  {sold bought : Trading}

structure DayRun (portfolio : ShadowPortfolio) (policy : ShadowPortfolioPolicy) (tradingDate : Day)
    (observations : List ShadowPortfolioMarketObservation)
    (previous : Option ShadowPortfolioDayState) (recordedAt : Instant)
    (state : ShadowPortfolioDayState) (weightOf : List (String × ℚ))
    (sold bought : Trading) : Prop where
  observed : observations ≠ []
  observed_once : observations.map (·.symbol) = sortedDistinct (observations.map (·.symbol))
  follows : checkPrevious portfolio tradingDate previous = .ok ()
  weighed : weights (selected policy observations) policy.weightingMethod = .ok weightOf
  selling : (sortBy (·.1) (Trading.opening portfolio previous).positions
    ).foldlM (sell policy tradingDate (observationBySymbol observations)
      ((selected policy observations).map (·.symbol)))
      (Trading.opening portfolio previous) = .ok sold
  buying : (selected policy observations).foldlM (buy policy tradingDate
      weightOf (pretradeNav (observationBySymbol observations) sold)) sold
    = .ok bought
  values_eq : state.toStateValues = stateValues portfolio tradingDate observations previous
    (pretradeNav (observationBySymbol observations) sold) bought recordedAt

theorem runShadowPortfolioDay_ok
    (h : runShadowPortfolioDay portfolio policy tradingDate observations
      previous recordedAt = .ok state) :
    ∃ weightOf sold bought, DayRun portfolio policy tradingDate observations
      previous recordedAt state weightOf sold bought := by
  unfold runShadowPortfolioDay at h
  simp only [bind_ok, require_ok] at h
  obtain ⟨-, -, -, ⟨hne, hsorted⟩, ⟨⟩, hprevious, weightOf, hweights, sold,
    hsell, bought, hbuy, hvalues⟩ := h
  exact ⟨weightOf, sold, bought, {
    observed := hne
    observed_once := hsorted
    follows := hprevious
    weighed := hweights
    selling := hsell
    buying := hbuy
    values_eq := ShadowPortfolioDayState.construct_ok hvalues }⟩

-- ==== the day's account

/-- What positions cost. -/
def bookValue (positions : List ShadowPortfolioPosition) : ℚ := (positions.map (·.bookValue)).sum

def realizedOn (state : ShadowPortfolioDayState) : ℚ := (state.attribution.map (·.realizedPnl)).sum

/-- The cash and the positions at cost that a day begins with. -/
def funding (portfolio : ShadowPortfolio) : Option ShadowPortfolioDayState → ℚ
  | none => portfolio.initialCash
  | some previous => previous.cash + bookValue previous.positions

def HeldOnce : Option ShadowPortfolioDayState → Prop
  | none => True
  | some previous => (previous.positions.map (·.symbol)).Nodup

variable (hheld : HeldOnce previous)

include hheld in
theorem opening_positions : (Trading.opening portfolio previous).positions
      = ((previous.map (·.positions)).getD []).map fun item => (item.symbol, item) := by
  cases previous with
  | none => rfl
  | some previous =>
    refine dictOf_eq ?_
    unfold Lib.keys
    rw [map_map]
    exact hheld

include hheld in
theorem capital_opening :
    (Trading.opening portfolio previous).account.capital = funding portfolio previous := by
  show _ + sumItems _ (Trading.opening portfolio previous).positions - 0 = _
  rw [opening_positions hheld, sub_zero]
  cases previous with
  | none => exact add_zero _
  | some previous =>
    congr 1
    simp [sumItems, bookValue, Function.comp_def]

include hheld in
theorem selling_opening : Selling (sortBy (·.1) (Trading.opening portfolio previous).positions)
      (Trading.opening portfolio previous) := by
  have hkeys : (Lib.keys (Trading.opening portfolio previous).positions).Nodup := by
    rw [opening_positions hheld]
    unfold Lib.keys
    rw [map_map]
    cases previous with
    | none => exact nodup_nil
    | some previous => exact hheld
  exact {
    positions_nodup := hkeys
    realized_nodup := nodup_nil
    rest_nodup := (nodup_keys_perm (sortBy_perm _ _)).mpr hkeys
    held := fun pair hpair => (lookup_eq_some_iff hkeys).mpr ((sortBy_perm _ _).mem_iff.mp hpair)
    fresh := fun _ _ => rfl }

variable (h : DayRun portfolio policy tradingDate observations previous recordedAt state weightOf
    sold bought)

include h in
include hheld in
/-- What the two loops leave: distinct symbols, and the capital the day
began with. -/
theorem DayRun.account : (Lib.keys bought.positions).Nodup ∧ (Lib.keys bought.realized).Nodup
      ∧ bought.account.capital = funding portfolio previous := by
  obtain ⟨hsold, hsell⟩ := sell_loop_posts (selling_opening hheld) h.selling
  obtain ⟨hkeys, hrealized, hbuy⟩ := buy_loop_posts hsold.positions_nodup h.buying
  refine ⟨hkeys, hrealized ▸ hsold.realized_nodup, ?_⟩
  rw [Account.capital_of_posts (hsell.trans hbuy), capital_opening hheld]

-- ==== the day's end

variable {bySymbol : List (String × ShadowPortfolioMarketObservation)}
  {positions : List (String × ShadowPortfolioPosition)}

theorem marked_symbols : (marked bySymbol positions).map (·.symbol)
    = Lib.keys (sortBy (·.1) positions) := by
  unfold marked Lib.keys
  rw [map_map]
  rfl

theorem bookValue_marked : bookValue (marked bySymbol positions)
    = sumItems ShadowPortfolioPosition.bookValue positions := by
  rw [← sumItems_perm (sortBy_perm (·.1) positions)]
  unfold bookValue marked sumItems
  rw [map_map]
  rfl

theorem sum_marketValue_marked : ((marked bySymbol positions).map (·.marketValue)).sum
      = bookValue (marked bySymbol positions)
        + ((marked bySymbol positions).map (·.unrealizedPnl)).sum := by
  unfold bookValue
  rw [← sum_map_add]
  congr 1
  refine map_congr_left fun p hp => ?_
  obtain ⟨pair, -, rfl⟩ := mem_map.mp hp
  simp only [markedPosition, ShadowPortfolioPosition.bookValue]
  ring

theorem sum_realizedPnl {trading : Trading} (hkeys : (Lib.keys trading.realized).Nodup)
    {positions : List ShadowPortfolioPosition} :
    ((attribution positions trading).map (·.realizedPnl)).sum = sumItems id trading.realized := by
  rw [← sum_getD_lookup hkeys (sortedDistinct_pairwise (Lib.keys trading.costs
    ++ Lib.keys trading.realized ++ positions.map (·.symbol))).nodup]
  · unfold attribution
    simp [Function.comp_def]
  · intro symbol hsymbol
    refine mem_sortedDistinct.mpr ?_
    simp [hsymbol]

include h in
include hheld in
theorem DayRun.conserves :
    state.cash + bookValue state.positions = funding portfolio previous + realizedOn state := by
  obtain ⟨-, hrealized, hcapital⟩ := h.account hheld
  have hcash : state.cash = bought.account.cash := by rw [h.values_eq]; rfl
  have hbook : bookValue state.positions = bought.account.book := by
    rw [h.values_eq]
    exact bookValue_marked
  have hpnl : realizedOn state = bought.account.realized := by
    unfold realizedOn
    rw [h.values_eq]
    exact sum_realizedPnl hrealized
  rw [hcash, hbook, hpnl, ← hcapital, Account.cash_add_book]

include h in
include hheld in
theorem DayRun.heldOnce : HeldOnce (some state) := by
  obtain ⟨hkeys, -, -⟩ := h.account hheld
  show (state.positions.map (·.symbol)).Nodup
  rw [h.values_eq]
  show ((marked _ _).map _).Nodup
  rw [marked_symbols]
  exact (nodup_keys_perm (sortBy_perm _ _)).mpr hkeys

include h in
/-- The net asset value is cash, positions at cost and what is
unrealized. -/
theorem DayRun.nav_eq : state.nav = state.cash + bookValue state.positions
      + (state.positions.map (·.unrealizedPnl)).sum := by
  rw [h.values_eq]
  show _ + ((marked _ _).map _).sum = _
  rw [sum_marketValue_marked, ← add_assoc]
  rfl

def peakBefore (portfolio : ShadowPortfolio) : Option ShadowPortfolioDayState → ℚ
  | none => portfolio.initialCash
  | some previous => previous.peakNav

include h in
theorem DayRun.peak_eq : state.peakNav = max state.nav (peakBefore portfolio previous) := by
  rw [h.values_eq]
  cases previous with
  | none => rfl
  | some previous => rfl

include h in
theorem DayRun.drawdown_nonpos : state.drawdown ≤ 0 := by
  have hdrawdown : state.drawdown
      = if state.peakNav = 0 then 0 else state.nav / state.peakNav - 1 := by
    rw [h.values_eq]
    rfl
  have hle : state.nav ≤ state.peakNav := h.peak_eq ▸ le_max_left _ _
  rw [hdrawdown]
  split
  · exact le_refl 0
  · next hne =>
      have hpos : 0 < state.peakNav := lt_of_le_of_ne (state.nav_nonneg.trans hle) (Ne.symm hne)
      rw [sub_nonpos, div_le_one hpos]
      exact hle

end Day

-- ==== the chain

theorem length_runDays {portfolio : ShadowPortfolio} {previous : Option ShadowPortfolioDayState}
    {days : List DayInput} {states : List ShadowPortfolioDayState}
    (h : runDays portfolio previous days = .ok states) :
    states.length = days.length := by
  induction days generalizing previous states with
  | nil =>
    injection h with h
    rw [← h]
    rfl
  | cons day days ih =>
    simp only [runDays, bind_ok, pure_ok] at h
    obtain ⟨first, -, rest, hrest, rfl⟩ := h
    rw [length_cons, ih hrest, length_cons]

section Chain

variable {portfolio : ShadowPortfolio} {previous : Option ShadowPortfolioDayState}

/-- The states of a chain, to the `n`-th of them. -/
theorem runDays_conserves {days : List DayInput} {states : List ShadowPortfolioDayState}
    (hheld : HeldOnce previous) (h : runDays portfolio previous days = .ok states) {n : Nat}
    {state : ShadowPortfolioDayState} (hn : states[n]? = some state) :
    state.cash + bookValue state.positions = funding portfolio previous
          + ((states.take (n + 1)).map realizedOn).sum
      ∧ state.nav = state.cash + bookValue state.positions
          + (state.positions.map (·.unrealizedPnl)).sum
      ∧ state.peakNav = ((states.take (n + 1)).map (·.nav)).foldl max
          (peakBefore portfolio previous)
      ∧ state.drawdown ≤ 0 := by
  induction days generalizing previous states n with
  | nil =>
    injection h with h
    subst h
    cases hn
  | cons day days ih =>
    simp only [runDays, bind_ok, pure_ok] at h
    obtain ⟨first, hfirst, rest, hrest, rfl⟩ := h
    obtain ⟨weightOf, sold, bought, hday⟩ := runShadowPortfolioDay_ok hfirst
    cases n with
    | zero =>
      injection hn with hn
      subst hn
      refine ⟨?_, hday.nav_eq, ?_, hday.drawdown_nonpos⟩
      · simpa using hday.conserves hheld
      · simp [hday.peak_eq, max_comm]
    | succ n =>
      obtain ⟨hcash, hnav, hpeak, hdrawdown⟩ := ih (hday.heldOnce hheld) hrest hn
      refine ⟨?_, hnav, ?_, hdrawdown⟩
      · rw [hcash, take_succ_cons, map_cons, sum_cons, ← add_assoc]
        congr 1
        exact hday.conserves hheld
      · rw [hpeak, take_succ_cons, map_cons, foldl_cons, max_comm, ← hday.peak_eq]
        rfl

/-- After each day of a chain, cash and positions at cost are the initial
cash and all that was realized; so the net asset value is the initial
cash, what was realized and what is unrealized. The peak is the greatest
of the initial cash and the net asset values, and no drawdown is
positive. -/
theorem chain_conserves {days : List DayInput} {states : List ShadowPortfolioDayState}
    (h : runDays portfolio none days = .ok states)
    {n : Nat} {state : ShadowPortfolioDayState} (hn : states[n]? = some state) :
    state.cash + (state.positions.map fun p => p.quantity * p.averageCost).sum
        = portfolio.initialCash + ((states.take (n + 1)).map fun s =>
            (s.attribution.map (·.realizedPnl)).sum).sum
      ∧ state.nav = portfolio.initialCash + ((states.take (n + 1)).map fun s =>
            (s.attribution.map (·.realizedPnl)).sum).sum
          + (state.positions.map (·.unrealizedPnl)).sum
      ∧ IsGreatest (insert portfolio.initialCash
          {x | ∃ s ∈ states.take (n + 1), s.nav = x}) state.peakNav
      ∧ state.drawdown ≤ 0 := by
  obtain ⟨hcash, hnav, hpeak, hdrawdown⟩ :=
    @runDays_conserves portfolio none days states trivial h n state hn
  refine ⟨hcash, by rw [hnav, hcash]; rfl, ?_, hdrawdown⟩
  rw [hpeak]
  have hset : {x | ∃ s ∈ states.take (n + 1), s.nav = x}
      = {x | x ∈ (states.take (n + 1)).map (·.nav)} := by
    simp only [mem_map]
  rw [hset]
  exact isGreatest_foldl_max _ _

end Chain

theorem chain_conserves_sample : ∃ states state,
    runDays samplePortfolio none sampleDays = .ok states ∧ states[1]? = some state
      ∧ state.cash + (state.positions.map fun p => p.quantity * p.averageCost).sum
        = samplePortfolio.initialCash + ((states.take 2).map fun s =>
            (s.attribution.map (·.realizedPnl)).sum).sum := by
  obtain ⟨states, hstates⟩ := exists_of_isOk
    (show (runDays samplePortfolio none sampleDays).isOk by decide +kernel)
  have hlen : 1 < states.length := by
    rw [length_runDays hstates]
    decide
  have hlast : states[1]? = some states[1] := getElem?_eq_getElem hlen
  exact ⟨states, _, hstates, hlast, (chain_conserves hstates hlast).1⟩

end MarketRegimeAlpha.Shadow
