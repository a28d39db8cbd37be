/-
The report is a second account of the days, and agrees with the first.

The attribution of a state has what the day realized and what is unrealized of its
positions, so that summed by symbol over the states it is the net asset value less the
initial cash (`runDays_conserves`). The returns telescope, and grouped by period they
compound to the same; the drawdown is kept as the greatest fall so far.

What the report checks of the states, a chain has (`Chain`): of its errors only those
about the times are left.
-/
import MarketRegimeAlpha.Lib.Drawdown
import MarketRegimeAlpha.Shadow.Performance
import MarketRegimeAlpha.Shadow.Proofs.Conservation
import Mathlib.Data.List.GetD

namespace MarketRegimeAlpha.Shadow

open Lib List

-- ==== the chain

section Chain

variable {portfolio : ShadowPortfolio} {previous : Option ShadowPortfolioDayState}

/-- How a state follows the one before, or begins. -/
structure Follows (portfolio : ShadowPortfolio) (previous : Option ShadowPortfolioDayState)
    (state : ShadowPortfolioDayState) : Prop where
  portfolio_id : state.portfolioReference.artifactId = portfolio.portfolioId
  portfolio_hash : state.portfolioReference.contentHash = portfolio.portfolioHash
  sequence_eq : state.sequence = (previous.elim 0 (·.sequence)) + 1
  later : ∀ p ∈ previous, p.tradingDate < state.tradingDate
  unrealized : (state.attribution.map (·.unrealizedPnl)).sum
    = (state.positions.map (·.unrealizedPnl)).sum
  symbols : (state.attribution.map (·.symbol)).Nodup

/-- Each state follows the one before. -/
def Chain (portfolio : ShadowPortfolio) :
    Option ShadowPortfolioDayState → List ShadowPortfolioDayState → Prop
  | _, [] => True
  | previous, state :: states =>
    Follows portfolio previous state ∧ Chain portfolio (some state) states

theorem sum_unrealizedPnl {trading : Trading} {positions : List ShadowPortfolioPosition}
    (hheld : (positions.map (·.symbol)).Nodup) :
    ((attribution positions trading).map (·.unrealizedPnl)).sum
      = (positions.map (·.unrealizedPnl)).sum := by
  have hkeys : Lib.keys (positions.map fun p => (p.symbol, p)) = positions.map (·.symbol) := by
    unfold Lib.keys
    rw [map_map]
    rfl
  have hsum : (positions.map (·.unrealizedPnl)).sum = sumItems
      ShadowPortfolioPosition.unrealizedPnl (positions.map fun p => (p.symbol, p)) := by
    simp [sumItems, Function.comp_def]
  rw [hsum, ← sum_getD_lookup (hkeys ▸ hheld) (sortedDistinct_pairwise
    (Lib.keys trading.costs ++ Lib.keys trading.realized ++ positions.map (·.symbol))).nodup]
  · unfold attribution
    rw [map_map]
    simp only [Function.comp_def, lookup_map_self]
  · intro symbol hsymbol
    rw [hkeys] at hsymbol
    refine mem_sortedDistinct.mpr ?_
    simp [hsymbol]

theorem DayRun.follows_previous {policy : ShadowPortfolioPolicy} {tradingDate : Day}
    {observations : List ShadowPortfolioMarketObservation} {recordedAt : Instant}
    {state : ShadowPortfolioDayState} {weightOf : List (String × ℚ)}
    {sold bought : Trading}
    (h : DayRun portfolio policy tradingDate observations previous recordedAt
      state weightOf sold bought) (hheld : HeldOnce previous) :
    Follows portfolio previous state := by
  have hsymbols : (state.positions.map (·.symbol)).Nodup := h.heldOnce hheld
  constructor
  case unrealized =>
    rw [h.values_eq] at hsymbols ⊢
    exact sum_unrealizedPnl hsymbols
  case symbols =>
    rw [h.values_eq]
    show ((attribution _ _).map _).Nodup
    unfold attribution
    simpa [Function.comp_def] using (sortedDistinct_pairwise _).nodup
  case later =>
    rintro p hp
    cases hp
    have hfollows := h.follows
    rw [checkPrevious, bind_ok] at hfollows
    obtain ⟨-, -, hlater⟩ := hfollows
    rw [h.values_eq]
    exact require_ok.mp hlater
  all_goals
    rw [h.values_eq]
    cases previous <;> rfl

theorem runDays_chain {days : List DayInput} {states : List ShadowPortfolioDayState}
    (hheld : HeldOnce previous) (h : runDays portfolio previous days = .ok states) :
    Chain portfolio previous states := by
  induction days generalizing previous states with
  | nil =>
    injection h with h
    subst h
    trivial
  | cons day days ih =>
    simp only [runDays, bind_ok, pure_ok] at h
    obtain ⟨first, hfirst, rest, hrest, rfl⟩ := h
    obtain ⟨weightOf, sold, bought, hday⟩ := runShadowPortfolioDay_ok hfirst
    exact ⟨hday.follows_previous hheld, ih (hday.heldOnce hheld) hrest⟩

variable {states : List ShadowPortfolioDayState} (h : Chain portfolio previous states)

include h in
theorem Chain.follows : ∀ state ∈ states, ∃ before, Follows portfolio before state := by
  induction states generalizing previous with
  | nil => exact fun _ hs => nomatch hs
  | cons first rest ih =>
    intro state hs
    rcases mem_cons.mp hs with rfl | hs
    · exact ⟨previous, h.1⟩
    · exact ih h.2 state hs

include h in
theorem Chain.dates : (∀ p ∈ previous, ∀ state ∈ states, p.tradingDate < state.tradingDate)
      ∧ states.Pairwise fun a b => a.tradingDate < b.tradingDate := by
  induction states generalizing previous with
  | nil => exact ⟨fun _ _ _ hs => absurd hs not_mem_nil, List.Pairwise.nil⟩
  | cons first rest ih =>
    obtain ⟨hlater, hrest⟩ := ih h.2
    refine ⟨fun p hp state hs => ?_, pairwise_cons.mpr ⟨hlater first rfl, hrest⟩⟩
    rcases mem_cons.mp hs with rfl | hs
    · exact h.1.later p hp
    · exact (h.1.later p hp).trans (hlater first rfl state hs)

include h in
theorem Chain.sequences : states.map (·.sequence)
      = List.range' (previous.elim 0 (·.sequence) + 1) states.length := by
  induction states generalizing previous with
  | nil => rfl
  | cons first rest ih =>
    rw [map_cons, length_cons, range'_succ, ih h.2, ← h.1.sequence_eq]
    rfl

end Chain

-- ==== as they are stored

section Identified

variable {identify : StateValues → Option ValidationArtifactReference → String × String}
  {portfolio : ShadowPortfolio} {states : List ShadowPortfolioDayState}

@[simp] theorem identified_states (identify) (reference : Option ValidationArtifactReference)
    (states : List ShadowPortfolioDayState) :
    (identified identify reference states).map (·.toShadowPortfolioDayState) = states := by
  induction states generalizing reference with
  | nil => rfl
  | cons state states ih => exact congrArg (state :: ·) (ih _)

theorem checkFollows_error {previous : Option IdentifiedState} {e : Raised}
    (h : checkFollows previous (identified identify (previous.map (·.reference)) states) = .error e)
    :
    e = .valueError "Portfolio Shadow state recorded time is not monotonic" := by
  induction states generalizing previous with
  | nil => cases h
  | cons state states ih =>
    rcases bind_error.mp h with hreference | ⟨-, -, h⟩
    · exact absurd rfl (require_error.mp hreference).1
    · rcases bind_error.mp h with htime | ⟨-, -, hrest⟩
      · exact (require_error.mp htime).2.symm
      · exact ih hrest

theorem sortBy_identified {inputs : List IdentifiedState} (h : Chain portfolio none states)
    (hinputs : inputs.Perm (identified identify none states)) :
    sortBy stateKey inputs = identified identify none states := by
  have hdates : (identified identify none states).Pairwise
      fun a b => a.tradingDate < b.tradingDate := by
    have hpairwise := h.dates.2
    rw [← identified_states identify none states, pairwise_map] at hpairwise
    exact hpairwise
  have hkeys : (identified identify none states).Pairwise fun a b => stateKey a < stateKey b :=
    hdates.imp fun hlt => Prod.Lex.toLex_lt_toLex.mpr (.inl hlt)
  rw [sortBy_eq_of_perm hinputs ((hinputs.map stateKey).nodup_iff.mpr
    (pairwise_map.mpr (hkeys.imp fun hlt => hlt.ne)))]
  exact (hkeys.imp fun hlt => hlt.le).insertionSort_eq

end Identified

-- ==== the returns

section Returns

variable {previous initialCash : ℚ} {states : List IdentifiedState} {navs values : List ℚ}

theorem compound_eq (values : List ℚ) : compound values = (values.map (1 + ·)).prod - 1 := by
  have hall : ∀ result : ℚ, values.foldl (fun result value => result * (1 + value)) result
      = result * (values.map (1 + ·)).prod := by
    induction values with
    | nil => exact fun result => (mul_one result).symm
    | cons value values ih =>
      intro result
      rw [foldl_cons, ih, map_cons, prod_cons, mul_assoc]
  unfold compound
  rw [hall, one_mul]

theorem returns_ok (hprevious : 0 < previous) (hpos : ∀ state ∈ states, 0 < state.nav) :
    ∃ values, returns previous states = .ok values ∧ values.length = states.length
      ∧ (values.map (1 + ·)).prod = (states.getLast?.elim previous (·.nav)) / previous := by
  induction states generalizing previous with
  | nil => exact ⟨[], rfl, rfl, (div_self hprevious.ne').symm⟩
  | cons state states ih =>
    have hnav := hpos state mem_cons_self
    obtain ⟨values, hvalues, hlength, hprod⟩ :=
      ih hnav fun s hs => hpos s (mem_cons_of_mem state hs)
    refine ⟨(state.nav / previous - 1) :: values, ?_, congrArg (· + 1) hlength, ?_⟩
    · unfold returns
      rw [require_true hprevious, ok_bind, hvalues]
      rfl
    · have hlast : ((state :: states).getLast?).elim previous (·.nav)
          = states.getLast?.elim state.nav (·.nav) := by
        rw [getLast?_cons]
        cases states.getLast? <;> rfl
      rw [map_cons, prod_cons, hprod, hlast]
      field_simp
      ring

/-- Grouped by period, the returns compound to what they compound to, and no session
is lost. -/
theorem periodReturns_spec (calendar : Day → Shared.Date) (yearly : Bool)
    (hlength : values.length = states.length) :
    compound ((periodReturns calendar yearly states values).map (·.value)) = compound values
      ∧ ((periodReturns calendar yearly states values).map (·.sessionCount)).sum
        = states.length := by
  have hzip : (states.zip values).map (·.2) = values := map_snd_zip hlength.le
  have hperm := (((sortBy_perm (·.1) (groupBy (fun pair : IdentifiedState × ℚ =>
      periodKey calendar yearly pair.1.tradingDate) (states.zip values))).map
        (·.2)).flatten).trans (flatten_groupBy_perm _ _)
  have hgroup : ∀ pairs : List (IdentifiedState × ℚ),
      1 + compound (pairs.map (·.2)) = (pairs.map fun pair => 1 + pair.2).prod := by
    intro pairs
    rw [compound_eq, map_map, add_sub_cancel]
    rfl
  unfold periodReturns
  constructor
  · have hall : (values.map (1 + ·)).prod
        = ((states.zip values).map fun pair => 1 + pair.2).prod := by
      conv_lhs => rw [← hzip, map_map]
      rfl
    rw [compound_eq, compound_eq, hall, ← (hperm.map _).prod_eq, map_flatten,
      prod_flatten]
    simp only [map_map, Function.comp_def, hgroup]
  · have hcount := hperm.length_eq
    rw [length_flatten, length_zip, hlength, min_self, map_map] at hcount
    rw [← hcount, map_map]
    rfl

/-- The initial cash and the net asset values after it. -/
def wealth (initialCash : ℚ) (navs : List ℚ) (i : Nat) : ℚ := (initialCash :: navs).getD i 0

theorem wealth_pos (hinitial : 0 < initialCash) (hpos : ∀ nav ∈ navs, 0 < nav) {i : Nat}
    (hi : i ≤ navs.length) : 0 < wealth initialCash navs i := by
  have hlt : i < (initialCash :: navs).length := Nat.lt_succ_of_le hi
  unfold wealth
  rw [getD_eq_getElem _ _ hlt]
  exact forall_mem_cons.mpr ⟨hinitial, hpos⟩ _ (getElem_mem hlt)

theorem drawdownStep_eq {sofar : ℚ × ℚ} {nav : ℚ} (h : max sofar.1 nav ≠ 0) : drawdownStep sofar nav
      = (max sofar.1 nav, max sofar.2 (1 - nav / max sofar.1 nav)) := by
  unfold drawdownStep
  dsimp only
  rw [if_neg h, sub_div, div_self h]

/-- The drawdown of the report is that of the wealth. -/
theorem isDrawdown_maximumDrawdown (hinitial : 0 < initialCash) (hpos : ∀ nav ∈ navs, 0 < nav) :
    IsDrawdown (wealth initialCash navs) navs.length (maximumDrawdown initialCash navs) := by
  suffices h : IsPeak (wealth initialCash navs) navs.length
      (navs.foldl drawdownStep (initialCash, 0)).1
      ∧ IsDrawdown (wealth initialCash navs) navs.length
        (navs.foldl drawdownStep (initialCash, 0)).2 from h.2
  induction navs using List.reverseRecOn with
  | nil => exact ⟨isPeak_zero _, isDrawdown_zero hinitial⟩
  | append_singleton navs nav ih =>
    obtain ⟨hpeak, hfall⟩ := ih fun x hx => hpos x (mem_append_left [nav] hx)
    have hlength : (navs ++ [nav]).length = navs.length + 1 := by simp
    have hsame : ∀ i ≤ navs.length,
        wealth initialCash (navs ++ [nav]) i = wealth initialCash navs i := by
      intro i hi
      unfold wealth
      rw [← cons_append, getD_append _ _ _ _ (Nat.lt_succ_of_le hi)]
    have hnext : wealth initialCash (navs ++ [nav]) (navs.length + 1) = nav := by simp [wealth]
    have hpositive : ∀ i ≤ navs.length + 1, 0 < wealth initialCash (navs ++ [nav]) i :=
      fun i hi => wealth_pos hinitial hpos (hi.trans_eq hlength.symm)
    have hpeak' := (hpeak.congr hsame).succ
    have hfall' := (hfall.congr hsame).succ hpositive hpeak'
    rw [hnext] at hpeak' hfall'
    have hnonzero : max (navs.foldl drawdownStep (initialCash, 0)).1 nav ≠ 0 :=
      (lt_max_of_lt_right (hpos nav (by simp))).ne'
    have hstep : (navs ++ [nav]).foldl drawdownStep (initialCash, 0)
        = (max (navs.foldl drawdownStep (initialCash, 0)).1 nav,
          max (navs.foldl drawdownStep (initialCash, 0)).2
            (1 - nav / max (navs.foldl drawdownStep (initialCash, 0)).1 nav)) := by
      rw [foldl_append, foldl_cons, foldl_nil]
      exact drawdownStep_eq hnonzero
    rw [hstep, hlength]
    exact ⟨hpeak', hfall'⟩

end Returns

-- ==== the attribution

section Attribution

variable {states : List IdentifiedState} {last : IdentifiedState}

/-- The contributions of the symbols are what the states realized and what is
unrealized in the last. -/
theorem symbolPnl_eq (hsymbols : (last.attribution.map (·.symbol)).Nodup) :
    symbolPnl (performanceAttribution states last)
      = ((states.flatMap (·.attribution)).map (·.realizedPnl)).sum
        + (last.attribution.map (·.unrealizedPnl)).sum := by
  have hother : (costRows states ++ missingRows).filter (·.dimension = "SYMBOL") = [] := rfl
  have hrows : (symbolRows states last).filter (·.dimension = "SYMBOL")
      = symbolRows states last := by
    refine filter_eq_self.mpr fun row hrow => ?_
    obtain ⟨symbol, -, rfl⟩ := mem_map.mp hrow
    rfl
  have hperm := ((sortBy_perm (fun row : PerformanceAttribution =>
      toLex (row.dimension, row.key))
    (symbolRows states last ++ costRows states ++ missingRows)).filter
      (·.dimension = "SYMBOL")).filterMap (·.contribution)
  obtain ⟨hrealized, hsum⟩ := sumItems_groupSums (fun row => row.symbol)
    (fun row : ShadowPortfolioAttribution => row.realizedPnl)
    (states.flatMap (·.attribution))
  have hkeys : Lib.keys (last.attribution.map fun item => (item.symbol, item.unrealizedPnl))
      = last.attribution.map (·.symbol) := by
    unfold Lib.keys
    rw [map_map]
    rfl
  unfold symbolPnl performanceAttribution
  rw [hperm.sum_eq, append_assoc, filter_append, hother, append_nil, hrows]
  unfold symbolRows
  rw [dictOf_eq (hkeys ▸ hsymbols), filterMap_map]
  show (List.filterMap (fun symbol => some _) _).sum = _
  rw [filterMap_eq_map', sum_map_add, ← hsum]
  have hnames := fun (dict other : List (String × ℚ)) =>
    (sortedDistinct_pairwise (Lib.keys dict ++ Lib.keys other)).nodup
  congr 1
  · rw [← sum_getD_lookup hrealized (hnames _ _)]
    · simp only [Option.map_id]
      rfl
    · exact fun symbol h => mem_sortedDistinct.mpr (mem_append_left _ h)
  · have hlast : (last.attribution.map (·.unrealizedPnl)).sum = sumItems id
        (last.attribution.map fun item => (item.symbol, item.unrealizedPnl)) := by
      simp [sumItems, Function.comp_def]
    rw [hlast, ← sum_getD_lookup (hkeys ▸ hsymbols) (hnames _ _)]
    · simp only [Option.map_id]
      rfl
    · exact fun symbol h => mem_sortedDistinct.mpr (mem_append_right _ h)

end Attribution

-- ==== the report

section Report

variable {portfolio : ShadowPortfolio} {days : List DayInput}
  {states : List ShadowPortfolioDayState} {last : ShadowPortfolioDayState}
  {identify : StateValues → Option ValidationArtifactReference → String × String}
  {inputs : List IdentifiedState} {policy : PerformancePolicy} {calendar : Day → Shared.Date}
  {createdAt generatedAt : Instant}

structure ReportLaw (portfolio : ShadowPortfolio) (states : List ShadowPortfolioDayState)
    (last : ShadowPortfolioDayState) (report : PortfolioPerformanceReport) : Prop where
  reconciled : report.reconciliationDifference = 0
  symbols : symbolPnl report.attribution = last.nav - portfolio.initialCash
  contributions : symbolPnl report.attribution
    = (states.map fun s => (s.attribution.map (·.realizedPnl)).sum).sum
      + (last.attribution.map (·.unrealizedPnl)).sum
  cumulative : report.metrics.lookup "cumulative_return"
    = some (last.nav / portfolio.initialCash - 1)
  monthly : compound (report.monthlyReturns.map (·.value)) = last.nav / portfolio.initialCash - 1
  monthly_sessions : (report.monthlyReturns.map (·.sessionCount)).sum = states.length
  yearly : compound (report.yearlyReturns.map (·.value)) = last.nav / portfolio.initialCash - 1
  yearly_sessions : (report.yearlyReturns.map (·.sessionCount)).sum = states.length
  drawdown : ∃ fall, report.metrics.lookup "maximum_drawdown" = some fall
    ∧ IsGreatest {d | ∃ i j, i ≤ j ∧ j ≤ states.length
      ∧ d = 1 - wealth portfolio.initialCash (states.map (·.nav)) j
        / wealth portfolio.initialCash (states.map (·.nav)) i} fall

theorem last_nav_eq (h : runDays portfolio none days = .ok states)
    (hlast : states.getLast? = some last) : last.nav = portfolio.initialCash
      + (states.map realizedOn).sum + (last.attribution.map (·.unrealizedPnl)).sum := by
  rw [getLast?_eq_getElem?] at hlast
  obtain ⟨hcash, hnav, -⟩ := @runDays_conserves portfolio none days states trivial h
    (states.length - 1) last hlast
  have hchain : Chain portfolio none states := runDays_chain trivial h
  obtain ⟨before, hfollows⟩ := hchain.follows last (mem_of_getElem? hlast)
  rw [hnav, hcash, hfollows.unrealized, take_of_length_le (by omega)]
  rfl

/-- On a chain, the report fails on the times of the states only. -/
theorem build_eq (h : runDays portfolio none days = .ok states)
    (hpos : ∀ state ∈ states, 0 < state.nav) (hlast : states.getLast? = some last)
    (hinputs : inputs.Perm (identified identify none states)) :
    ∃ report, ReportLaw portfolio states last report
      ∧ buildPortfolioPerformanceReport portfolio createdAt calendar inputs policy generatedAt = (do
          checkFollows none (identified identify none states)
          require (createdAt ≤ generatedAt
              ∧ ∀ item ∈ identified identify none states, item.recordedAt ≤ generatedAt)
            (.valueError "Performance generated_at predates required input availability")
          return report) := by
  have hchain : Chain portfolio none states := runDays_chain trivial h
  have hsort := sortBy_identified hchain hinputs
  have hids := identified_states identify none states
  generalize identified identify none states = ident at hsort hids ⊢
  have hinitial := portfolio.initial_cash_positive
  -- the first and the last of the stored states
  have hlast' := hlast
  rw [← hids, getLast?_map] at hlast'
  obtain ⟨item, hitem, rfl⟩ := Option.map_eq_some_iff.mp hlast'
  obtain ⟨first, hfirst⟩ : ∃ first, ident.head? = some first :=
    Option.ne_none_iff_exists'.mp fun hnone => by
      rw [head?_eq_none_iff.mp hnone] at hitem
      cases hitem
  obtain ⟨values, hvalues, hlength, hprod⟩ := returns_ok hinitial
    fun s (hs : s ∈ ident) => hpos _ (hids ▸ mem_map_of_mem hs)
  rw [hitem, Option.elim_some] at hprod
  -- what the symbols contribute
  have hmem : item.toShadowPortfolioDayState ∈ states :=
    hids ▸ mem_map_of_mem (mem_of_getLast? hitem)
  obtain ⟨_, hfollows⟩ := hchain.follows _ hmem
  have hsymbols : symbolPnl (performanceAttribution ident item) = _ := symbolPnl_eq hfollows.symbols
  have hrealized : ((ident.flatMap (·.attribution)).map (·.realizedPnl)).sum
      = (states.map realizedOn).sum := by
    rw [← hids, map_map, flatMap_def, map_flatten, sum_flatten,
      map_map, map_map]
    rfl
  rw [hrealized] at hsymbols
  have hnav := last_nav_eq h hlast
  have hdifference : item.nav - portfolio.initialCash
      - symbolPnl (performanceAttribution ident item) = 0 := by
    rw [hsymbols, hnav]
    ring
  have hstates : ident.length = states.length := by rw [← hids, length_map]
  have hcompound : compound values = item.nav / portfolio.initialCash - 1 := by
    rw [compound_eq, hprod]
  have hmonthly := periodReturns_spec calendar false hlength
  have hyearly := periodReturns_spec calendar true hlength
  rw [hcompound, hstates] at hmonthly hyearly
  have hnavs : ident.map (·.nav) = states.map (·.nav) := by
    rw [← hids, map_map]
    rfl
  have hfall : IsDrawdown (wealth _ (states.map (·.nav))) _ _ :=
    isDrawdown_maximumDrawdown hinitial (forall_mem_map.mpr hpos)
  rw [length_map] at hfall
  refine ⟨reportOf portfolio calendar ident first item values generatedAt, ?_, ?_⟩
  · constructor
    case drawdown => exact ⟨_, congrArg (fun navs => some (maximumDrawdown _ navs)) hnavs, hfall⟩
    case reconciled => exact hdifference
    case symbols => exact (sub_eq_zero.mp hdifference).symm
    case contributions => exact hsymbols
    case cumulative => rfl
    case monthly => exact hmonthly.1
    case monthly_sessions => exact hmonthly.2
    case yearly => exact hyearly.1
    case yearly_sessions => exact hyearly.2
  · -- every check but those of the times passes
    unfold buildPortfolioPerformanceReport
    have hnodup : (ident.map (·.tradingDate)).Nodup := by
      have hdates := hchain.dates.2
      rw [← hids, pairwise_map] at hdates
      exact pairwise_map.mpr (hdates.imp fun hlt => hlt.ne)
    have hsequence : ident.map (·.sequence) = List.range' 1 ident.length := by
      have hall := hchain.sequences
      rw [← hids, map_map, length_map] at hall
      exact hall
    have hportfolio : ∀ s ∈ ident, s.portfolioReference.artifactId = portfolio.portfolioId
        ∧ s.portfolioReference.contentHash = portfolio.portfolioHash := by
      intro s hs
      obtain ⟨_, hs⟩ := hchain.follows _ (hids ▸ mem_map_of_mem hs)
      exact ⟨hs.portfolio_id, hs.portfolio_hash⟩
    have htolerance : |(reportOf portfolio calendar ident first item values
        generatedAt).reconciliationDifference| ≤ policy.reconciliationTolerance := by
      rw [show (reportOf portfolio calendar ident first item values
        generatedAt).reconciliationDifference = 0 from hdifference, abs_zero]
      exact policy.tolerance_nonneg
    simp only [hsort, hfirst, hitem, Option.elim_some, Option.getD_some, ok_bind,
      require_true hnodup, require_true hsequence, require_true hportfolio, hvalues,
      require_true htolerance]

/-- **The performance report is consistent**: on every chain of days with positive net
asset values it fails, if at all, on the times of the states, and what it says
reconciles. -/
theorem performance_report_consistent (h : runDays portfolio none days = .ok states)
    (hpos : ∀ state ∈ states, 0 < state.nav) (hlast : states.getLast? = some last)
    (hinputs : inputs.Perm (identified identify none states)) :
    (∀ e, buildPortfolioPerformanceReport portfolio createdAt calendar inputs policy
        generatedAt = .error e →
      e = .valueError "Portfolio Shadow state recorded time is not monotonic"
        ∨ e = .valueError "Performance generated_at predates required input availability")
      ∧ ∀ report, buildPortfolioPerformanceReport portfolio createdAt calendar inputs policy
          generatedAt = .ok report → ReportLaw portfolio states last report := by
  obtain ⟨report, hlaw, heq⟩ := @build_eq portfolio days states last identify inputs policy
    calendar createdAt generatedAt h hpos hlast hinputs
  rw [heq]
  constructor
  · intro e he
    rcases bind_error.mp he with hfollows | ⟨-, -, he⟩
    · exact .inl (@checkFollows_error identify states none e hfollows)
    · rcases bind_error.mp he with htime | ⟨-, -, he⟩
      · exact .inr (require_error.mp htime).2.symm
      · cases he
  · intro report' hok
    simp only [bind_ok, pure_ok] at hok
    obtain ⟨-, -, -, -, rfl⟩ := hok
    exact hlaw

end Report

def sampleIdentify (values : StateValues) (_ : Option ValidationArtifactReference) :
    String × String :=
  (values.sequence.repr, "sha256:state")

def sampleCalendar (_ : Day) : Shared.Date := .sample

theorem performance_report_consistent_sample : ∃ states last report,
    runDays samplePortfolio none sampleDays = .ok states
      ∧ buildPortfolioPerformanceReport samplePortfolio 0 sampleCalendar
        (identified sampleIdentify none states) ⟨"policy", "sha256:policy", 0, le_rfl⟩ 2
        = .ok report
      ∧ ReportLaw samplePortfolio states last report := by
  obtain ⟨states, hstates⟩ := exists_of_isOk
    (show (runDays samplePortfolio none sampleDays).isOk by decide +kernel)
  have hall : (runDays samplePortfolio none sampleDays).toOption.all (fun states =>
      states.all (0 < ·.nav) && (buildPortfolioPerformanceReport samplePortfolio 0
        sampleCalendar (identified sampleIdentify none states)
        ⟨"policy", "sha256:policy", 0, le_rfl⟩ 2).isOk) = true := by decide +kernel
  rw [hstates] at hall
  obtain ⟨hpos, hbuild⟩ := Bool.and_eq_true_iff.mp hall
  obtain ⟨report, hreport⟩ := exists_of_isOk hbuild
  have hlen : 1 < states.length := by
    rw [length_runDays hstates]
    decide
  have hne : states ≠ [] := ne_nil_of_length_pos (by omega)
  have hlast := getLast?_eq_some_getLast hne
  exact ⟨states, _, report, hstates, hreport, (performance_report_consistent hstates
    (by simpa using hpos) hlast (.refl _)).2 report hreport⟩

end MarketRegimeAlpha.Shadow
