/-
The funding of an episode without fees.

# Down and to the nearest

The units of a leg are rounded down, and what they cost is rounded to the
nearest cent. So a leg may cost up to half a cent more than its share of
the capital, and an episode that allocates all of its capital may cost
more than it has: it is closed exactly when it does not (`Funded`).
-/
import MarketRegimeAlpha.Lib.HalfEven
import MarketRegimeAlpha.ResearchQualification.Proofs.EpisodeAcceptance

namespace MarketRegimeAlpha.ResearchQualification

open Lib List

variable {policy : EpisodePolicy} {legs : List EpisodeLeg}

-- ==== the cost

/-- What a leg costs at its entry, in cents. -/
def EpisodePolicy.bought (policy : EpisodePolicy) (leg : EpisodeLeg) : ℚ :=
  (leg.entryPrice.map fun price => policy.notional (policy.units leg price) price).getD 0

theorem EpisodePolicy.one_le_precision (policy : EpisodePolicy) : 1 ≤ policy.decimalPrecision :=
  le_trans (by norm_num) policy.precision_bounds.1

theorem cent_pos : (0 : ℚ) < cent := by
  unfold cent
  norm_num

theorem capital_eq (policy : EpisodePolicy) : ∃ K : Nat, K < 10 ^ policy.decimalPrecision
      ∧ policy.initialCapital = (K : ℚ) / 10 ^ 2 := by
  obtain ⟨hcents, hbound⟩ := policy.capital_cents
  generalize hn : halfEven (policy.initialCapital / cent) = n at hcents
  have hcapital : policy.initialCapital = n * cent := by
    rw [hcents]
    unfold quantize
    rw [hn]
  have hpos : 0 < n := by
    have h := policy.capital_pos
    rw [hcapital] at h
    exact_mod_cast pos_of_mul_pos_left h cent_pos.le
  obtain ⟨K, rfl⟩ := Int.eq_ofNat_of_zero_le hpos.le
  refine ⟨K, ?_, ?_⟩
  · rw [hcapital, mul_div_cancel_right₀ _ cent_pos.ne'] at hbound
    exact_mod_cast hbound
  · rw [hcapital, Int.cast_natCast]
    unfold cent
    ring

theorem quantize_cents {x : ℚ} (hx : 0 ≤ x) :
    ∃ k : Nat, quantize halfEven cent x = (k : ℚ) / 10 ^ 2 := by
  have hzero : 0 ≤ quantize halfEven cent x := by
    have h := quantize_mono cent_pos hx
    have hunits := quantize_units cent_pos.ne' 0
    rw [Int.cast_zero, zero_mul] at hunits
    rwa [hunits] at h
  unfold quantize at hzero ⊢
  have hint : (0 : Int) ≤ halfEven (x / cent) := by
    exact_mod_cast nonneg_of_mul_nonneg_left hzero cent_pos
  obtain ⟨k, hk⟩ := Int.eq_ofNat_of_zero_le hint
  refine ⟨k, ?_⟩
  rw [hk, Int.cast_natCast]
  unfold cent
  ring

section Leg

variable (policy) (leg : EpisodeLeg) {price : ℚ}

theorem share_nonneg (hprice : 0 < price) : 0 ≤ policy.share leg price := by
  apply roundSignificant_nonneg
  apply div_nonneg _ hprice.le
  exact roundSignificant_nonneg (mul_nonneg policy.capital_pos.le leg.weight_fraction.1)

theorem units_bounds (hprice : 0 < price) : 0 ≤ policy.units leg price
    ∧ policy.units leg price ≤ policy.share leg price := by
  have hunit : (0 : ℚ) < 1 / 10 ^ 18 := by norm_num
  have h := quantize_truncate hunit (share_nonneg policy leg hprice)
  exact ⟨h.1, h.2.1⟩

theorem notional_cents {units : ℚ} (hunits : 0 ≤ units) (hprice : 0 < price) :
    ∃ k : Nat, policy.notional units price = (k : ℚ) / 10 ^ 2 :=
  quantize_cents (roundSignificant_nonneg (mul_nonneg hunits hprice.le))

/-- The cost of the units, not yet in cents, is within the share of the leg
and the errors of the context. -/
theorem cost_le (hprice : 0 < price) : policy.round (policy.units leg price * price)
      ≤ policy.initialCapital * leg.proposedWeight * (1 + 20 / 10 ^ policy.decimalPrecision) := by
  set ε : ℚ := 5 / 10 ^ policy.decimalPrecision with hε
  have hεpos : 0 ≤ ε := by positivity
  have hεsmall : ε ≤ 1 / 4 := by
    rw [hε, div_le_iff₀ (by positivity)]
    have hpow : (10 : ℚ) ^ 34 ≤ 10 ^ policy.decimalPrecision :=
      pow_le_pow_right₀ (by norm_num) policy.precision_bounds.1
    linarith only [hpow]
  set x := policy.initialCapital * leg.proposedWeight with hx
  have hx0 : 0 ≤ x := mul_nonneg policy.capital_pos.le leg.weight_fraction.1
  have hround : ∀ {y : ℚ}, 0 ≤ y → policy.round y ≤ y * (1 + ε) :=
    fun hy => roundSignificant_le_mul hy
  have hshare : policy.share leg price ≤ x * (1 + ε) / price * (1 + ε) := by
    have hamount := hround hx0
    have hamount0 : 0 ≤ policy.round x := roundSignificant_nonneg hx0
    apply (hround (div_nonneg hamount0 hprice.le)).trans
    apply mul_le_mul_of_nonneg_right _ (by linarith only [hεpos])
    exact div_le_div_of_nonneg_right hamount hprice.le
  obtain ⟨hunits0, hunits⟩ := units_bounds policy leg hprice
  calc policy.round (policy.units leg price * price) ≤ policy.units leg price * price * (1 + ε) :=
        hround (mul_nonneg hunits0 hprice.le)
    _ ≤ x * (1 + ε) / price * (1 + ε) * price * (1 + ε) := by
        apply mul_le_mul_of_nonneg_right _ (by linarith only [hεpos])
        exact mul_le_mul_of_nonneg_right (hunits.trans hshare) hprice.le
    _ = x * (1 + ε) ^ 3 := by field_simp
    _ ≤ x * (1 + 20 / 10 ^ policy.decimalPrecision) := by
        apply mul_le_mul_of_nonneg_left _ hx0
        have h20 : 20 / 10 ^ policy.decimalPrecision = 4 * ε := by
          ring
        rw [h20]
        nlinarith only [hεpos, hεsmall, mul_nonneg hεpos hεpos]

theorem bought_cents : ∃ k : Nat, policy.bought leg = (k : ℚ) / 10 ^ 2 := by
  unfold EpisodePolicy.bought
  cases hentry : leg.entryPrice with
  | none => exact ⟨0, by simp⟩
  | some price =>
    have hprice : 0 < price := leg.prices_pos.1 price hentry
    exact notional_cents policy (units_bounds policy leg hprice).1 hprice

variable {policy leg} (hentry : leg.entryPrice = some price)

include hentry in
theorem bought_of_price : policy.bought leg = policy.notional (policy.units leg price) price := by
  unfold EpisodePolicy.bought
  rw [hentry]
  rfl

include hentry in
/-- A leg costs its share of the capital, the errors of the context and half
a cent at most. -/
theorem bought_le : policy.bought leg ≤ policy.initialCapital * leg.proposedWeight
      * (1 + 20 / 10 ^ policy.decimalPrecision) + 1 / 200 := by
  have hcost := cost_le policy leg (leg.prices_pos.1 price hentry)
  have herror := (abs_le.mp (abs_quantize_sub_le cent_pos
    (policy.round (policy.units leg price * price)))).2
  have hhalf : cent / 2 = 1 / 200 := by
    unfold cent
    norm_num
  rw [bought_of_price hentry]
  unfold EpisodePolicy.notional
  linarith only [hcost, herror, hhalf]

include hentry in
/-- A leg whose share is a number of cents costs no more than its share, as
long as the errors of the context are below half a cent. -/
theorem bought_le_share (hcapital : policy.initialCapital ≤ 10 ^ policy.decimalPrecision / 10 ^ 4)
    {k : Nat} (hk : policy.initialCapital * leg.proposedWeight = (k : ℚ) / 10 ^ 2) :
    policy.bought leg ≤ policy.initialCapital * leg.proposedWeight := by
  have hcost := cost_le policy leg (leg.prices_pos.1 price hentry)
  have hshare : policy.initialCapital * leg.proposedWeight
      ≤ 10 ^ policy.decimalPrecision / 10 ^ 4 :=
    (mul_le_of_le_one_right policy.capital_pos.le leg.weight_fraction.2).trans hcapital
  have hpow : (0 : ℚ) < 10 ^ policy.decimalPrecision := by positivity
  have herror : policy.initialCapital * leg.proposedWeight
      * (20 / 10 ^ policy.decimalPrecision) ≤ 2 / 1000 := by
    rw [mul_div_assoc', div_le_iff₀ hpow]
    linarith only [hshare]
  have hcents : policy.initialCapital * leg.proposedWeight = ((k : Int) : ℚ) * cent := by
    rw [hk, Int.cast_natCast]
    unfold cent
    ring
  rw [bought_of_price hentry, hcents]
  apply quantize_le_of_lt cent_pos
  have hhalf : cent / 2 = 1 / 200 := by
    unfold cent
    norm_num
  rw [hhalf, ← hcents]
  linarith only [hcost, herror]

theorem bought_of_weight (h : leg.proposedWeight = 0) : policy.bought leg = 0 := by
  unfold EpisodePolicy.bought
  cases leg.entryPrice with
  | none => rfl
  | some price =>
    have hshare : policy.share leg price = 0 := by
      unfold EpisodePolicy.share
      rw [h, mul_zero, EpisodePolicy.round_zero, zero_div, EpisodePolicy.round_zero]
    have hunits : policy.units leg price = 0 := by
      unfold EpisodePolicy.units
      rw [hshare]
      unfold quantize truncate
      simp
    show policy.notional (policy.units leg price) price = 0
    unfold EpisodePolicy.notional
    have hzero := quantize_units cent_pos.ne' 0
    rw [Int.cast_zero, zero_mul] at hzero
    rw [hunits, zero_mul, EpisodePolicy.round_zero, hzero]

end Leg

-- ==== the trades

structure EpisodeLeg.Tradable (policy : EpisodePolicy) (leg : EpisodeLeg) : Prop where
  authorized : leg.riskStatus = .authorized
  available : leg.availability = "AVAILABLE"
  basis : leg.priceBasis = policy.priceBasis
  priced : leg.entryPrice.isSome ∧ leg.exitPrice.isSome

def EpisodePolicy.NoFees (policy : EpisodePolicy) : Prop :=
  policy.buyFeeBps = 0 ∧ policy.sellFeeBps = 0

/-- A trade without fees. -/
structure Bought (policy : EpisodePolicy) (leg : EpisodeLeg) (trade : EpisodeLegResult) : Prop where
  buy : trade.buyNotional = policy.bought leg
  sell : 0 ≤ trade.sellNotional
  buyFee : trade.buyFee = 0
  sellFee : trade.sellFee = 0

variable {leg : EpisodeLeg}

theorem EpisodeLeg.Tradable.complete (h : leg.Tradable policy) : ¬ leg.Incomplete policy := by
  rintro ⟨-, hlacks⟩
  rcases hlacks with hlacks | hlacks | hlacks | hlacks
  · exact hlacks h.available
  · exact hlacks h.basis
  · have hpriced := h.priced.1
    rw [hlacks] at hpriced
    cases hpriced
  · have hpriced := h.priced.2
    rw [hlacks] at hpriced
    cases hpriced

theorem fee_zero (amount : ℚ) : quantize halfEven cent (policy.fee amount 0) = 0 := by
  have hzero := quantize_units cent_pos.ne' 0
  rw [Int.cast_zero, zero_mul] at hzero
  unfold EpisodePolicy.fee
  rw [mul_zero, EpisodePolicy.round_zero, zero_div, EpisodePolicy.round_zero, hzero]

theorem tradeLeg_bought (hfees : policy.NoFees) (h : leg.Tradable policy)
    {trade : EpisodeLegResult} (htrade : tradeLeg policy leg = .ok (.ok trade)) :
    Bought policy leg trade := by
  by_cases hidle : leg.idle
  · have hweight : leg.proposedWeight = 0 := hidle.resolve_left (not_not_intro h.authorized)
    unfold tradeLeg at htrade
    rw [if_pos hidle] at htrade
    cases htrade
    exact ⟨(bought_of_weight hweight).symm, le_rfl, rfl, rfl⟩
  · obtain ⟨entryPrice, exitPrice, hentry, hexit, hat⟩ := tradeLeg_complete h.complete hidle
    rw [hat] at htrade
    cases htradeAt : tradeAt policy leg entryPrice exitPrice with
    | error e =>
      rw [htradeAt] at htrade
      cases htrade
    | ok trade' =>
      rw [htradeAt] at htrade
      cases htrade
      obtain ⟨-, hamounts⟩ := tradeAt_amounts htradeAt
      have hunits := units_bounds policy leg (leg.prices_pos.1 entryPrice hentry)
      obtain ⟨k, hk⟩ := notional_cents policy hunits.1 (leg.prices_pos.2 exitPrice hexit)
      constructor
      case buy => rw [hamounts.buy, bought_of_price hentry]
      case sell =>
        rw [hamounts.sell, hk]
        positivity
      case buyFee => rw [hamounts.buyFee, hfees.1, fee_zero]
      case sellFee => rw [hamounts.sellFee, hfees.2, fee_zero]

variable {legs : List EpisodeLeg}

theorem tradeLegs_bought (hfees : policy.NoFees)
    (h : ∀ leg ∈ legs, leg.Tradable policy) {outcome : Except EpisodeReason (List EpisodeLegResult)}
    (houtcome : tradeLegs policy legs = .ok outcome) :
    ∃ trades, outcome = .ok trades ∧ List.Forall₂ (Bought policy) legs trades := by
  induction legs generalizing outcome with
  | nil =>
    cases houtcome
    exact ⟨[], rfl, .nil⟩
  | cons leg legs ih =>
    rw [forall_mem_cons] at h
    obtain ⟨first, hfirst, houtcome⟩ := bind_ok.mp houtcome
    obtain ⟨trade, rfl⟩ := tradeLeg_trade h.1.complete hfirst
    obtain ⟨rest, hrest, houtcome⟩ := bind_ok.mp houtcome
    obtain ⟨trades, rfl, hall⟩ := ih h.2 hrest
    cases houtcome
    exact ⟨_, rfl, .cons (tradeLeg_bought hfees h.1 hfirst) hall⟩

-- ==== the settling

/-- Without fees, an episode is closed exactly when its trades cost no more
than the capital. -/
theorem settle_reason {episodeKey : String}
    {trades : List EpisodeLegResult} (htrades : List.Forall₂ (Bought policy) legs trades) :
    (settle policy episodeKey legs trades).reason
      = if (legs.map policy.bought).sum ≤ policy.initialCapital then
          .episodeClosed
        else .insufficientCashForCosts := by
  have hprec := policy.one_le_precision
  obtain ⟨K, hK, hcapital⟩ := capital_eq policy
  have hexact : Exact policy.decimalPrecision policy.initialCapital := by
    rw [hcapital]
    exact exact_natCast_div hK
  have hbuys : trades.map (·.buyNotional) = legs.map policy.bought :=
    (map_forall₂ htrades fun leg trade h => h.buy.symm).symm
  have hzero : ∀ column : EpisodeLegResult → ℚ,
      (∀ leg trade, Bought policy leg trade → column trade = 0) →
        sumContext policy.decimalPrecision (trades.map column) = 0 := by
    intro column hcolumn
    apply sumContext_zero
    rw [forall_mem_map]
    intro trade htrade
    obtain ⟨leg, -, h⟩ := forall₂_right htrades htrade
    exact hcolumn leg trade h
  have hsells : 0 ≤ sumContext policy.decimalPrecision (trades.map (·.sellNotional)) := by
    apply sumContext_nonneg
    rw [forall_mem_map]
    intro trade htrade
    obtain ⟨leg, -, h⟩ := forall₂_right htrades htrade
    exact h.sell
  have hwithin : sumContext policy.decimalPrecision (legs.map policy.bought)
      ≤ policy.initialCapital ↔ (legs.map policy.bought).sum ≤ policy.initialCapital := by
    rw [hcapital]
    apply sumContext_le_iff hprec hK
    rw [forall_mem_map]
    exact fun leg _ => bought_cents policy leg
  have hbuyFees := hzero (·.buyFee) fun _ _ h => h.buyFee
  have hsellFees := hzero (·.sellFee) fun _ _ h => h.sellFee
  have hneg : ∀ x : ℚ, policy.round x < 0 ↔ x < 0 := fun x => roundSignificant_neg_iff hprec
  unfold settle
  dsimp only
  split
  next hcash =>
    rw [hbuys, hbuyFees, sub_zero, hneg, hneg, sub_neg, ← not_le, hwithin] at hcash
    rw [if_neg hcash]
    rfl
  next hcash =>
    rw [hbuys, hbuyFees, sub_zero, hneg, hneg, sub_neg, ← not_le, not_not, hwithin] at hcash
    split
    next hfinal =>
      -- what the legs are sold for only adds to the cash
      rw [hbuys, hbuyFees, hsellFees, add_zero, EpisodePolicy.round_zero,
        sub_zero, hneg, hneg, sub_neg] at hfinal
      have hsum := hexact.le_round hprec
        (le_add_of_nonneg_right hsells : policy.initialCapital ≤ _ + _)
      exact absurd hfinal (not_lt.mpr ((hwithin.mpr hcash).trans hsum))
    next => rfl

theorem visits_closed {gs : List (EpisodeLeg × List EpisodeLeg)} {s s' : Visits}
    (h : gs.foldlM (visit policy) s = .ok s') :
    ∃ es, s'.2 = s.2 ++ es ∧ List.Forall₂ (fun g e =>
      closeEpisode policy g.1.episodeKey (sortBy (·.instrumentId) g.2) = .ok e)
        gs es := by
  induction gs generalizing s with
  | nil =>
    cases h
    exact ⟨[], (append_nil _).symm, .nil⟩
  | cons g gs ih =>
    rw [foldlM_cons, bind_ok] at h
    obtain ⟨s₁, hfirst, hrest⟩ := h
    obtain ⟨-, -, -, e, he, rfl⟩ := visitGroup_ok.mp hfirst
    obtain ⟨es, hes, hall⟩ := ih hrest
    refine ⟨e :: es, ?_, .cons he hall⟩
    rw [hes, append_assoc, singleton_append]

-- ==== the law

def costs (policy : EpisodePolicy) (legs : List EpisodeLeg) (episodeKey : String) : List ℚ :=
  (roster legs episodeKey).map policy.bought

structure Funded (policy : EpisodePolicy) (legs : List EpisodeLeg) (e : EpisodeResult) : Prop where
  reason : e.reason = .episodeClosed ∨ e.reason = .insufficientCashForCosts
  closed_iff : e.reason = .episodeClosed
    ↔ (costs policy legs e.episodeKey).sum ≤ policy.initialCapital
  bound : (costs policy legs e.episodeKey).sum
    ≤ policy.initialCapital * (1 + 20 / 10 ^ policy.decimalPrecision)
      + (costs policy legs e.episodeKey).length / 200
  whole_cents : policy.initialCapital ≤ 10 ^ policy.decimalPrecision / 10 ^ 4 →
    (∀ leg ∈ roster legs e.episodeKey, ∃ k : Nat,
      policy.initialCapital * leg.proposedWeight = (k : ℚ) / 10 ^ 2) →
    e.reason = .episodeClosed

/-- What the legs of an episode cost at most, when each costs at most a
multiple of its share and something more. -/
theorem sum_bought_le (policy : EpisodePolicy) {group : List EpisodeLeg}
    {factor : ℚ} (more : ℚ) (hfactor : 0 ≤ factor)
    (hweights : (group.map (·.proposedWeight)).sum ≤ 1)
    (h : ∀ leg ∈ group, policy.bought leg
      ≤ policy.initialCapital * leg.proposedWeight * factor + more) :
    (group.map policy.bought).sum ≤ policy.initialCapital * factor + group.length * more := by
  have hsum : (group.map policy.bought).sum
      ≤ (group.map (·.proposedWeight)).sum * (policy.initialCapital * factor)
        + group.length * more := by
    clear hweights
    induction group with
    | nil => simp
    | cons leg group ih =>
      rw [forall_mem_cons] at h
      have hrest := ih h.2
      rw [map_cons, sum_cons, map_cons, sum_cons,
        length_cons, Nat.cast_add, Nat.cast_one]
      linarith only [h.1, hrest]
  have hcapital := mul_nonneg policy.capital_pos.le hfactor
  have hscaled := mul_le_of_le_one_left hcapital hweights
  linarith only [hsum, hscaled]

/-- A path of tradable legs without fees is returned exactly when its legs
are accepted, and each of its episodes is closed exactly when what its legs
cost in cents is within the capital. -/
theorem fully_invested_episodes (policy : EpisodePolicy) (legs : List EpisodeLeg)
    (hfees : policy.NoFees) (htradable : ∀ leg ∈ legs, leg.Tradable policy)
    (hweights : ∀ leg ∈ legs, ((roster legs leg.episodeKey).map (·.proposedWeight)).sum ≤ 1) :
    ((∃ episodes, buildEpisodePath policy legs = .ok episodes) ↔ AcceptedPath policy legs)
      ∧ ∀ episodes, buildEpisodePath policy legs = .ok episodes →
        ∀ e ∈ episodes, Funded policy legs e := by
  refine ⟨exists_path, fun episodes hpath e he => ?_⟩
  obtain ⟨-, ends, hrun⟩ := buildEpisodePath_ok hpath
  obtain ⟨es, hes, hall⟩ := visits_closed hrun
  obtain rfl : episodes = es := by simpa using hes
  obtain ⟨g, hg, hclose⟩ := forall₂_right hall he
  have hkey := (closeEpisode_ok hclose).key
  have hgroup : g.2 = roster legs e.episodeKey := by
    rw [hkey]
    exact (group_spec (mem_ordered.mp hg)).2
  have hperm : (sortBy EpisodeLeg.instrumentId g.2).Perm
      (roster legs e.episodeKey) := hgroup ▸ sortBy_perm _ g.2
  have hmem : ∀ leg ∈ roster legs e.episodeKey, leg.Tradable policy :=
    fun leg hleg => htradable leg (mem_roster.mp hleg).1
  have hbelow : ((roster legs e.episodeKey).map (·.proposedWeight)).sum ≤ 1 := by
    rw [hkey]
    exact hweights g.1 (first_mem hg)
  have hpriced : ∀ leg ∈ roster legs e.episodeKey,
      ∃ price, leg.entryPrice = some price := fun leg hleg =>
    Option.isSome_iff_exists.mp (hmem leg hleg).priced.1
  -- the reason is that of the settling of the trades of the roster
  have hreason : e.reason = if (costs policy legs e.episodeKey).sum ≤ policy.initialCapital then
          .episodeClosed
        else .insufficientCashForCosts := by
    obtain ⟨outcome, houtcome, hsettle⟩ := bind_ok.mp hclose
    obtain ⟨trades, rfl, htrades⟩ := tradeLegs_bought hfees
      (fun leg hleg => hmem leg (hperm.subset hleg)) houtcome
    obtain rfl := pure_ok.mp hsettle
    rw [settle_reason htrades]
    unfold costs
    rw [(hperm.map policy.bought).sum_eq, hkey]
  have hclosed : e.reason = .episodeClosed
      ↔ (costs policy legs e.episodeKey).sum ≤ policy.initialCapital := by
    rw [hreason]
    split
    next h => exact iff_of_true rfl h
    next h => exact iff_of_false nofun h
  constructor
  case reason =>
    rw [hreason]
    split
    next => exact .inl rfl
    next => exact .inr rfl
  case closed_iff => exact hclosed
  case bound =>
    have h := sum_bought_le policy (1 / 200)
      (by positivity : 0 ≤ 1 + 20 / (10 : ℚ) ^ policy.decimalPrecision) hbelow
      fun leg hleg => by
        obtain ⟨price, hprice⟩ := hpriced leg hleg
        exact bought_le hprice
    unfold costs
    rw [length_map]
    linarith only [h]
  case whole_cents =>
    intro hcapital hwhole
    rw [hclosed]
    have h := sum_bought_le policy 0 zero_le_one hbelow fun leg hleg => by
        obtain ⟨price, hprice⟩ := hpriced leg hleg
        obtain ⟨k, hk⟩ := hwhole leg hleg
        rw [mul_one, add_zero]
        exact bought_le_share hprice hcapital hk
    rw [mul_one, mul_zero, add_zero] at h
    exact h

/-- A capital of 1000.03, without fees. -/
def oddPolicy : EpisodePolicy :=
  { samplePolicy with
    initialCapital := 100003 / 100
    buyFeeBps := 0
    sellFeeBps := 0
    fees_nonneg := by decide
    capital_pos := by norm_num
    capital_cents := by decide +kernel }

def oddLegs : List EpisodeLeg := [sampleLeg 1 1 .authorized, sampleLeg 2 2 .authorized]

theorem odd_tradable : ∀ leg ∈ oddLegs, leg.Tradable oddPolicy := by
  intro leg hleg
  have hleg : leg = sampleLeg 1 1 .authorized ∨ leg = sampleLeg 2 2 .authorized := by
    simpa [oddLegs] using hleg
  rcases hleg with rfl | rfl
  · exact ⟨rfl, rfl, rfl, rfl, rfl⟩
  · exact ⟨rfl, rfl, rfl, rfl, rfl⟩

theorem odd_weights : ∀ leg ∈ oddLegs,
    ((roster oddLegs leg.episodeKey).map (·.proposedWeight)).sum ≤ 1 := by
  decide +kernel

/-- Both halves of 1000.03 are rounded up to 500.02. -/
theorem odd_halves_unfunded : oddPolicy.NoFees ∧ (∀ leg ∈ oddLegs, leg.Tradable oddPolicy)
      ∧ (∀ leg ∈ oddLegs, ((roster oddLegs leg.episodeKey).map (·.proposedWeight)).sum ≤ 1)
      ∧ (buildEpisodePath oddPolicy oddLegs).map (·.map (·.reason))
        = .ok [.insufficientCashForCosts] :=
  ⟨⟨rfl, rfl⟩, odd_tradable, odd_weights, by decide +kernel⟩

theorem fully_invested_episodes_odd :
    ((∃ episodes, buildEpisodePath oddPolicy oddLegs = .ok episodes)
        ↔ AcceptedPath oddPolicy oddLegs)
      ∧ ∀ episodes, buildEpisodePath oddPolicy oddLegs = .ok episodes →
        ∀ e ∈ episodes, Funded oddPolicy oddLegs e :=
  fully_invested_episodes oddPolicy oddLegs ⟨rfl, rfl⟩ odd_tradable odd_weights

end MarketRegimeAlpha.ResearchQualification
