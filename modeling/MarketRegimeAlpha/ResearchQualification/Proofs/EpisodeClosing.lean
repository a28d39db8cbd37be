/-
The accounts of a closed episode.

A trade is what `Traded` says of its leg, whatever the prices are. When
no sum of the episode rounds (`ExactAmounts`), the cash of a closed
episode is the capital less what was bought and paid, the final cash is
that and what was sold less all that was paid, and the gain is the sum of
the profits of the legs (`settle_accounted`).

Legs that `Alike` relates differ at most in what an idle leg leaves
unread; they close to the same episode (`closeEpisode_alike`).
-/
import MarketRegimeAlpha.ResearchQualification.Episode

namespace MarketRegimeAlpha.ResearchQualification

open Lib List

variable {policy : EpisodePolicy}

-- ==== the trades

structure Traded (policy : EpisodePolicy) (leg : EpisodeLeg) (trade : EpisodeLegResult) : Prop where
  observation : trade.observationId = leg.observationId
  net : trade.netProfit = policy.round (policy.round (policy.round
    (trade.sellNotional - trade.buyNotional) - trade.buyFee) - trade.sellFee)
  idle : leg.idle → trade = .none leg.observationId

@[simp] theorem EpisodePolicy.round_zero : policy.round 0 = 0 := by
  unfold EpisodePolicy.round roundSignificant
  exact if_pos rfl

variable {leg : EpisodeLeg} {trade : EpisodeLegResult}

theorem traded_none : Traded policy leg (.none leg.observationId) where
  observation := rfl
  net := by simp [EpisodeLegResult.none]
  idle := fun _ => rfl

theorem tradeAt_ok {entryPrice exitPrice : ℚ} (hidle : ¬ leg.idle)
    (h : tradeAt policy leg entryPrice exitPrice = .ok trade) :
    Traded policy leg trade := by
  simp only [tradeAt, bind_ok, pure_ok] at h
  obtain ⟨units, -, buy, -, sell, -, buyFee, -, sellFee, -, rfl⟩ := h
  constructor
  case observation => rfl
  case net => rfl
  case idle => exact fun h => absurd h hidle

theorem tradeLeg_ok (h : tradeLeg policy leg = .ok (.ok trade)) : Traded policy leg trade := by
  unfold tradeLeg at h
  by_cases hidle : leg.idle
  · rw [if_pos hidle] at h
    cases h
    exact traded_none
  · rw [if_neg hidle] at h
    split at h
    next => cases h
    next =>
      split at h
      next => cases h
      next =>
        split at h
        next entryPrice exitPrice hentry hexit =>
          simp only [bind_ok, pure_ok] at h
          obtain ⟨trade', htrade, heq⟩ := h
          cases heq
          exact tradeAt_ok hidle htrade
        next => cases h

variable {legs : List EpisodeLeg} {trades : List EpisodeLegResult} {reason : EpisodeReason}

/-- The loop that no reason ends leaves a trade for each leg, in
order. -/
theorem tradeLegs_ok (h : tradeLegs policy legs = .ok (.ok trades)) :
    List.Forall₂ (Traded policy) legs trades := by
  induction legs generalizing trades with
  | nil =>
    cases h
    exact .nil
  | cons leg legs ih =>
    simp only [tradeLegs, bind_ok] at h
    obtain ⟨first, hfirst, h⟩ := h
    cases first with
    | error reason => cases h
    | ok trade =>
      simp only [bind_ok] at h
      obtain ⟨rest, hrest, h⟩ := h
      cases rest with
      | error reason => cases h
      | ok trades' =>
        cases h
        exact .cons (tradeLeg_ok hfirst) (ih hrest)

theorem tradeLeg_error (h : tradeLeg policy leg = .ok (.error reason)) :
    reason ≠ .episodeClosed := by
  unfold tradeLeg at h
  split at h
  next => cases h
  next =>
    split at h
    next =>
      cases h
      exact nofun
    next =>
      split at h
      next =>
        cases h
        exact nofun
      next =>
        split at h
        next =>
          rw [bind_ok] at h
          obtain ⟨trade, -, h⟩ := h
          cases h
        next =>
          cases h
          exact nofun

theorem tradeLegs_error (h : tradeLegs policy legs = .ok (.error reason)) :
    reason ≠ .episodeClosed := by
  induction legs with
  | nil => cases h
  | cons leg legs ih =>
    simp only [tradeLegs, bind_ok] at h
    obtain ⟨first, hfirst, h⟩ := h
    cases first with
    | error reason' =>
      cases h
      exact tradeLeg_error hfirst
    | ok trade =>
      simp only [bind_ok] at h
      obtain ⟨rest, hrest, h⟩ := h
      cases rest with
      | error reason' =>
        cases h
        exact ih hrest
      | ok trades => cases h

-- ==== the accounts

structure ExactAmounts (policy : EpisodePolicy) (trades : List EpisodeLegResult) : Prop where
  legs : ∀ t ∈ trades, Exact policy.decimalPrecision (t.sellNotional - t.buyNotional)
      ∧ Exact policy.decimalPrecision (t.sellNotional - t.buyNotional - t.buyFee)
      ∧ Exact policy.decimalPrecision (t.sellNotional - t.buyNotional - t.buyFee - t.sellFee)
  buys : ExactSum policy.decimalPrecision (trades.map (·.buyNotional))
  sells : ExactSum policy.decimalPrecision (trades.map (·.sellNotional))
  buyFees : ExactSum policy.decimalPrecision (trades.map (·.buyFee))
  sellFees : ExactSum policy.decimalPrecision (trades.map (·.sellFee))
  fees : Exact policy.decimalPrecision ((trades.map (·.buyFee)).sum + (trades.map (·.sellFee)).sum)
  bought : Exact policy.decimalPrecision (policy.initialCapital - (trades.map (·.buyNotional)).sum)
  entered : Exact policy.decimalPrecision (policy.initialCapital - (trades.map (·.buyNotional)).sum
      - (trades.map (·.buyFee)).sum)
  sold : Exact policy.decimalPrecision (policy.initialCapital + (trades.map (·.sellNotional)).sum)
  exited : Exact policy.decimalPrecision (policy.initialCapital + (trades.map (·.sellNotional)).sum
      - (trades.map (·.buyNotional)).sum)
  settled : Exact policy.decimalPrecision (policy.initialCapital + (trades.map (·.sellNotional)).sum
      - (trades.map (·.buyNotional)).sum
      - ((trades.map (·.buyFee)).sum + (trades.map (·.sellFee)).sum))

structure Accounted (e : EpisodeResult) (cash final buy sell fees : ℚ) : Prop where
  cashAfterEntry : e.cashAfterEntry = some cash
  finalCash : e.finalCash = some final
  finalUnits : e.finalUnits = some 0
  buyNotional : e.buyNotional = some buy
  sellNotional : e.sellNotional = some sell
  fees_eq : e.fees = some fees
  gain : final - e.initialCash = (e.legs.map (·.netProfit)).sum
  net : (e.legs.map (·.netProfit)).sum = sell - buy - fees
  entry : cash = e.initialCash - buy - (e.legs.map (·.buyFee)).sum
  cash_nonneg : 0 ≤ cash
  final_nonneg : 0 ≤ final

theorem sum_netProfit (htraded : List.Forall₂ (Traded policy) legs trades)
    (hexact : ExactAmounts policy trades) :
    (trades.map (·.netProfit)).sum
      = (trades.map (·.sellNotional)).sum - (trades.map (·.buyNotional)).sum
        - ((trades.map (·.buyFee)).sum + (trades.map (·.sellFee)).sum) := by
  have hlegs := hexact.legs
  clear hexact
  induction htraded with
  | nil => norm_num
  | @cons leg trade legs trades htrade _ ih =>
    obtain ⟨hgross, hbuyFee, hsellFee⟩ := hlegs trade mem_cons_self
    have hnet : trade.netProfit = trade.sellNotional - trade.buyNotional
        - trade.buyFee - trade.sellFee := by
      rw [htrade.net]
      unfold EpisodePolicy.round
      rw [hgross, hbuyFee, hsellFee]
    have hrest := ih fun t ht => hlegs t (mem_cons_of_mem trade ht)
    simp only [map_cons, sum_cons, hnet, hrest]
    ring

variable {episodeKey : String} {legs legs' : List EpisodeLeg}

theorem settle_accounted (htraded : List.Forall₂ (Traded policy) legs trades)
    (hclosed : (settle policy episodeKey legs trades).reason = .episodeClosed)
    (hexact : ExactAmounts policy trades) :
    ∃ cash final buy sell fees, Accounted
      (settle policy episodeKey legs trades) cash final buy sell fees := by
  have hnet := sum_netProfit htraded hexact
  have hfees : roundSignificant _ _ = _ := hexact.fees
  have hbought : roundSignificant _ _ = _ := hexact.bought
  have hentered : roundSignificant _ _ = _ := hexact.entered
  have hsold : roundSignificant _ _ = _ := hexact.sold
  have hexited : roundSignificant _ _ = _ := hexact.exited
  have hsettled : roundSignificant _ _ = _ := hexact.settled
  simp only [settle, EpisodePolicy.round, sumContext_eq hexact.buys,
    sumContext_eq hexact.sells, sumContext_eq hexact.buyFees,
    sumContext_eq hexact.sellFees, hfees, hbought, hentered, hsold, hexited,
    hsettled] at hclosed ⊢
  split at hclosed
  next => cases hclosed
  next hcash =>
    split at hclosed
    next => cases hclosed
    next hfinal =>
      rw [if_neg hcash, if_neg hfinal]
      refine ⟨_, _, _, _, _, rfl, rfl, rfl, rfl, rfl, rfl, ?_, hnet, rfl,
        not_lt.mp hcash, not_lt.mp hfinal⟩
      rw [hnet]
      ring

structure ClosedFrom (policy : EpisodePolicy) (episodeKey : String)
    (legs : List EpisodeLeg) (e : EpisodeResult) : Prop where
  key : e.episodeKey = episodeKey
  observations : e.observationIds = legs.map (·.observationId)
  trades : e.reason = .episodeClosed → List.Forall₂ (Traded policy) legs e.legs
  accounts : e.reason = .episodeClosed → ExactAmounts policy e.legs →
    ∃ cash final buy sell fees, Accounted e cash final buy sell fees

theorem settle_closedFrom (htraded : List.Forall₂ (Traded policy) legs trades) :
    ClosedFrom policy episodeKey legs (settle policy episodeKey legs trades) := by
  have hlegs : (settle policy episodeKey legs trades).reason = .episodeClosed →
      (settle policy episodeKey legs trades).legs = trades := by
    intro hclosed
    unfold settle at hclosed ⊢
    dsimp only at hclosed ⊢
    split at hclosed
    next => cases hclosed
    next hcash =>
      split at hclosed
      next => cases hclosed
      next hfinal => rw [if_neg hcash, if_neg hfinal]
  constructor
  case key =>
    unfold settle
    dsimp only
    split
    next => rfl
    next => split <;> rfl
  case observations =>
    unfold settle
    dsimp only
    split
    next => rfl
    next => split <;> rfl
  case trades => exact fun hclosed => (hlegs hclosed).symm ▸ htraded
  case accounts =>
    intro hclosed hexact
    rw [hlegs hclosed] at hexact
    exact settle_accounted htraded hclosed hexact

theorem closeEpisode_ok {e : EpisodeResult} (h : closeEpisode policy episodeKey legs = .ok e) :
    ClosedFrom policy episodeKey legs e := by
  unfold closeEpisode at h
  rw [bind_ok] at h
  obtain ⟨outcome, houtcome, h⟩ := h
  cases outcome with
  | error reason =>
    cases h
    have hreason := tradeLegs_error houtcome
    exact ⟨rfl, rfl, fun hclosed => absurd hclosed hreason, fun hclosed => absurd hclosed hreason⟩
  | ok trades =>
    cases h
    exact settle_closedFrom (tradeLegs_ok houtcome)

-- ==== legs that do not trade

structure EpisodeLeg.Alike (a b : EpisodeLeg) : Prop where
  observationId : a.observationId = b.observationId
  instrumentId : a.instrumentId = b.instrumentId
  episodeKey : a.episodeKey = b.episodeKey
  shape : a.shape = b.shape
  proposedWeight : a.proposedWeight = b.proposedWeight
  idle : a = b ∨ (a.idle ∧ b.idle)

theorem tradeLeg_alike {a b : EpisodeLeg} (h : a.Alike b) :
    tradeLeg policy a = tradeLeg policy b := by
  rcases h.idle with rfl | ⟨ha, hb⟩
  · rfl
  · unfold tradeLeg
    rw [if_pos ha, if_pos hb, h.observationId]

theorem tradeLegs_alike (h : List.Forall₂ EpisodeLeg.Alike legs legs') :
    tradeLegs policy legs = tradeLegs policy legs' := by
  induction h with
  | nil => rfl
  | cons hab _ ih =>
    unfold tradeLegs
    rw [tradeLeg_alike hab, ih]

theorem closeEpisode_alike (h : List.Forall₂ EpisodeLeg.Alike legs legs') :
    closeEpisode policy episodeKey legs = closeEpisode policy episodeKey legs' := by
  have hids : legs.map (·.observationId) = legs'.map (·.observationId) :=
    map_forall₂ h fun a b hab => hab.observationId
  unfold closeEpisode settle incomplete
  rw [tradeLegs_alike h, hids]

end MarketRegimeAlpha.ResearchQualification
