/-
Every trade of a chain of days is legal.

# What is carried

A position holds a positive number of whole lots under its own symbol
(`Held`); both loops keep that, since what they trade is floored to
lots. The intents and the fills of a day go in pairs, and each pair is
`Legal` when it is recorded.
-/
import Mathlib.Algebra.Order.BigOperators.Group.List
import MarketRegimeAlpha.Shadow.Proofs.Conservation

namespace MarketRegimeAlpha.Shadow

open Lib List

-- ==== whole lots

def Lots (policy : ShadowPortfolioPolicy) (quantity : ℚ) : Prop :=
  ∃ k : ℕ, quantity = k * policy.lotSize

section Lots

variable {policy policy' : ShadowPortfolioPolicy} {q r : ℚ}

theorem Lots.zero : Lots policy 0 := ⟨0, by simp⟩

theorem Lots.of_policy (h : Lots policy q) : Lots policy' q := by
  obtain ⟨k, rfl⟩ := h
  exact ⟨k, by rw [policy.lot_size_eq, policy'.lot_size_eq]⟩

theorem Lots.min (hq : Lots policy q) (hr : Lots policy r) : Lots policy (min q r) := by
  rcases min_choice q r with h | h
  · rw [h]
    exact hq
  · rw [h]
    exact hr

theorem Lots.sub (hq : Lots policy q) (hr : Lots policy r) (h : r ≤ q) : Lots policy (q - r) := by
  obtain ⟨k, rfl⟩ := hq
  obtain ⟨j, rfl⟩ := hr
  have hjk : j ≤ k := by
    have hle := (mul_le_mul_iff_left₀ policy.lotSize_pos).mp h
    exact_mod_cast hle
  exact ⟨k - j, by rw [Nat.cast_sub hjk]; ring⟩

theorem lotFloor_spec (policy : ShadowPortfolioPolicy) (hq : 0 ≤ q) :
    Lots policy (lotFloor q policy.lotSize) ∧ lotFloor q policy.lotSize ≤ q := by
  have hlot := policy.lotSize_pos
  have hnonneg : 0 ≤ q / policy.lotSize := by positivity
  unfold lotFloor roundDown
  rw [if_pos hnonneg]
  constructor
  · refine ⟨⌊q / policy.lotSize⌋.toNat, ?_⟩
    congr 1
    have hfloor : 0 ≤ ⌊q / policy.lotSize⌋ := Int.floor_nonneg.mpr hnonneg
    exact_mod_cast (Int.toNat_of_nonneg hfloor).symm
  · rw [← le_div_iff₀ hlot]
    exact Int.floor_le _

theorem lotFloor_nonpos (hq : q ≤ 0) : lotFloor q policy.lotSize ≤ 0 := by
  have hlot := policy.lotSize_pos
  refine mul_nonpos_of_nonpos_of_nonneg ?_ hlot.le
  have hle : q / policy.lotSize ≤ 0 := div_nonpos_of_nonpos_of_nonneg hq hlot.le
  unfold roundDown
  split
  · exact_mod_cast (Int.floor_le _).trans hle
  · exact_mod_cast Int.ceil_le.mpr (by simpa using hle)

theorem capacityQuantity_spec (policy : ShadowPortfolioPolicy)
    (observation : ShadowPortfolioMarketObservation) :
    Lots policy (capacityQuantity observation policy)
      ∧ ∀ amount ∈ observation.averageDailyAmount, ∀ price ∈ observation.referencePrice,
          capacityQuantity observation policy
            ≤ amount * policy.parameter "max_participation_rate" / price := by
  unfold capacityQuantity
  cases hamount : observation.averageDailyAmount with
  | none => exact ⟨Lots.zero, fun _ h => by cases h⟩
  | some amount =>
    cases hprice : observation.referencePrice with
    | none => exact ⟨Lots.zero, fun _ _ _ h => by cases h⟩
    | some price =>
      have hnonneg : 0 ≤ amount * policy.parameter "max_participation_rate" / price := by
        have ha := observation.average_daily_amount_positive _ hamount
        have hp := observation.reference_price_positive _ hprice
        have hr := policy.participation_positive
        exact div_nonneg (mul_nonneg ha.le hr.le) hp.le
      obtain ⟨hlots, hle⟩ := lotFloor_spec policy hnonneg
      refine ⟨hlots, ?_⟩
      rintro _ ⟨⟩ _ ⟨⟩
      exact hle

end Lots

-- ==== the reasons

section Reasons

variable {policy : ShadowPortfolioPolicy}

theorem statusReasons_eq_nil {status : TradingStatus} :
    statusReasons status = [] ↔ status = .trading := by
  cases status <;> simp [statusReasons]

theorem limitReasons_eq_nil {state stop : PriceLimitState} {reason : String} :
    limitReasons state stop reason = [] ↔ state ≠ .unknown ∧ state ≠ stop := by
  unfold limitReasons
  split
  · next h => simp [h]
  · next h =>
      split
      · next hstop => simp [hstop]
      · next hstop => exact ⟨fun _ => ⟨h, hstop⟩, fun _ => rfl⟩

/-- What must hold of an observation for a side to trade on it. -/
structure Tradable (observation : ShadowPortfolioMarketObservation)
    (stop : PriceLimitState) : Prop where
  status : observation.tradingStatus = .trading
  limit_known : observation.priceLimitState ≠ .unknown
  not_stopped : observation.priceLimitState ≠ stop
  price : observation.referencePrice.isSome
  amount : observation.averageDailyAmount.isSome

theorem tradable_of_buy {observation : ShadowPortfolioMarketObservation}
    (h : buyRejections observation policy = []) :
    Tradable observation .limitUp := by
  unfold buyRejections at h
  simp only [sortedDistinct_eq_nil, append_eq_nil_iff,
    statusReasons_eq_nil, limitReasons_eq_nil] at h
  obtain ⟨⟨⟨⟨⟨-, hstatus⟩, hknown, hstop⟩, -⟩, hprice⟩, hamount⟩ := h
  refine ⟨hstatus, hknown, hstop, ?_, ?_⟩
  · rw [Option.isSome_iff_ne_none]
    exact fun hnone => by simp [hnone] at hprice
  · rw [Option.isSome_iff_ne_none]
    exact fun hnone => by simp [hnone] at hamount

/-- Only a position from before the day, with a tradable observation, has
no reason not to be sold. -/
theorem tradable_of_sell {observation : Option ShadowPortfolioMarketObservation}
    {position : ShadowPortfolioPosition} {tradingDate : Day}
    (h : sellRejections observation position tradingDate policy = []) :
    position.openedOn < tradingDate ∧ ∃ o, observation = some o ∧ Tradable o .limitDown := by
  unfold sellRejections at h
  cases observation with
  | none => simp [sortedDistinct_eq_nil] at h
  | some o =>
    simp only [sortedDistinct_eq_nil, append_eq_nil_iff,
      statusReasons_eq_nil, limitReasons_eq_nil] at h
    obtain ⟨⟨⟨⟨⟨⟨hopen, -⟩, hstatus⟩, hknown, hstop⟩, -⟩, hprice⟩, hamount⟩ := h
    refine ⟨?_, o, rfl, hstatus, hknown, hstop, ?_, ?_⟩
    · by_contra hnot
      rw [if_pos ⟨policy.t_plus_one_enforced, le_of_not_gt hnot⟩] at hopen
      cases hopen
    · rw [Option.isSome_iff_ne_none]
      exact fun hnone => by simp [hnone] at hprice
    · rw [Option.isSome_iff_ne_none]
      exact fun hnone => by simp [hnone] at hamount

end Reasons

-- ==== a legal trade

/-- A legal trade: in whole lots, at most what was asked and at most the
capacity, and only for an intent without reasons on a symbol that
trades. -/
structure LegalFill (policy : ShadowPortfolioPolicy)
    (observations : List ShadowPortfolioMarketObservation)
    (order : ShadowPortfolioOrderIntent) (filled : ShadowPortfolioFill) :
    Prop where
  same_symbol : filled.symbol = order.symbol
  same_side : filled.side = order.side
  whole_lots : ∃ k : ℕ, filled.filledQuantity = k * policy.lotSize
  requested : filled.filledQuantity ≤ order.requestedQuantity
  capacity : ∀ o ∈ observations, o.symbol = order.symbol →
    ∀ amount ∈ o.averageDailyAmount, ∀ price ∈ o.referencePrice, filled.filledQuantity
        ≤ amount * policy.parameter "max_participation_rate" / price
  reasonless : filled.filledQuantity ≠ 0 → order.reasonCodes = []
  tradable : filled.filledQuantity ≠ 0 → ∃ o ∈ observations, o.symbol = order.symbol
      ∧ o.averageDailyAmount.isSome ∧ o.referencePrice.isSome
      ∧ o.tradingStatus = .trading ∧ o.priceLimitState ≠ .unknown
      ∧ (order.side = .buy → o.priceLimitState ≠ .limitUp)
      ∧ (order.side = .sell → o.priceLimitState ≠ .limitDown)

/-- A trade of the day: a legal purchase of a selected symbol, or a legal
sale of a position from before the day, of a symbol not selected. -/
structure LegalTrade (policy : ShadowPortfolioPolicy) (tradingDate : Day)
    (observations : List ShadowPortfolioMarketObservation)
    (selectedSymbols : List String) (held : List ShadowPortfolioPosition)
    (order : ShadowPortfolioOrderIntent) (filled : ShadowPortfolioFill) :
    Prop where
  legal : LegalFill policy observations order filled
  side : (order.side = .buy ∧ order.symbol ∈ selectedSymbols)
    ∨ (order.side = .sell ∧ order.symbol ∉ selectedSymbols ∧ ∃ p ∈ held, p.symbol = order.symbol
        ∧ (filled.filledQuantity ≠ 0 → p.openedOn < tradingDate))

section Fill

variable {policy : ShadowPortfolioPolicy} {observations : List ShadowPortfolioMarketObservation}
  {order : ShadowPortfolioOrderIntent} {observation : Option ShadowPortfolioMarketObservation}
  {stop : PriceLimitState} {maximum : ℚ}

/-- A fill within lots and capacity is legal, when its intent has reasons
wherever its symbol does not trade. -/
theorem legalFill_fill (hmax : 0 < maximum → Lots policy maximum)
    (hrequested : Lots policy order.requestedQuantity)
    (hcapacity : ∀ o ∈ observations, o.symbol = order.symbol →
      ∀ amount ∈ o.averageDailyAmount, ∀ price ∈ o.referencePrice,
        maximum ≤ amount * policy.parameter "max_participation_rate" / price)
    (htradable : order.reasonCodes = [] → ∃ o ∈ observations, o.symbol = order.symbol
        ∧ o.averageDailyAmount.isSome ∧ o.referencePrice.isSome
        ∧ o.tradingStatus = .trading ∧ o.priceLimitState ≠ .unknown
        ∧ (order.side = .buy → o.priceLimitState ≠ .limitUp)
        ∧ (order.side = .sell → o.priceLimitState ≠ .limitDown)) :
    LegalFill policy observations order (fill order observation policy (some maximum)) := by
  rcases fill_cases order observation policy (some maximum) with
    hun | ⟨price, hex⟩
  · exact {
      same_symbol := hun.symbol_eq
      same_side := hun.side_eq
      whole_lots := ⟨0, by simp [hun.quantity_eq]⟩
      requested := by
        obtain ⟨k, hk⟩ := hrequested
        rw [hun.quantity_eq, hk]
        positivity
      capacity := fun o ho hsymbol amount hamount price hprice => by
        have ha := o.average_daily_amount_positive amount hamount
        have hp := o.reference_price_positive price hprice
        have hr := policy.participation_positive
        rw [hun.quantity_eq]
        exact div_nonneg (mul_nonneg ha.le hr.le) hp.le
      reasonless := fun hne => absurd hun.quantity_eq hne
      tradable := fun hne => absurd hun.quantity_eq hne }
  · have hquantity := hex.quantity_eq
    have hpos : 0 < min order.requestedQuantity maximum := hquantity ▸ hex.quantity_pos
    exact {
      same_symbol := hex.symbol_eq
      same_side := hex.side_eq
      whole_lots := by
        rw [hquantity]
        exact hrequested.min (hmax (hpos.trans_le (min_le_right _ _)))
      requested := hquantity ▸ min_le_left _ _
      capacity := fun o ho hsymbol amount hamount price hprice => by
        rw [hquantity]
        exact (min_le_right _ _).trans (hcapacity o ho hsymbol amount hamount price hprice)
      reasonless := fun _ => hex.no_reason
      tradable := fun _ => htradable hex.no_reason }

end Fill

-- ==== the observations

section Observed

variable {policy : ShadowPortfolioPolicy} {observations : List ShadowPortfolioMarketObservation}
  {o : ShadowPortfolioMarketObservation} {symbol : String}

def ObservedOnce (observations : List ShadowPortfolioMarketObservation) :
    Prop :=
  (observations.map (·.symbol)).Nodup

theorem lookup_observation (hobserved : ObservedOnce observations) :
    (observationBySymbol observations).lookup symbol = some o
      ↔ o ∈ observations ∧ o.symbol = symbol := by
  have hkeys : (Lib.keys (observations.map fun item => (item.symbol, item))).Nodup := by
    unfold Lib.keys
    rw [map_map]
    exact hobserved
  unfold observationBySymbol
  rw [dictOf_eq hkeys, lookup_eq_some_iff hkeys, mem_map]
  constructor
  · rintro ⟨o', ho', heq⟩
    obtain ⟨rfl, rfl⟩ := Prod.mk.inj heq
    exact ⟨ho', rfl⟩
  · rintro ⟨ho, rfl⟩
    exact ⟨o, ho, rfl⟩

theorem eq_of_symbol (hobserved : ObservedOnce observations) {o' : ShadowPortfolioMarketObservation}
    (ho : o ∈ observations) (ho' : o' ∈ observations) (h : o'.symbol = o.symbol) : o' = o :=
  inj_on_of_nodup_map hobserved ho' ho h

theorem mem_of_selected (h : o ∈ selected policy observations) : o ∈ observations := by
  have hfilter := mem_of_mem_take h
  exact (sortBy_perm rankKey observations).mem_iff.mp (mem_filter.mp hfilter).1

end Observed

-- ==== the orders

section Orders

variable {policy : ShadowPortfolioPolicy} {tradingDate : Day}
  {observations : List ShadowPortfolioMarketObservation} {selectedSymbols : List String}
  {held : List ShadowPortfolioPosition}

/-- A sale of a position that is held is legal. -/
theorem legalTrade_sell (hobserved : ObservedOnce observations) {symbol : String}
    {position : ShadowPortfolioPosition} (hnot : symbol ∉ selectedSymbols) (hheld : position ∈ held)
    (hsymbol : position.symbol = symbol) (hlots : Lots policy position.quantity) :
    LegalTrade policy tradingDate observations selectedSymbols held
      (sellIntent policy tradingDate (observationBySymbol observations) symbol position)
      (sellFill policy tradingDate (observationBySymbol observations) symbol position) := by
  have hreasons : (sellIntent policy tradingDate
        (observationBySymbol observations) symbol position).reasonCodes = [] →
      sellRejections ((observationBySymbol observations).lookup symbol)
        position tradingDate policy = [] := by
    intro h
    unfold sellIntent intent at h
    split at h
    · simp [sortedDistinct_eq_nil] at h
    · exact h
  have hcapacity : Lots policy (sellCapacity policy (observationBySymbol observations) symbol)
      ∧ ∀ o ∈ observations, o.symbol = symbol →
        ∀ amount ∈ o.averageDailyAmount, ∀ price ∈ o.referencePrice,
          sellCapacity policy (observationBySymbol observations) symbol
            ≤ amount * policy.parameter "max_participation_rate" / price := by
    unfold sellCapacity
    cases hlookup : (observationBySymbol observations).lookup symbol with
    | none =>
      refine ⟨Lots.zero, fun o ho hsym => ?_⟩
      rw [(lookup_observation hobserved).mpr ⟨ho, hsym⟩] at hlookup
      cases hlookup
    | some o' =>
      obtain ⟨hlots, hle⟩ := capacityQuantity_spec policy o'
      refine ⟨hlots, fun o ho hsym => ?_⟩
      rw [(lookup_observation hobserved).mpr ⟨ho, hsym⟩] at hlookup
      injection hlookup with heq
      rw [heq]
      exact hle
  constructor
  case legal =>
    refine legalFill_fill (fun _ => hcapacity.1) hlots hcapacity.2 fun h => ?_
    obtain ⟨-, o, hlookup, htrade⟩ := tradable_of_sell (hreasons h)
    obtain ⟨ho, hsym⟩ := (lookup_observation hobserved).mp hlookup
    exact ⟨o, ho, hsym, htrade.amount, htrade.price, htrade.status,
      htrade.limit_known, (fun hbuy => nomatch hbuy),
      fun _ => htrade.not_stopped⟩
  case side =>
    refine .inr ⟨rfl, hnot, position, hheld, hsymbol, fun hne => ?_⟩
    rcases fill_cases (sellIntent policy tradingDate
        (observationBySymbol observations) symbol position)
        ((observationBySymbol observations).lookup symbol) policy
        (some (sellCapacity policy (observationBySymbol observations) symbol))
      with hun | ⟨price, hex⟩
    · exact absurd hun.quantity_eq hne
    · exact (tradable_of_sell (hreasons hex.no_reason)).1

/-- A purchase towards a target value that is not negative is legal. -/
theorem legalTrade_buy (hobserved : ObservedOnce observations) (cash : ℚ) {targetValue : ℚ}
    {observation : ShadowPortfolioMarketObservation} (ho : observation ∈ observations)
    (hselected : observation.symbol ∈ selectedSymbols) (htarget : 0 ≤ targetValue) :
    LegalTrade policy tradingDate observations selectedSymbols held
      (buyIntent policy cash targetValue observation)
      (buyFill policy cash targetValue observation) := by
  have hintended : Lots policy (intendedQuantity policy targetValue observation) := by
    unfold intendedQuantity
    cases hprice : observation.referencePrice with
    | none => exact Lots.zero
    | some price =>
      have hp := observation.reference_price_positive _ hprice
      exact (lotFloor_spec policy (div_nonneg htarget hp.le)).1
  have hreasons : (buyIntent policy cash targetValue observation).reasonCodes
      = [] → buyRejections observation policy = [] := by
    intro h
    unfold buyIntent intent at h
    dsimp only at h
    split at h
    · simp [sortedDistinct_eq_nil] at h
    · split at h
      · simp [sortedDistinct_eq_nil] at h
      · exact h
  have hexecutable : 0 < executableQuantity policy cash targetValue observation →
        Lots policy (executableQuantity policy cash targetValue observation) := by
    intro hpos
    have haffordable : 0 < affordableQuantity policy cash observation :=
      hpos.trans_le (min_le_right _ _)
    refine (hintended.min (capacityQuantity_spec policy observation).1).min ?_
    unfold affordableQuantity at haffordable ⊢
    cases hprice : observation.referencePrice with
    | none => exact Lots.zero
    | some price =>
      rw [hprice] at haffordable
      exact (lotFloor_spec policy (lt_of_not_ge fun hle =>
        not_lt_of_ge (lotFloor_nonpos hle) haffordable).le).1
  refine ⟨legalFill_fill hexecutable hintended ?_ ?_, .inl ⟨rfl, hselected⟩⟩
  · intro o ho' hsym amount hamount price hprice
    rw [eq_of_symbol hobserved ho ho' hsym] at hamount hprice
    have hle := (capacityQuantity_spec policy observation).2 amount hamount price hprice
    exact ((min_le_left _ _).trans (min_le_right _ _)).trans hle
  · intro h
    have htrade := tradable_of_buy (hreasons h)
    exact ⟨observation, ho, rfl, htrade.amount, htrade.price, htrade.status,
      htrade.limit_known, fun _ => htrade.not_stopped,
      fun hsell => nomatch hsell⟩

end Orders

-- ==== the loops

/-- The intents and the fills so far go in pairs that `P` holds of. -/
structure Traded (P : ShadowPortfolioOrderIntent → ShadowPortfolioFill → Prop)
    (state : Trading) : Prop where
  paired : state.intents.length = state.fills.length
  each : ∀ pair ∈ state.intents.zip state.fills, P pair.1 pair.2

theorem Traded.record {P : ShadowPortfolioOrderIntent → ShadowPortfolioFill → Prop}
    {state : Trading} {order : ShadowPortfolioOrderIntent} {filled : ShadowPortfolioFill}
    (h : Traded P state) (hP : P order filled) : Traded P (state.record order filled) := by
  constructor
  case paired =>
    show (state.intents ++ [order]).length = (state.fills ++ [filled]).length
    simp [h.paired]
  case each =>
    show ∀ pair ∈ (state.intents ++ [order]).zip (state.fills ++ [filled]), _
    rw [zip_append h.paired]
    intro pair hpair
    rcases mem_append.mp hpair with hpair | hpair
    · exact h.each pair hpair
    · rw [mem_singleton.mp hpair]
      exact hP

/-- Every position is of its own symbol and of a positive number of
lots. -/
def Held (policy : ShadowPortfolioPolicy)
    (positions : List (String × ShadowPortfolioPosition)) : Prop :=
  ∀ pair ∈ positions, pair.2.symbol = pair.1 ∧ 0 < pair.2.quantity ∧ Lots policy pair.2.quantity

section Held

variable {policy : ShadowPortfolioPolicy} {positions : List (String × ShadowPortfolioPosition)}
  {symbol : String} {position : ShadowPortfolioPosition}

theorem Held.del (h : Held policy positions) : Held policy (delItem positions symbol) :=
  fun pair hpair => h pair (mem_filter.mp hpair).1

theorem Held.set (h : Held policy positions) (hsymbol : position.symbol = symbol)
    (hpos : 0 < position.quantity) (hlots : Lots policy position.quantity) :
    Held policy (setItem positions symbol position) := by
  intro pair hpair
  rcases mem_setItem hpair with rfl | hpair
  · exact ⟨hsymbol, hpos, hlots⟩
  · exact h pair hpair

end Held

section Loops

variable {policy : ShadowPortfolioPolicy} {tradingDate : Day}
  {observations : List ShadowPortfolioMarketObservation} {selectedSymbols : List String}
  {held : List ShadowPortfolioPosition} {state state' : Trading}
  {rest : List (String × ShadowPortfolioPosition)}

variable (hobserved : ObservedOnce observations)

include hobserved in
/-- One step of the SELL loop keeps the positions in lots and trades
legally. -/
theorem sell_legal {symbol : String} {position : ShadowPortfolioPosition}
    (hI : Selling ((symbol, position) :: rest) state)
    (hin : position ∈ held) (hpositions : Held policy state.positions)
    (htraded : Traded (LegalTrade policy tradingDate observations selectedSymbols held) state)
    (h : sell policy tradingDate (observationBySymbol observations)
      selectedSymbols state (symbol, position) = .ok state') :
    Held policy state'.positions
      ∧ Traded (LegalTrade policy tradingDate observations selectedSymbols held) state' := by
  have hmem : (symbol, position) ∈ state.positions :=
    (lookup_eq_some_iff hI.positions_nodup).mp (hI.held _ mem_cons_self)
  obtain ⟨hsymbol, hpos, hlots⟩ := hpositions _ hmem
  rcases sell_cases h with ⟨-, rfl⟩ | ⟨hnot, -, rfl⟩
    | ⟨hnot, fillPrice, hex, rfl⟩
  · exact ⟨hpositions, htraded⟩
  · exact ⟨hpositions, htraded.record (legalTrade_sell hobserved hnot hin hsymbol hlots)⟩
  · have hlegal : LegalTrade policy tradingDate observations selectedSymbols
        held _ _ := legalTrade_sell hobserved hnot hin hsymbol hlots
    have htrades := htraded.record hlegal
    refine ⟨?_, htrades.paired, htrades.each⟩
    show Held policy (ite _ _ _)
    split
    · exact hpositions.del
    · next hrest =>
        have hle : _ ≤ position.quantity := hlegal.legal.requested
        refine hpositions.set rfl ?_ (hlots.sub hlegal.legal.whole_lots hle)
        exact lt_of_le_of_ne (sub_nonneg.mpr hle) (Ne.symm hrest)

include hobserved in
theorem sell_loop_legal (hI : Selling rest state) (hin : ∀ pair ∈ rest, pair.2 ∈ held)
    (hpositions : Held policy state.positions)
    (htraded : Traded (LegalTrade policy tradingDate observations selectedSymbols held) state)
    (h : rest.foldlM (sell policy tradingDate
      (observationBySymbol observations) selectedSymbols) state = .ok state') :
    Held policy state'.positions
      ∧ Traded (LegalTrade policy tradingDate observations selectedSymbols held) state' := by
  have hloop := foldlM_inv (I := fun rest now => Selling rest now
    ∧ (∀ pair ∈ rest, pair.2 ∈ held) ∧ Held policy now.positions
    ∧ Traded (LegalTrade policy tradingDate observations selectedSymbols
      held) now) ?_ ⟨hI, hin, hpositions, htraded⟩ h
  · exact hloop.2.2
  · rintro ⟨symbol, position⟩ rest now after ⟨hsell, hin, hnow, htr⟩ hstep
    exact ⟨(sell_posts hsell hstep).1, fun pair hpair => hin pair (mem_cons_of_mem _ hpair),
      sell_legal hobserved hsell (hin _ mem_cons_self) hnow htr hstep⟩

variable {weightOf : List (String × ℚ)} {pretrade : ℚ}
  {observation : ShadowPortfolioMarketObservation}

include hobserved in
/-- One step of the BUY loop keeps the positions in lots and trades
legally, as the value to share out is not negative. -/
theorem buy_legal (hweights : ∀ pair ∈ weightOf, 0 < pair.2)
    (hnav : 0 ≤ pretrade) (ho : observation ∈ observations)
    (hselected : observation.symbol ∈ selectedSymbols) (hpositions : Held policy state.positions)
    (htraded : Traded (LegalTrade policy tradingDate observations selectedSymbols held) state)
    (h : buy policy tradingDate weightOf pretrade state observation = .ok state') :
    Held policy state'.positions
      ∧ Traded (LegalTrade policy tradingDate observations selectedSymbols held) state' := by
  rcases buy_cases h with ⟨rfl, -⟩ | ⟨weight, hweight, hfresh, hcase⟩
  · exact ⟨hpositions, htraded⟩
  · have hshare : 0 ≤ pretrade * weight := mul_nonneg hnav (hweights _ (mem_of_item hweight)).le
    have hlegal : LegalTrade policy tradingDate observations selectedSymbols
        held _ _ := legalTrade_buy hobserved state.cash ho hselected hshare
    have htrades := htraded.record hlegal
    rcases hcase with ⟨-, rfl⟩ | ⟨fillPrice, hex, hbuy⟩
    · exact ⟨hpositions, htrades⟩
    · unfold Trading.afterPurchase at hbuy
      simp only [bind_ok, require_ok, pure_ok] at hbuy
      obtain ⟨-, -, rfl⟩ := hbuy
      exact ⟨hpositions.set rfl hex.quantity_pos hlegal.legal.whole_lots,
        htrades.paired, htrades.each⟩

include hobserved in
theorem buy_loop_legal (hweights : ∀ pair ∈ weightOf, 0 < pair.2) (hnav : 0 ≤ pretrade)
    {rest : List ShadowPortfolioMarketObservation}
    (hin : ∀ o ∈ rest, o ∈ observations ∧ o.symbol ∈ selectedSymbols)
    (hpositions : Held policy state.positions)
    (htraded : Traded (LegalTrade policy tradingDate observations selectedSymbols held) state)
    (h : rest.foldlM (buy policy tradingDate weightOf pretrade) state = .ok state') :
    Held policy state'.positions
      ∧ Traded (LegalTrade policy tradingDate observations selectedSymbols held) state' := by
  have hloop := foldlM_inv (I := fun rest now =>
    (∀ o ∈ rest, o ∈ observations ∧ o.symbol ∈ selectedSymbols) ∧ Held policy now.positions
      ∧ Traded (LegalTrade policy tradingDate observations selectedSymbols
        held) now) ?_ ⟨hin, hpositions, htraded⟩ h
  · exact hloop.2
  · rintro o rest now after ⟨hin, hnow, htr⟩ hstep
    obtain ⟨ho, hselected⟩ := hin o mem_cons_self
    exact ⟨fun o' ho' => hin o' (mem_cons_of_mem o ho'),
      buy_legal hobserved hweights hnav ho hselected hnow htr hstep⟩

theorem buy_idle (hweights : ∀ pair ∈ weightOf, 0 < pair.2) (hnav : pretrade < 0)
    (h : buy policy tradingDate weightOf pretrade state observation = .ok state') :
    state'.cash = state.cash ∧ state'.positions = state.positions := by
  rcases buy_cases h with ⟨rfl, -⟩ | ⟨weight, hweight, -, ⟨-, rfl⟩
    | ⟨fillPrice, hex, -⟩⟩
  · exact ⟨rfl, rfl⟩
  · exact ⟨rfl, rfl⟩
  · have hshare : pretrade * weight ≤ 0 :=
      mul_nonpos_of_nonpos_of_nonneg hnav.le (hweights _ (mem_of_item hweight)).le
    have hintended : intendedQuantity policy (pretrade * weight) observation ≤ 0 := by
      unfold intendedQuantity
      cases hprice : observation.referencePrice with
      | none => exact le_refl 0
      | some price =>
        have hp := observation.reference_price_positive _ hprice
        exact lotFloor_nonpos (div_nonpos_of_nonpos_of_nonneg hshare hp.le)
    have hpos := hex.quantity_pos
    rw [hex.quantity_eq] at hpos
    exact absurd (hpos.trans_le (min_le_left _ _)) (not_lt_of_ge hintended)

end Loops

-- ==== the day

/-- Every weight is positive. -/
theorem weights_pos {observations : List ShadowPortfolioMarketObservation}
    {method : PortfolioWeightingMethod} {weightOf : List (String × ℚ)}
    (h : weights observations method = .ok weightOf) :
    ∀ pair ∈ weightOf, 0 < pair.2 := by
  unfold weights at h
  split at h
  · injection h with h
    subst h
    exact fun pair hpair => nomatch hpair
  · next hne =>
      split at h
      · injection h with h
        subst h
        intro pair hpair
        obtain ⟨o, -, rfl⟩ := mem_map.mp (mem_dictOf hpair)
        have hlen : 0 < observations.length := length_pos_of_ne_nil hne
        positivity
      · dsimp only at h
        generalize dictOf (observations.map fun o => (o.symbol,
          if method = .scoreWeight then o.score else o.riskWeight)) = values at h
        by_cases hany : values.any fun pair => pair.2.all (· ≤ 0)
        · rw [if_pos hany] at h
          cases h
        · rw [if_neg hany] at h
          injection h with h
          subst h
          -- every value the weights are made of is positive
          have hvalue : ∀ pair ∈ values, ∀ v, pair.2 = some v → 0 < v := by
            intro pair hpair v hv
            by_contra hle
            refine hany (any_eq_true.mpr ⟨pair, hpair, ?_⟩)
            simp [hv, not_lt.mp hle]
          intro pair hpair
          obtain ⟨source, hsource, hmap⟩ := mem_filterMap.mp hpair
          obtain ⟨v, hv, rfl⟩ := Option.map_eq_some_iff.mp hmap
          refine div_pos (hvalue source hsource v hv) ?_
          refine sum_pos _ (fun w hw => ?_) ?_
          · obtain ⟨other, hother, heq⟩ := mem_filterMap.mp hw
            exact hvalue other hother w heq
          · exact ne_nil_of_mem (mem_filterMap.mpr ⟨source, hsource, hv⟩)

section Day

variable {portfolio : ShadowPortfolio} {policy : ShadowPortfolioPolicy} {tradingDate : Day}
  {observations : List ShadowPortfolioMarketObservation} {previous : Option ShadowPortfolioDayState}
  {recordedAt : Instant} {state : ShadowPortfolioDayState} {weightOf : List (String × ℚ)}
  {sold bought : Trading}

def positionsBefore : Option ShadowPortfolioDayState → List ShadowPortfolioPosition
  | none => []
  | some previous => previous.positions

def InLots (policy : ShadowPortfolioPolicy) (previous : Option ShadowPortfolioDayState) : Prop :=
  ∀ p ∈ positionsBefore previous, 0 < p.quantity ∧ Lots policy p.quantity

theorem sum_marked {bySymbol : List (String × ShadowPortfolioMarketObservation)}
    {trading : Trading} (hheld : Held policy trading.positions) :
    trading.cash + ((marked bySymbol trading.positions).map
        (·.marketValue)).sum = pretradeNav bySymbol trading := by
  unfold marked pretradeNav
  congr 1
  rw [map_map, ((sortBy_perm (·.1) trading.positions).map _).sum_eq]
  congr 1
  refine map_congr_left fun pair hpair => ?_
  obtain ⟨hsymbol, -⟩ := hheld pair hpair
  show markOf bySymbol pair.1 pair.2 * pair.2.quantity
    = pair.2.quantity * markOf bySymbol pair.2.symbol pair.2
  rw [hsymbol, mul_comm]

variable (h : DayRun portfolio policy tradingDate observations previous
  recordedAt state weightOf sold bought)

include h

theorem DayRun.observedOnce : ObservedOnce observations := by
  unfold ObservedOnce
  rw [h.observed_once]
  exact (sortedDistinct_pairwise _).nodup

variable (hheld : HeldOnce previous)

include hheld in
theorem DayRun.sold_legal (hlots : InLots policy previous) :
    Held policy sold.positions ∧ Traded (LegalTrade policy tradingDate observations
        ((selected policy observations).map (·.symbol))
        (positionsBefore previous)) sold := by
  have hopening : (Trading.opening portfolio previous).positions
      = (positionsBefore previous).map fun item => (item.symbol, item) := by
    rw [opening_positions hheld]
    cases previous with
    | none => rfl
    | some previous => rfl
  refine sell_loop_legal h.observedOnce (selling_opening hheld) ?_ ?_ ?_ h.selling
  · intro pair hpair
    rw [(sortBy_perm _ _).mem_iff, hopening] at hpair
    obtain ⟨p, hp, rfl⟩ := mem_map.mp hpair
    exact hp
  · intro pair hpair
    rw [hopening] at hpair
    obtain ⟨p, hp, rfl⟩ := mem_map.mp hpair
    exact ⟨rfl, hlots p hp⟩
  · exact ⟨rfl, fun pair hpair => nomatch hpair⟩

include hheld in
/-- The value before the purchases is not negative: with a negative one
nothing is bought, and the day would end with it. -/
theorem DayRun.pretradeNav_nonneg (hlots : InLots policy previous) :
    0 ≤ pretradeNav (observationBySymbol observations) sold := by
  by_contra hneg
  have hidle := foldlM_inv (I := fun _ now =>
      now.cash = sold.cash ∧ now.positions = sold.positions) ?_ ⟨rfl, rfl⟩
    h.buying
  · have hnav : state.nav = pretradeNav (observationBySymbol observations) sold := by
      rw [← sum_marked (h.sold_legal hheld hlots).1, ← hidle.1, ← hidle.2, h.values_eq]
      rfl
    exact hneg (hnav ▸ state.nav_nonneg)
  · rintro o rest now after ⟨hcash, hpositions⟩ hstep
    obtain ⟨hc, hp⟩ := buy_idle (weights_pos h.weighed) (lt_of_not_ge hneg) hstep
    exact ⟨hc.trans hcash, hp.trans hpositions⟩

include hheld in
theorem DayRun.bought_legal (hlots : InLots policy previous) :
    Held policy bought.positions ∧ Traded (LegalTrade policy tradingDate observations
        ((selected policy observations).map (·.symbol))
        (positionsBefore previous)) bought := by
  obtain ⟨hsold, htraded⟩ := h.sold_legal hheld hlots
  refine buy_loop_legal h.observedOnce (weights_pos h.weighed)
    (h.pretradeNav_nonneg hheld hlots) ?_ hsold htraded h.buying
  intro o ho
  exact ⟨mem_of_selected ho, mem_map_of_mem ho⟩

include hheld in
theorem DayRun.inLots (hlots : InLots policy previous) : InLots policy (some state) := by
  intro p hp
  have hp : p ∈ state.positions := hp
  rw [h.values_eq] at hp
  obtain ⟨pair, hpair, rfl⟩ := mem_map.mp hp
  rw [(sortBy_perm _ _).mem_iff] at hpair
  exact ((h.bought_legal hheld hlots).1 pair hpair).2

include hheld in
theorem DayRun.trades (hlots : InLots policy previous) :
    state.orderIntents.length = state.fills.length ∧ ∀ pair ∈ state.orderIntents.zip state.fills,
        LegalTrade policy tradingDate observations ((selected policy observations).map (·.symbol))
          (positionsBefore previous) pair.1 pair.2 := by
  have htraded := (h.bought_legal hheld hlots).2
  rw [h.values_eq]
  exact ⟨htraded.paired, htraded.each⟩

end Day

-- ==== the chain

/-- What is legal about a day: its positions, the sides of its intents,
and each of its trades. -/
structure LegalDay (day : DayInput) (before : List ShadowPortfolioPosition)
    (state : ShadowPortfolioDayState) : Prop where
  positions : ∀ p ∈ state.positions, ∃ k : ℕ, 0 < k ∧ p.quantity = k * day.policy.lotSize
  one_side : ∀ a ∈ state.orderIntents, ∀ b ∈ state.orderIntents,
    a.symbol = b.symbol → a.side = b.side
  paired : state.orderIntents.length = state.fills.length
  fills : ∀ pair ∈ state.orderIntents.zip state.fills,
    LegalFill day.policy day.observations pair.1 pair.2
  held_before : ∀ pair ∈ state.orderIntents.zip state.fills,
    pair.1.side = .sell → ∃ p ∈ before, p.symbol = pair.1.symbol
  t_plus_one : ∀ pair ∈ state.orderIntents.zip state.fills,
    pair.1.side = .sell → pair.2.filledQuantity ≠ 0 →
      ∀ p ∈ before, p.symbol = pair.1.symbol → p.openedOn < day.tradingDate

theorem exists_pair {α β : Type _} {l : List α} {l' : List β}
    (hlen : l.length = l'.length) {a : α} (ha : a ∈ l) :
    ∃ b, (a, b) ∈ l.zip l' := by
  have hmap : (l.zip l').map Prod.fst = l := map_fst_zip hlen.le
  rw [← hmap] at ha
  obtain ⟨⟨a', b⟩, hmem, rfl⟩ := mem_map.mp ha
  exact ⟨b, hmem⟩

variable {portfolio : ShadowPortfolio} {day : DayInput} {state : ShadowPortfolioDayState}
  {days : List DayInput} {states : List ShadowPortfolioDayState} {n : Nat}

/-- A day that follows positions in lots is legal. -/
theorem DayRun.legalDay {previous : Option ShadowPortfolioDayState} {weightOf : List (String × ℚ)}
    {sold bought : Trading}
    (h : DayRun portfolio day.policy day.tradingDate day.observations
      previous day.recordedAt state weightOf sold bought)
    (hheld : HeldOnce previous) (hlots : InLots day.policy previous) :
    LegalDay day (positionsBefore previous) state := by
  obtain ⟨hpaired, htrades⟩ := h.trades hheld hlots
  have hside : ∀ a ∈ state.orderIntents, (a.side = .buy
      ↔ a.symbol ∈ (selected day.policy day.observations).map (·.symbol)) := by
    intro a ha
    obtain ⟨filled, hmem⟩ := exists_pair hpaired ha
    rcases (htrades _ hmem).side with ⟨hbuy, hsel⟩ | ⟨hsell, hnot, -⟩
    · exact ⟨fun _ => hsel, fun _ => hbuy⟩
    · exact ⟨(fun hbuy => nomatch hsell.symm.trans hbuy), fun hsel => absurd hsel hnot⟩
  constructor
  case positions =>
    intro p hp
    obtain ⟨hpos, k, hk⟩ := h.inLots hheld hlots p hp
    refine ⟨k, Nat.pos_of_ne_zero ?_, hk⟩
    rintro rfl
    rw [hk] at hpos
    simp at hpos
  case one_side =>
    intro a ha b hb hsymbol
    have hiff := (hside a ha).trans (hsymbol ▸ (hside b hb).symm)
    cases ha' : a.side with
    | buy => exact (hiff.mp ha').symm
    | sell =>
      cases hb' : b.side with
      | buy => exact absurd (hiff.mpr hb') (by simp [ha'])
      | sell => rfl
  case paired => exact hpaired
  case fills => exact fun pair hpair => (htrades pair hpair).legal
  case held_before =>
    intro pair hpair hsell
    rcases (htrades pair hpair).side with ⟨hbuy, -⟩ | ⟨-, -, p, hp, hs, -⟩
    · exact nomatch hsell.symm.trans hbuy
    · exact ⟨p, hp, hs⟩
  case t_plus_one =>
    intro pair hpair hsell hne p hp hsymbol
    rcases (htrades pair hpair).side with ⟨hbuy, -⟩
      | ⟨-, -, p', hp', hsymbol', hopened⟩
    · exact nomatch hsell.symm.trans hbuy
    · have hsame : p = p' := by
        cases previous with
        | none => cases hp
        | some previous => exact inj_on_of_nodup_map hheld hp hp' (hsymbol.trans hsymbol'.symm)
      rw [hsame]
      exact hopened hne

/-- The state a day of a chain follows: the one before it, or the one the
chain began from. -/
def stateBefore (previous : Option ShadowPortfolioDayState)
    (states : List ShadowPortfolioDayState) :
    Nat → Option ShadowPortfolioDayState
  | 0 => previous
  | n + 1 => states[n]?

theorem runDays_legal (previous : Option ShadowPortfolioDayState) (hheld : HeldOnce previous)
    (hlots : ∀ policy, InLots policy previous) (h : runDays portfolio previous days = .ok states)
    (hday : days[n]? = some day) (hstate : states[n]? = some state) :
    LegalDay day (positionsBefore (stateBefore previous states n)) state := by
  induction days generalizing previous states n with
  | nil => cases hday
  | cons first days ih =>
    simp only [runDays, bind_ok, pure_ok] at h
    obtain ⟨after, hfirst, rest, hrest, rfl⟩ := h
    obtain ⟨weightOf, sold, bought, hrun⟩ := runShadowPortfolioDay_ok hfirst
    cases n with
    | zero =>
      injection hday with hday
      injection hstate with hstate
      subst hday hstate
      exact hrun.legalDay hheld (hlots _)
    | succ n =>
      have hafter : ∀ policy, InLots policy (some after) := by
        intro policy p hp
        obtain ⟨hpos, hquantity⟩ := hrun.inLots hheld (hlots _) p hp
        exact ⟨hpos, hquantity.of_policy⟩
      have hnext : stateBefore (some after) rest n
          = stateBefore previous (after :: rest) (n + 1) := by
        cases n with
        | zero => rfl
        | succ n => rfl
      rw [← hnext]
      exact ih _ (hrun.heldOnce hheld) hafter hrest hday hstate

/-- Every day of a chain from an empty portfolio is legal: its positions
are positive numbers of lots, no symbol is bought and sold, and each
trade is in lots, at most what was asked, at most the capacity, without
reasons, and a sale only of what was opened before the day. -/
theorem chain_legal (h : runDays portfolio none days = .ok states)
    (hday : days[n]? = some day) (hstate : states[n]? = some state) :
    LegalDay day (positionsBefore (stateBefore none states n)) state :=
  runDays_legal none trivial (fun _ _ hp => nomatch hp) h hday hstate

theorem chain_legal_sample : ∃ states day state,
    runDays samplePortfolio none sampleDays = .ok states
      ∧ sampleDays[1]? = some day ∧ states[1]? = some state
      ∧ LegalDay day (positionsBefore states[0]?) state := by
  obtain ⟨states, hstates⟩ := exists_of_isOk
    (show (runDays samplePortfolio none sampleDays).isOk by decide +kernel)
  have hlen : 1 < states.length := by
    rw [length_runDays hstates]
    decide
  have hlast : states[1]? = some states[1] := getElem?_eq_getElem hlen
  have hday : sampleDays[1]? = some _ := rfl
  exact ⟨states, _, _, hstates, hday, hlast, chain_legal hstates hday hlast⟩

end MarketRegimeAlpha.Shadow
