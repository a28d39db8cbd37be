/-
What a trade does: the cases of a fill, of one sale and of one purchase,
and the two loops as entries of a trading account.

# The account of a day

`Trading.account` reads the locals of a day as an account at cost: its
cash, the positions at their average cost, and what was realized today.
A sale that executes disposes of its quantity at the average cost it was
bought at; a purchase that executes acquires its quantity for everything
it takes out of the cash, since the explicit cost goes into the average
cost. Everything else the loops do leaves the account as it is
(`sell_posts`, `buy_posts`).
-/
import Mathlib.Tactic.LinearCombination
import MarketRegimeAlpha.Lib.Ledger
import MarketRegimeAlpha.Shadow.Day

namespace MarketRegimeAlpha.Shadow

open Lib List

-- ==== the fill

structure Executes (order : ShadowPortfolioOrderIntent)
    (observation : Option ShadowPortfolioMarketObservation)
    (policy : ShadowPortfolioPolicy) (maximumQuantity : Option ℚ)
    (filled : ShadowPortfolioFill) (fillPrice : ℚ) : Prop where
  symbol_eq : filled.symbol = order.symbol
  side_eq : filled.side = order.side
  status_eq : filled.status =
    if filled.filledQuantity = order.requestedQuantity then .filled
    else .partialFill
  no_reason : order.reasonCodes = []
  quantity_eq : filled.filledQuantity = min order.requestedQuantity
    (maximumQuantity.getD order.requestedQuantity)
  quantity_pos : 0 < filled.filledQuantity
  price_some : filled.fillPrice = some fillPrice
  price_eq : ∃ referencePrice, observation.bind (·.referencePrice) = some referencePrice
      ∧ fillPrice = referencePrice * (1 + (if order.side = .buy then 1 else -1)
          * (policy.parameter "slippage_bps" + policy.parameter "impact_bps") / 10000)
  notional_eq : filled.notional = fillPrice * filled.filledQuantity

/-- A fill that does not execute moves nothing and costs nothing. -/
structure Unfilled (order : ShadowPortfolioOrderIntent) (filled : ShadowPortfolioFill) : Prop where
  symbol_eq : filled.symbol = order.symbol
  side_eq : filled.side = order.side
  status_eq : filled.status = .unfilled
  quantity_eq : filled.filledQuantity = 0
  price_none : filled.fillPrice = none
  notional_eq : filled.notional = 0
  cost_eq : filled.totalCost = 0

theorem fill_cases (order : ShadowPortfolioOrderIntent)
    (observation : Option ShadowPortfolioMarketObservation)
    (policy : ShadowPortfolioPolicy) (maximumQuantity : Option ℚ) :
    Unfilled order (fill order observation policy maximumQuantity)
      ∨ ∃ fillPrice, Executes order observation policy maximumQuantity
        (fill order observation policy maximumQuantity) fillPrice := by
  unfold fill
  cases hprice : observation.bind (·.referencePrice) with
  | none => exact .inl ⟨rfl, rfl, rfl, rfl, rfl, rfl, rfl⟩
  | some referencePrice =>
    dsimp only
    split
    · exact .inl ⟨rfl, rfl, rfl, rfl, rfl, rfl, rfl⟩
    · next hblocked =>
        split
        · exact .inl ⟨rfl, rfl, rfl, rfl, rfl, rfl, rfl⟩
        · next hquantity =>
            have hreasons : order.reasonCodes = [] := by
              by_contra hne
              exact hblocked (by simp [hne])
            exact .inr ⟨_, {
              symbol_eq := rfl
              side_eq := rfl
              status_eq := rfl
              no_reason := hreasons
              quantity_eq := rfl
              quantity_pos := lt_of_not_ge hquantity
              price_some := rfl
              price_eq := ⟨referencePrice, hprice, rfl⟩
              notional_eq := rfl }⟩

theorem Executes.status_ne {order : ShadowPortfolioOrderIntent}
    {observation : Option ShadowPortfolioMarketObservation} {policy : ShadowPortfolioPolicy}
    {maximumQuantity : Option ℚ} {filled : ShadowPortfolioFill} {fillPrice : ℚ}
    (h : Executes order observation policy maximumQuantity filled fillPrice) :
    filled.status ≠ .unfilled := by
  rw [h.status_eq]
  split
  · exact fun heq => nomatch heq
  · exact fun heq => nomatch heq

-- ==== the account

def ShadowPortfolioPosition.bookValue (p : ShadowPortfolioPosition) : ℚ :=
  p.quantity * p.averageCost

/-- The account of a day: cash, positions at cost, realized today. -/
def Trading.account (state : Trading) : Account ℚ where
  cash := state.cash
  book := sumItems ShadowPortfolioPosition.bookValue state.positions
  realized := sumItems id state.realized

@[simp] theorem Trading.account_record (state : Trading)
    (order : ShadowPortfolioOrderIntent) (filled : ShadowPortfolioFill) :
    (state.record order filled).account = state.account := rfl

@[simp] theorem bookValue_markedPosition (symbol : String)
    (quantity averageCost : ℚ) (openedOn : Day) (mark : ℚ) :
    (markedPosition symbol quantity averageCost openedOn mark).bookValue
      = quantity * averageCost := rfl

-- ==== one sale

section Sell

variable {policy : ShadowPortfolioPolicy} {tradingDate : Day}
  {bySymbol : List (String × ShadowPortfolioMarketObservation)} {selectedSymbols : List String}
  {state state' : Trading} {symbol : String} {position : ShadowPortfolioPosition}

/-- One step of the SELL loop keeps the position, or its order is not
filled, or it is sold at a price. -/
theorem sell_cases
    (h : sell policy tradingDate bySymbol selectedSymbols state (symbol, position) = .ok state') :
    (symbol ∈ selectedSymbols ∧ state' = state)
    ∨ (symbol ∉ selectedSymbols ∧ Unfilled (sellIntent policy tradingDate bySymbol symbol position)
          (sellFill policy tradingDate bySymbol symbol position)
      ∧ state' = state.record (sellIntent policy tradingDate bySymbol symbol position)
          (sellFill policy tradingDate bySymbol symbol position))
    ∨ (symbol ∉ selectedSymbols ∧ ∃ fillPrice,
      Executes (sellIntent policy tradingDate bySymbol symbol position)
        (bySymbol.lookup symbol) policy
        (some (sellCapacity policy bySymbol symbol))
        (sellFill policy tradingDate bySymbol symbol position) fillPrice
      ∧ state' = (state.record (sellIntent policy tradingDate bySymbol symbol position)
          (sellFill policy tradingDate bySymbol symbol position)).afterSale
            policy bySymbol symbol position
            (sellFill policy tradingDate bySymbol symbol position)
            fillPrice) := by
  unfold sell at h
  by_cases hsel : symbol ∈ selectedSymbols
  · rw [if_pos hsel] at h
    injection h with h
    exact .inl ⟨hsel, h.symm⟩
  · rw [if_neg hsel] at h
    rcases fill_cases (sellIntent policy tradingDate bySymbol symbol position)
      (bySymbol.lookup symbol) policy
      (some (sellCapacity policy bySymbol symbol)) with hun | ⟨fillPrice, hex⟩
    · rw [if_pos (show (sellFill _ _ _ _ _).status = _ from hun.status_eq)] at h
      injection h with h
      exact .inr (.inl ⟨hsel, hun, h.symm⟩)
    · have hprice : (sellFill policy tradingDate bySymbol symbol
          position).fillPrice = some fillPrice := hex.price_some
      rw [if_neg (show (sellFill _ _ _ _ _).status ≠ _ from hex.status_ne), hprice] at h
      injection h with h
      exact .inr (.inr ⟨hsel, fillPrice, hex, h.symm⟩)

/-- A sale disposes of what it sells, at the average cost it was bought
at. -/
theorem account_afterSale (state : Trading) {filled : ShadowPortfolioFill} {fillPrice : ℚ}
    (hnotional : filled.notional = fillPrice * filled.filledQuantity)
    (hkeys : (Lib.keys state.positions).Nodup)
    (hheld : state.positions.lookup symbol = some position)
    (hfresh : state.realized.lookup symbol = none) :
    (state.afterSale policy bySymbol symbol position filled fillPrice).account
      = Account.post (.dispose (filled.filledQuantity * position.averageCost)
          (filled.notional - explicitCashCost filled.notional policy true))
        state.account := by
  have hbook : sumItems ShadowPortfolioPosition.bookValue
      (state.afterSale policy bySymbol symbol position filled fillPrice).positions
      = sumItems ShadowPortfolioPosition.bookValue state.positions
        - filled.filledQuantity * position.averageCost := by
    unfold Trading.afterSale
    dsimp only
    split
    · next hall =>
        rw [sumItems_delItem hkeys hheld, ShadowPortfolioPosition.bookValue, sub_eq_zero.mp hall]
    · rw [sumItems_setItem_some hkeys hheld, bookValue_markedPosition,
        ShadowPortfolioPosition.bookValue]
      ring
  have hrealized : sumItems id (state.afterSale policy bySymbol symbol
        position filled fillPrice).realized
      = sumItems id state.realized + (filled.notional - explicitCashCost filled.notional policy true
          - filled.filledQuantity * position.averageCost) := by
    unfold Trading.afterSale
    rw [sumItems_setItem_none hfresh, id]
    linear_combination -hnotional
  ext
  · rfl
  · exact hbook
  · exact hrealized

end Sell

section Buy

variable {policy : ShadowPortfolioPolicy} {tradingDate : Day} {weights : List (String × ℚ)}
  {pretradeNav : ℚ} {state state' : Trading} {observation : ShadowPortfolioMarketObservation}

/-- One step of the BUY loop keeps a position that is held, or its order
is not filled, or it is bought at a price the cash can pay. -/
theorem buy_cases (h : buy policy tradingDate weights pretradeNav state observation = .ok state') :
    (state' = state ∧ (state.positions.lookup observation.symbol).isSome)
    ∨ ∃ weight, item weights observation.symbol = .ok weight
      ∧ state.positions.lookup observation.symbol = none
      ∧ (Unfilled (buyIntent policy state.cash (pretradeNav * weight) observation)
            (buyFill policy state.cash (pretradeNav * weight) observation)
          ∧ state' = state.record (buyIntent policy state.cash (pretradeNav * weight) observation)
            (buyFill policy state.cash (pretradeNav * weight) observation)
        ∨ ∃ fillPrice, Executes (buyIntent policy state.cash (pretradeNav * weight)
              observation) (some observation) policy
            (some (executableQuantity policy state.cash (pretradeNav * weight) observation))
            (buyFill policy state.cash (pretradeNav * weight) observation)
            fillPrice
          ∧ (state.record (buyIntent policy state.cash (pretradeNav * weight) observation)
              (buyFill policy state.cash (pretradeNav * weight)
                observation)).afterPurchase policy tradingDate observation
              (buyFill policy state.cash (pretradeNav * weight) observation)
              fillPrice = .ok state') := by
  unfold buy at h
  by_cases hheld : (state.positions.lookup observation.symbol).isSome
  · rw [if_pos hheld] at h
    injection h with h
    exact .inl ⟨h.symm, hheld⟩
  · rw [if_neg hheld, bind_ok] at h
    obtain ⟨weight, hweight, h⟩ := h
    refine .inr ⟨weight, hweight, Option.not_isSome_iff_eq_none.mp hheld, ?_⟩
    rcases fill_cases (buyIntent policy state.cash (pretradeNav * weight)
        observation) (some observation) policy
        (some (executableQuantity policy state.cash (pretradeNav * weight)
          observation)) with hun | ⟨fillPrice, hex⟩
    · rw [if_pos (show (buyFill _ _ _ _).status = _ from hun.status_eq), pure_ok] at h
      exact .inl ⟨hun, h.symm⟩
    · have hprice : (buyFill policy state.cash (pretradeNav * weight)
          observation).fillPrice = some fillPrice := hex.price_some
      rw [if_neg (show (buyFill _ _ _ _).status ≠ _ from hex.status_ne), hprice] at h
      exact .inr ⟨fillPrice, hex, h⟩

/-- A purchase that goes through acquires what it buys, for all that it
takes out of the cash. -/
theorem account_afterPurchase (state : Trading) {filled : ShadowPortfolioFill} {fillPrice : ℚ}
    (hquantity : 0 < filled.filledQuantity)
    (hfresh : state.positions.lookup observation.symbol = none)
    (h : state.afterPurchase policy tradingDate observation filled fillPrice = .ok state') :
    state'.account = Account.post (.acquire (filled.notional
        + explicitCashCost filled.notional policy false)) state.account
      ∧ state'.realized = state.realized := by
  unfold Trading.afterPurchase at h
  simp only [bind_ok, require_ok, pure_ok] at h
  obtain ⟨-, -, rfl⟩ := h
  refine ⟨?_, rfl⟩
  ext
  · rfl
  · show sumItems _ (setItem _ _ _) = sumItems _ state.positions + _
    rw [sumItems_setItem_none hfresh, bookValue_markedPosition, mul_div_cancel₀ _ hquantity.ne']
  · rfl

end Buy

-- ==== the two loops

/-- The SELL loop has `rest` still to pass: those positions are held as
they were, and nothing is realized of them yet. -/
structure Selling (rest : List (String × ShadowPortfolioPosition)) (state : Trading) : Prop where
  positions_nodup : (Lib.keys state.positions).Nodup
  realized_nodup : (Lib.keys state.realized).Nodup
  rest_nodup : (Lib.keys rest).Nodup
  held : ∀ pair ∈ rest, state.positions.lookup pair.1 = some pair.2
  fresh : ∀ pair ∈ rest, state.realized.lookup pair.1 = none

section Sell

variable {policy : ShadowPortfolioPolicy} {tradingDate : Day}
  {bySymbol : List (String × ShadowPortfolioMarketObservation)} {selectedSymbols : List String}
  {state state' : Trading} {symbol : String} {position : ShadowPortfolioPosition}
  {rest : List (String × ShadowPortfolioPosition)}

/-- A step that touches nothing of another symbol leaves the loop with
the rest to pass. -/
theorem Selling.next (h : Selling ((symbol, position) :: rest) state)
    (hpositions : (Lib.keys state'.positions).Nodup) (hrealized : (Lib.keys state'.realized).Nodup)
    (hheld : ∀ s ≠ symbol, state'.positions.lookup s = state.positions.lookup s)
    (hfresh : ∀ s ≠ symbol, state'.realized.lookup s = state.realized.lookup s) :
    Selling rest state' := by
  obtain ⟨hnot, hrest⟩ := nodup_cons.mp h.rest_nodup
  have hne : ∀ pair ∈ rest, pair.1 ≠ symbol := by
    intro pair hpair heq
    exact hnot (heq ▸ mem_map_of_mem (f := (·.1)) hpair)
  exact {
    positions_nodup := hpositions
    realized_nodup := hrealized
    rest_nodup := hrest
    held := fun pair hpair => by
      rw [hheld _ (hne pair hpair)]
      exact h.held pair (mem_cons_of_mem _ hpair)
    fresh := fun pair hpair => by
      rw [hfresh _ (hne pair hpair)]
      exact h.fresh pair (mem_cons_of_mem _ hpair) }

theorem sell_posts (hI : Selling ((symbol, position) :: rest) state)
    (h : sell policy tradingDate bySymbol selectedSymbols state (symbol, position) = .ok state') :
    Selling rest state' ∧ state.account.Posts state'.account := by
  rcases sell_cases h with ⟨-, rfl⟩ | ⟨-, -, rfl⟩ | ⟨-, fillPrice, hex, rfl⟩
  · exact ⟨hI.next hI.positions_nodup hI.realized_nodup (fun _ _ => rfl)
      (fun _ _ => rfl), Account.Posts.refl _⟩
  · exact ⟨hI.next hI.positions_nodup hI.realized_nodup (fun _ _ => rfl)
      (fun _ _ => rfl), Account.Posts.refl _⟩
  · constructor
    · refine hI.next ?_ (nodup_keys_setItem hI.realized_nodup) ?_ ?_
      · show (Lib.keys (ite _ _ _)).Nodup
        split
        · exact nodup_keys_delItem hI.positions_nodup
        · exact nodup_keys_setItem hI.positions_nodup
      · intro s hs
        show (ite _ _ _ : List (String × ShadowPortfolioPosition)).lookup s = _
        split
        · rw [lookup_delItem, if_neg hs]
          rfl
        · rw [lookup_setItem, if_neg hs]
          rfl
      · intro s hs
        show (setItem _ _ _).lookup s = _
        rw [lookup_setItem, if_neg hs]
        rfl
    · rw [account_afterSale (state.record _ _) hex.notional_eq
        hI.positions_nodup (hI.held _ mem_cons_self)
        (hI.fresh _ mem_cons_self)]
      exact Account.Posts.one _ _

theorem sell_loop_posts (hI : Selling rest state)
    (h : rest.foldlM (sell policy tradingDate bySymbol selectedSymbols) state = .ok state') :
    Selling [] state' ∧ state.account.Posts state'.account := by
  refine foldlM_inv (I := fun rest now => Selling rest now
    ∧ state.account.Posts now.account) ?_ ⟨hI, Account.Posts.refl _⟩ h
  rintro ⟨symbol, position⟩ rest now after ⟨hsell, hposts⟩ hstep
  obtain ⟨hnext, hstep⟩ := sell_posts hsell hstep
  exact ⟨hnext, hposts.trans hstep⟩

end Sell

section Buy

variable {policy : ShadowPortfolioPolicy} {tradingDate : Day} {weights : List (String × ℚ)}
  {pretradeNav : ℚ} {state state' : Trading} {observation : ShadowPortfolioMarketObservation}
  {observations : List ShadowPortfolioMarketObservation}

/-- One step of the BUY loop posts to the account, and realizes
nothing. -/
theorem buy_posts (hkeys : (Lib.keys state.positions).Nodup)
    (h : buy policy tradingDate weights pretradeNav state observation = .ok state') :
    (Lib.keys state'.positions).Nodup ∧ state'.realized = state.realized
      ∧ state.account.Posts state'.account := by
  rcases buy_cases h with ⟨rfl, -⟩ | ⟨weight, -, hfresh, ⟨-, rfl⟩
    | ⟨fillPrice, hex, hbuy⟩⟩
  · exact ⟨hkeys, rfl, Account.Posts.refl _⟩
  · exact ⟨hkeys, rfl, Account.Posts.refl _⟩
  · obtain ⟨haccount, hrealized⟩ :=
      account_afterPurchase (state.record _ _) hex.quantity_pos hfresh hbuy
    refine ⟨?_, hrealized, ?_⟩
    · unfold Trading.afterPurchase at hbuy
      simp only [bind_ok, require_ok, pure_ok] at hbuy
      obtain ⟨-, -, rfl⟩ := hbuy
      exact nodup_keys_setItem hkeys
    · rw [haccount, Trading.account_record]
      exact Account.Posts.one _ _

theorem buy_loop_posts (hkeys : (Lib.keys state.positions).Nodup)
    (h : observations.foldlM (buy policy tradingDate weights pretradeNav) state = .ok state') :
    (Lib.keys state'.positions).Nodup ∧ state'.realized = state.realized
      ∧ state.account.Posts state'.account := by
  refine foldlM_inv (I := fun _ now => (Lib.keys now.positions).Nodup
    ∧ now.realized = state.realized ∧ state.account.Posts now.account) ?_
    ⟨hkeys, rfl, Account.Posts.refl _⟩ h
  rintro observation rest now after ⟨hnow, hrealized, hposts⟩ hstep
  obtain ⟨hafter, hsame, hstep⟩ := buy_posts hnow hstep
  exact ⟨hafter, hsame.trans hrealized, hposts.trans hstep⟩

end Buy


end MarketRegimeAlpha.Shadow
