/-
The loop of the T+1 projection, as a run of a queue with dates.

A lot is open to a SELL from its sellable session on, and that session is
the first one after the day of its BUY, so a lot opens only after the day
it came in (`settled_after`) and lots of later days open no earlier
(`nextSession_mono`). The loop needs reconciliation exactly when a SELL
was recorded on a session that was not tradable, or was short
(`settled_spec`).
-/
import MarketRegimeAlpha.Position.Proofs.Project

namespace MarketRegimeAlpha.Position

open Lib List

-- ==== the sessions

variable {calendar : TradingCalendarArtifact} {date : Day}

/-- `resolve_next_session_date` returns the first session after the local
date. -/
theorem resolveNext_ok {instant : Instant}
    (h : calendar.resolveNextSessionDate instant = .ok date) :
    (calendar.tradingDates.filter (calendar.zone.date instant < ·)).head? = some date := by
  simp only [TradingCalendarArtifact.resolveNextSessionDate,
    TradingCalendarArtifact.resolveFollowingSessionDates, bind_ok, pure_ok]
    at h
  obtain ⟨_, ⟨_, -, _, -, rfl⟩, h⟩ := h
  cases hf : calendar.tradingDates.filter (calendar.zone.date instant < ·) with
  | nil =>
    rw [hf] at h
    cases h
  | cons first rest =>
    rw [hf] at h
    injection h with h
    rw [← h]
    rfl

def settlementDates (calendar : TradingCalendarArtifact) (fill : Fill) : SettlementDates where
  tradeDate := calendar.zone.date fill.occurredAt
  sellableFromSession := ((calendar.tradingDates.filter
    (calendar.zone.date fill.occurredAt < ·)).head?).getD (calendar.zone.date fill.occurredAt + 1)

theorem settled_after (calendar : TradingCalendarArtifact) (fill : Fill) :
    (settlementDates calendar fill).tradeDate
      < (settlementDates calendar fill).sellableFromSession := by
  unfold settlementDates
  cases hf : (calendar.tradingDates.filter (calendar.zone.date fill.occurredAt < ·)).head? with
  | none => exact lt_add_one _
  | some date =>
    have hmem := mem_of_mem_head? (Option.mem_def.mpr hf)
    simpa using (mem_filter.mp hmem).2

theorem nextSession_mono {a b : Fill}
    (hday : calendar.zone.date a.occurredAt ≤ calendar.zone.date b.occurredAt)
    (hb : calendar.resolveNextSessionDate b.occurredAt = .ok date) :
    (settlementDates calendar a).sellableFromSession
      ≤ (settlementDates calendar b).sellableFromSession := by
  have hdate := resolveNext_ok hb
  have hmem := mem_of_mem_head? (Option.mem_def.mpr hdate)
  obtain ⟨hsession, hafter⟩ := mem_filter.mp hmem
  rw [decide_eq_true_eq] at hafter
  have hin : date ∈ calendar.tradingDates.filter (calendar.zone.date a.occurredAt < ·) :=
    mem_filter.mpr ⟨hsession, decide_eq_true (lt_of_le_of_lt hday hafter)⟩
  have hsorted : (calendar.tradingDates.filter
      (calendar.zone.date a.occurredAt < ·)).Pairwise (· < ·) :=
    calendar.chronological.sublist filter_sublist
  unfold settlementDates
  rw [hdate, Option.getD_some]
  cases hf : calendar.tradingDates.filter (calendar.zone.date a.occurredAt < ·) with
  | nil =>
    rw [hf] at hin
    cases hin
  | cons first rest =>
    rw [hf] at hin hsorted
    rcases mem_cons.mp hin with rfl | hin
    · exact le_refl _
    · exact le_of_lt ((pairwise_cons.mp hsorted).1 date hin)

-- ==== the queue

def lotDates : Fifo.Dates (MutableLot SettlementDates) Day where
  acquired lot := lot.settlement.tradeDate
  release lot := lot.settlement.sellableFromSession
  release_withUnits _ _ := rfl

def datedLot (symbol : String) (calendar : TradingCalendarArtifact)
    (fill : Fill) : MutableLot SettlementDates :=
  buyLot symbol fill (settlementDates calendar fill)

def sessionOf (calendar : TradingCalendarArtifact) (fill : Fill) : Day :=
  calendar.zone.date fill.occurredAt

/-- What a Fill does to the queue of the T+1 projection. -/
abbrev datedEvent (symbol : String) (calendar : TradingCalendarArtifact) :
    Fill → Fifo.Event (MutableLot SettlementDates) Day :=
  fillEvent (datedLot symbol calendar) (sessionOf calendar)

abbrev closedOn (date : Day) (lot : MutableLot SettlementDates) : Bool :=
  date < lot.settlement.sellableFromSession

theorem not_closedOn (date : Day) : (fun lot => !closedOn date lot) = lotDates.isOpen date := by
  funext lot
  unfold closedOn Fifo.Dates.isOpen
  rw [← decide_not, decide_eq_decide]
  exact not_lt

/-- A SELL that is recorded on a session that is not tradable. -/
def haltedSale (statuses : List SymbolTradingSessionStatus)
    (calendar : TradingCalendarArtifact) (fill : Fill) : Bool :=
  fill.side == .sell && (statusOn statuses (sessionOf calendar fill)).any
      (·.state != .tradable)

section Step

variable {symbol : String} {calendar : TradingCalendarArtifact}
  {statuses : List SymbolTradingSessionStatus} {state state' : Settling} {fill : Fill}

theorem tPlusOneStep_buy (hs : fill.side = .buy)
    (h : tPlusOneStep symbol calendar statuses state fill = .ok state') :
    (∃ date, calendar.resolveNextSessionDate fill.occurredAt = .ok date) ∧ state' = { state with
        lots := state.lots ++ [datedLot symbol calendar fill] } := by
  simp only [tPlusOneStep, hs, bind_ok, pure_ok] at h
  obtain ⟨_, -, date, hdate, rfl⟩ := h
  refine ⟨⟨date, hdate⟩, ?_⟩
  unfold datedLot settlementDates
  rw [resolveNext_ok hdate, Option.getD_some]

/-- A SELL of the T+1 projection takes from the open lots, and notes why
it must be reconciled. -/
theorem tPlusOneStep_sell (hs : fill.side = .sell)
    (h : tPlusOneStep symbol calendar statuses state fill = .ok state') :
    state'.lots = Fifo.take (lotDates.isOpen (sessionOf calendar fill)) fill.quantity state.lots
      ∧ state'.realizedPnl = (sellFill (closedOn (sessionOf calendar fill))
        fill state.lots state.realizedPnl).2.realizedPnl
      ∧ ∀ reason, reason ∈ state'.reconciliationReasons ↔ reason ∈ state.reconciliationReasons
          ∨ (reason = "SELL_RECORDED_WHILE_SYMBOL_NOT_TRADABLE"
            ∧ haltedSale statuses calendar fill = true)
          ∨ (reason = "T_PLUS_ONE_SELL_EXCEEDS_AVAILABLE"
            ∧ 0 < fill.quantity - Fifo.total (state.lots.filter
              (lotDates.isOpen (sessionOf calendar fill)))) := by
  obtain ⟨hlots, hremaining, -⟩ := sellFill_spec
    (closedOn (sessionOf calendar fill)) fill state.lots state.realizedPnl
  unfold matched at hremaining
  rw [not_closedOn] at hlots hremaining
  have hshort : fill.quantity - min fill.quantity (Fifo.total
      (state.lots.filter (lotDates.isOpen (sessionOf calendar fill))))
      = fill.quantity - Fifo.total (state.lots.filter
        (lotDates.isOpen (sessionOf calendar fill))) := by omega
  rw [hshort] at hremaining
  simp only [tPlusOneStep, hs, bind_ok] at h
  obtain ⟨_, -, h⟩ := h
  cases hstatus : statusOn statuses (sessionOf calendar fill) with
  | none =>
    rw [show calendar.zone.date fill.occurredAt = sessionOf calendar fill from rfl, hstatus] at h
    cases h
  | some status =>
    rw [show calendar.zone.date fill.occurredAt = sessionOf calendar fill from rfl, hstatus] at h
    simp only [pure_ok] at h
    have hhalted : haltedSale statuses calendar fill = true ↔ status.state ≠ .tradable := by
      simp [haltedSale, hs, hstatus]
    rw [← h]
    refine ⟨hlots, rfl, fun reason => ?_⟩
    rw [hhalted]
    rw [hremaining]
    split
    · next hpos =>
        split
        · next hstate => simp [hstate, hpos]; tauto
        · next hstate => simp [hstate, hpos]; tauto
    · next hpos =>
        split
        · next hstate => simp [hstate, hpos]; tauto
        · next hstate => simp [hstate, hpos]

end Step

-- ==== the loop

/-- What the T+1 loop does with some Fills. -/
structure Settled (symbol : String) (calendar : TradingCalendarArtifact)
    (statuses : List SymbolTradingSessionStatus) (before : Settling)
    (fills : List Fill) (after : Settling) : Prop where
  lots : after.lots = Fifo.run lotDates.isOpen before.lots (fills.map (datedEvent symbol calendar))
  reasons : ∀ reason, reason ∈ after.reconciliationReasons ↔ reason ∈ before.reconciliationReasons
      ∨ (reason = "SELL_RECORDED_WHILE_SYMBOL_NOT_TRADABLE"
        ∧ ∃ fill ∈ fills, haltedSale statuses calendar fill = true)
      ∨ (reason = "T_PLUS_ONE_SELL_EXCEEDS_AVAILABLE" ∧ 0 < Fifo.missing lotDates.isOpen before.lots
          (fills.map (datedEvent symbol calendar)))
  resolved : ∀ fill ∈ buys fills, ∃ date, calendar.resolveNextSessionDate fill.occurredAt = .ok date

private theorem noted_iff {p q r a b c d : Prop} : ((p ∨ q ∧ a ∨ r ∧ b) ∨ q ∧ c ∨ r ∧ d)
      ↔ (p ∨ q ∧ (a ∨ c) ∨ r ∧ (b ∨ d)) := by
  tauto

variable {symbol : String} {calendar : TradingCalendarArtifact}
  {statuses : List SymbolTradingSessionStatus} {fills : List Fill}

/-- The loop, by induction on its Fills. -/
theorem settled_spec {before after : Settling}
    (h : fills.foldlM (tPlusOneStep symbol calendar statuses) before = .ok after) :
    Settled symbol calendar statuses before fills after := by
  induction fills generalizing before with
  | nil =>
    rw [foldlM_nil, pure_ok] at h
    subst h
    exact ⟨rfl, fun _ => by simp [Fifo.missing], nofun⟩
  | cons fill fills ih =>
    rw [foldlM_cons, bind_ok] at h
    obtain ⟨state, hstep, h⟩ := h
    obtain ⟨hlots, hreasons, hresolved⟩ := ih h
    cases hs : fill.side with
    | buy =>
      obtain ⟨hdate, rfl⟩ := tPlusOneStep_buy hs hstep
      have hevent : datedEvent symbol calendar fill = .add (datedLot symbol calendar fill) := by
        simp [fillEvent, hs]
      have hnot : haltedSale statuses calendar fill = false := by simp [haltedSale, hs]
      refine ⟨?_, fun reason => ?_, fun f hf => ?_⟩
      · rw [map_cons, hevent]
        exact hlots
      · rw [hreasons, map_cons, hevent]
        simp only [exists_mem_cons_iff, hnot, Bool.false_eq_true, false_or]
        rfl
      · rw [(split_buy fills hs).1] at hf
        rcases mem_cons.mp hf with rfl | hf
        · exact hdate
        · exact hresolved f hf
    | sell =>
      obtain ⟨hsold, -, hnoted⟩ := tPlusOneStep_sell hs hstep
      have hevent : datedEvent symbol calendar fill
          = .take fill.quantity (sessionOf calendar fill) := by
        simp [fillEvent, hs]
      rw [hsold] at hlots hreasons
      refine ⟨?_, fun reason => ?_, fun f hf => ?_⟩
      · rw [map_cons, hevent]
        exact hlots
      · rw [hreasons, hnoted, map_cons, hevent]
        simp only [exists_mem_cons_iff, Fifo.missing, Nat.add_pos_iff_pos_or_pos]
        exact noted_iff
      · rw [(split_sell fills hs).1] at hf
        exact hresolved f hf

theorem addedLots_dated (symbol : String) (calendar : TradingCalendarArtifact) (fills : List Fill) :
    Fifo.addedLots (fills.map (datedEvent symbol calendar))
      = (buys fills).map (datedLot symbol calendar) :=
  addedLots_fillEvent _ _ fills

theorem settled_lots {after : Settling}
    (h : Settled symbol calendar statuses ⟨[], 0, []⟩ fills after)
    {lot : MutableLot SettlementDates} (hlot : lot ∈ after.lots) :
    0 < lot.quantityRemaining ∧ 0 < lot.unitCost
      ∧ lot.settlement.tradeDate < lot.settlement.sellableFromSession := by
  rw [h.lots] at hlot
  have hfull : Fifo.Full (Fifo.run lotDates.isOpen []
      (fills.map (datedEvent symbol calendar))) := by
    refine Fifo.run_full _ nofun ?_
    rw [addedLots_dated]
    exact full_map_lotOf _ (fun _ => rfl) _
  obtain ⟨before, hmem, n, rfl⟩ := Fifo.mem_run _ hlot
  rw [nil_append, addedLots_dated] at hmem
  obtain ⟨fill, -, rfl⟩ := mem_map.mp hmem
  exact ⟨hfull _ hlot, buyLot_unitCost_pos symbol fill (settlementDates calendar fill),
    settled_after calendar fill⟩

end MarketRegimeAlpha.Position
