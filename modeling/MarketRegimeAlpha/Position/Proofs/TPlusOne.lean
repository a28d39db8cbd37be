/-
T+1 legality of the projection, and where its snapshot contradicts
itself.

No SELL reaches a lot of its own day or of a later one, the lots of the
day of assessment are frozen, and the available and the frozen shares
share out the position: that is so for every input (`tPlusOne_shares`).
The checks of the snapshot then hold too, with one exception. A position
that must be reconciled keeps that sellability when it has no share left,
and the snapshot demands CLOSED there; so the projection raises on its
own output when every share was sold in time and some SELL was recorded
on a session that was not tradable, or sold more than there was.
-/
import MarketRegimeAlpha.Position.Proofs.Settlement

namespace MarketRegimeAlpha.Position

open Lib List

-- ==== the run

/-- What the checks of the projection let through. -/
structure Accepted (book : PositionBook) (trades : List ManualTradeRecord)
    (fills : List Fill) (calendar : TradingCalendarArtifact)
    (symbolSessionStatuses : List SymbolTradingSessionStatus)
    (asOf : Instant) (run : TPlusOneRun) : Prop where
  trades : validateBookTrades book trades fills = .ok ()
  nonempty : fills ≠ []
  unique : (fills.map (·.fillId)).Nodup
  scope : ∀ fill ∈ fills, fill.accountId = book.accountId ∧ fill.symbol = book.symbol
  recorded : ∀ fill ∈ fills, ¬ asOf < fill.recordedAt
  session : run.sessions.asOfSession = calendar.zone.date asOf
  statuses : run.sessions.statuses = sortBy sessionKey symbolSessionStatuses
  ordered : run.orderedFills = sortBy recordedKey fills
  effective : effectiveFills fills = .ok run.effective
  settled : Settled book.symbol calendar run.sessions.statuses ⟨[], 0, []⟩ run.effective run.settled
  loop : run.effective.foldlM (tPlusOneStep book.symbol calendar run.sessions.statuses) ⟨[], 0, []⟩
      = .ok run.settled

variable {book : PositionBook} {calendar : TradingCalendarArtifact}
  {symbolSessionStatuses : List SymbolTradingSessionStatus} {asOf : Instant}

theorem sessionAuthority_ok {sessions : Sessions}
    (h : sessionAuthority book calendar symbolSessionStatuses asOf = .ok sessions) :
    sessions.asOfSession = calendar.zone.date asOf
      ∧ sessions.statuses = sortBy sessionKey symbolSessionStatuses := by
  simp only [sessionAuthority, bind_ok] at h
  obtain ⟨_, -, _, -, _, -, _, -, _, -, h⟩ := h
  cases hcurrent : statusOn (sortBy sessionKey symbolSessionStatuses) (calendar.zone.date asOf) with
  | none =>
    rw [hcurrent] at h
    cases h
  | some status =>
    rw [hcurrent] at h
    simp only [bind_ok, pure_ok] at h
    obtain ⟨_, -, rfl⟩ := h
    exact ⟨rfl, rfl⟩

theorem accepted_of_run {trades : List ManualTradeRecord} {fills : List Fill} {run : TPlusOneRun}
    (h : tPlusOneRun book trades fills calendar symbolSessionStatuses asOf = .ok run) :
    Accepted book trades fills calendar symbolSessionStatuses asOf run := by
  simp only [tPlusOneRun, bind_ok, pure_ok, require_ok] at h
  obtain ⟨_, hvalid, sessions, hsessions, _, hrecorded, effective,
    heffective, settled, hsettled, rfl⟩ := h
  simp only [validateTraceableBookInputs, bind_ok, require_ok] at hvalid
  obtain ⟨_, htrades, _, hunique, hscope⟩ := hvalid
  have hnonempty : fills ≠ [] := by
    simp only [validateBookTrades, bind_ok, require_ok] at htrades
    obtain ⟨_, -, _, -, _, -, hfills, -⟩ := htrades
    exact hfills
  rw [effectiveFills_sorted] at heffective
  obtain ⟨hsession, hstatuses⟩ := sessionAuthority_ok hsessions
  refine ⟨htrades, hnonempty, hunique, hscope, fun fill hfill => ?_,
    hsession, hstatuses, rfl, heffective, settled_spec hsettled, hsettled⟩
  exact hrecorded fill ((sortBy_perm recordedKey fills).mem_iff.mpr hfill)

def TPlusOneRun.lots (run : TPlusOneRun) : List PositionLot :=
  run.settled.lots.map (settleLot run.sessions)

-- ==== one lot

section Lot

variable (sessions : Sessions) (lot : MutableLot SettlementDates)

theorem settleLot_available : (settleLot sessions lot).available
    = if lot.settlement.sellableFromSession ≤ sessions.asOfSession
        ∧ sessions.currentStatus.state = .tradable then
      lot.quantityRemaining else 0 := by
  unfold settleLot PositionLot.available
  by_cases hle : lot.settlement.sellableFromSession ≤ sessions.asOfSession
  · cases hstate : sessions.currentStatus.state with
    | tradable => simp [hle]
    | suspended => simp [hle]
    | unknown => simp [hle]
  · simp [hle]

theorem settleLot_settlement : ∃ settlement, (settleLot sessions lot).settlement = some settlement
      ∧ settlement.tradeDate = lot.settlement.tradeDate
      ∧ settlement.sellableFromSession = lot.settlement.sellableFromSession
      ∧ settlement.availableQuantity = (settleLot sessions lot).available
      ∧ settlement.frozenQuantity = lot.quantityRemaining - (settleLot sessions lot).available :=
  ⟨_, rfl, rfl, rfl, rfl, rfl⟩

theorem settleLot_available_le : (settleLot sessions lot).available ≤ lot.quantityRemaining := by
  rw [settleLot_available]
  split
  · exact Nat.le_refl _
  · exact Nat.zero_le _

theorem settleLot_postInit (hquantity : 0 < lot.quantityRemaining) (hcost : 0 < lot.unitCost)
    (hdates : lot.settlement.tradeDate < lot.settlement.sellableFromSession) :
    (settleLot sessions lot).postInit = .ok (settleLot sessions lot) := by
  obtain ⟨settlement, hs, htrade, hsellable, havailable, hfrozen⟩ :=
    settleLot_settlement sessions lot
  have hle := settleLot_available_le sessions lot
  unfold PositionLot.postInit
  rw [hs]
  simp only [bind_ok, require_ok, pure_ok]
  refine ⟨(), ⟨hquantity, hcost⟩, (), ?_, (), ?_, trivial⟩
  · rw [havailable, hfrozen]
    show _ = lot.quantityRemaining
    omega
  · rw [htrade, hsellable]
    exact hdates

end Lot

-- ==== all the lots

section Lots

variable {sessions : Sessions} {lots : List (MutableLot SettlementDates)}

theorem available_add_today (sessions : Sessions) (hdates : ∀ lot ∈ lots,
      lot.settlement.tradeDate < lot.settlement.sellableFromSession) :
    ((lots.map (settleLot sessions)).map (·.available)).sum
        + (((lots.map (settleLot sessions)).filter
          (·.tradeDate == some sessions.asOfSession)).map
            (·.quantityRemaining)).sum
      ≤ ((lots.map (settleLot sessions)).map (·.quantityRemaining)).sum := by
  induction lots with
  | nil => exact Nat.le_refl _
  | cons lot lots ih =>
    have hrest := ih fun l hl => hdates l (mem_cons_of_mem lot hl)
    have hle := settleLot_available_le sessions lot
    have hquantity : (settleLot sessions lot).quantityRemaining = lot.quantityRemaining := rfl
    simp only [map_cons, sum_cons, filter_cons]
    split
    · next htoday =>
        -- a lot of today opens later, so it has no available share
        have hday : lot.settlement.tradeDate = sessions.asOfSession :=
          Option.some.inj (beq_iff_eq.mp htoday)
        have hlater := hdates lot mem_cons_self
        have hzero : (settleLot sessions lot).available = 0 := by
          rw [settleLot_available, if_neg]
          rintro ⟨hopen, -⟩
          rw [hday] at hlater
          exact absurd hopen (not_le.mpr hlater)
        simp only [map_cons, sum_cons]
        omega
    · omega

/-- The available shares are those of the lots that are open, on a
session that is tradable. -/
theorem available_sum (sessions : Sessions) (lots : List (MutableLot SettlementDates)) :
    ((lots.map (settleLot sessions)).map (·.available)).sum
      = if sessions.currentStatus.state = .tradable then
          (((lots.map (settleLot sessions)).filter fun lot =>
            lot.settlement.any
              (·.sellableFromSession ≤ sessions.asOfSession)).map
                (·.quantityRemaining)).sum
        else 0 := by
  induction lots with
  | nil => simp
  | cons lot lots ih =>
    have hany : ((settleLot sessions lot).settlement.any
        (·.sellableFromSession ≤ sessions.asOfSession))
        = decide (lot.settlement.sellableFromSession ≤ sessions.asOfSession) := rfl
    simp only [map_cons, sum_cons, filter_cons, hany, ih, settleLot_available]
    by_cases hstate : sessions.currentStatus.state = .tradable
    · by_cases hopen : lot.settlement.sellableFromSession ≤ sessions.asOfSession
      · simp [hstate, hopen]
        rfl
      · simp [hstate, hopen]
    · simp [hstate]

end Lots

-- ==== T+1 legality

/-- T+1 legality of a run, and the shares of its snapshot. -/
structure TPlusOneShares (symbol : String) (calendar : TradingCalendarArtifact) (run : TPlusOneRun)
    (snapshot : PositionSnapshot) : Prop where
  /-- A SELL takes shares only of lots of earlier sessions. -/
  sales : ∀ before sell after state, run.effective = before ++ sell :: after → sell.side = .sell →
    before.foldlM (tPlusOneStep symbol calendar run.sessions.statuses) ⟨[], 0, []⟩ = .ok state →
    ∀ pair ∈ state.lots.zip (sellLots (closedOn (sessionOf calendar sell))
        sell ⟨sell.quantity, sell.fees, state.realizedPnl⟩ state.lots).1,
      pair.2.quantityRemaining < pair.1.quantityRemaining →
        pair.1.settlement.tradeDate < sessionOf calendar sell
  /-- The lots of the day of assessment are frozen. -/
  today : ∀ lot ∈ snapshot.lots, ∀ settlement, lot.settlement = some settlement →
      settlement.tradeDate = run.sessions.asOfSession → settlement.availableQuantity = 0
          ∧ settlement.frozenQuantity = lot.quantityRemaining
  /-- The shares of the snapshot are those of its lots. -/
  quantities : ∃ settlement, snapshot.settlement = some settlement
    ∧ settlement.availableQuantity = (if run.sessions.currentStatus.state = .tradable then
          ((snapshot.lots.filter fun lot => lot.settlement.any
            (·.sellableFromSession ≤ run.sessions.asOfSession)).map
              (·.quantityRemaining)).sum
        else 0 : Nat)
    ∧ settlement.availableQuantity + settlement.frozenQuantity = snapshot.totalQuantity
    ∧ 0 ≤ settlement.todayAcquiredQuantity
    ∧ settlement.todayAcquiredQuantity ≤ settlement.frozenQuantity

/-- No check of a quantity raises, of the lots or of the snapshot. -/
structure QuantitiesConsistent (lots : List PositionLot) (snapshot : PositionSnapshot) : Prop where
  lots : lots.mapM PositionLot.postInit = .ok lots
  position : snapshot.checkPosition = .ok ()
  availability : ∃ settlement, snapshot.settlement = some settlement
    ∧ snapshot.checkAvailability settlement = .ok ()

/-- A lot that gives shares to a SELL was open to it, so it came in
before. -/
theorem sale_of_earlier {symbol : String} {calendar : TradingCalendarArtifact}
    {statuses : List SymbolTradingSessionStatus} {before : List Fill}
    {sell : Fill} {state : Settling}
    (hstate : before.foldlM (tPlusOneStep symbol calendar statuses) ⟨[], 0, []⟩ = .ok state)
    {pair : MutableLot SettlementDates × MutableLot SettlementDates}
    (hpair : pair ∈ state.lots.zip (sellLots (closedOn (sessionOf calendar sell)) sell
        ⟨sell.quantity, sell.fees, state.realizedPnl⟩ state.lots).1)
    (hless : pair.2.quantityRemaining < pair.1.quantityRemaining) :
    pair.1.settlement.tradeDate < sessionOf calendar sell := by
  rw [sellLots_spec, soldShares, not_closedOn] at hpair
  have hopen : lotDates.isOpen (sessionOf calendar sell) pair.1 = true :=
    Fifo.open_of_reduced hpair hless
  have hlot : pair.1 ∈ state.lots := (of_mem_zip hpair).1
  obtain ⟨-, -, hdates⟩ := settled_lots (settled_spec hstate) hlot
  exact lt_of_lt_of_le hdates (of_decide_eq_true hopen)

section Legal

variable {book : PositionBook} {trades : List ManualTradeRecord} {fills : List Fill}
  {calendar : TradingCalendarArtifact} {symbolSessionStatuses : List SymbolTradingSessionStatus}
  {asOf : Instant} {run : TPlusOneRun}
  (h : Accepted book trades fills calendar symbolSessionStatuses asOf run)
include h

theorem lots_dates : ∀ lot ∈ run.settled.lots,
    lot.settlement.tradeDate < lot.settlement.sellableFromSession :=
  fun _ hlot => (settled_lots h.settled hlot).2.2

/-- T+1 legality holds of every run. -/
theorem tPlusOne_shares : TPlusOneShares book.symbol calendar run
    (tPlusOneSnapshot book fills calendar asOf run run.lots) := by
  have hsum := available_sum run.sessions run.settled.lots
  have htoday := available_add_today run.sessions (lots_dates h)
  constructor
  case sales =>
    intro before sell after state _ _ hstate pair hpair hless
    exact sale_of_earlier hstate hpair hless
  case today =>
    intro lot hlot settlement hs hday
    obtain ⟨l, hl, rfl⟩ := mem_map.mp hlot
    obtain ⟨settlement', hs', htrade, -, havailable, hfrozen⟩ := settleLot_settlement run.sessions l
    rw [hs'] at hs
    injection hs with hs
    subst hs
    have hlater := lots_dates h l hl
    rw [htrade] at hday
    have hzero : (settleLot run.sessions l).available = 0 := by
      rw [settleLot_available, if_neg]
      rintro ⟨hopen, -⟩
      rw [hday] at hlater
      exact absurd hopen (not_le.mpr hlater)
    rw [havailable, hfrozen, hzero]
    exact ⟨rfl, rfl⟩
  case quantities =>
    refine ⟨_, rfl, ?_, ?_, ?_, ?_⟩
    · exact congrArg Nat.cast hsum
    · simp only [tPlusOneSnapshot]
      omega
    · exact Int.natCast_nonneg _
    · show ((_ : Nat) : Int) ≤ (_ : Nat) - (_ : Nat)
      unfold TPlusOneRun.lots
      omega

-- ==== the checks

theorem mapM_settleLot : run.lots.mapM PositionLot.postInit = .ok run.lots := by
  refine mapM_ok_self fun lot hlot => ?_
  obtain ⟨l, hl, rfl⟩ := mem_map.mp hlot
  obtain ⟨hquantity, hcost, hdates⟩ := settled_lots h.settled hl
  exact settleLot_postInit run.sessions l hquantity hcost hdates

theorem checkPosition_ok :
    (tPlusOneSnapshot book fills calendar asOf run run.lots).checkPosition = .ok () := by
  have hlen : run.orderedFills ≠ [] := by
    rw [h.ordered]
    intro hnil
    have hperm := sortBy_perm recordedKey fills
    rw [hnil] at hperm
    exact h.nonempty hperm.nil_eq.symm
  refine PositionSnapshot.checkPosition_intro ?_ ?_ rfl rfl ?_
  · simpa [tPlusOneSnapshot] using hlen
  · simp [tPlusOneSnapshot]
  · intro hnil
    have hmem : "POSITION_REBUILT_FROM_APPEND_ONLY_FILLS_AND_CALENDAR"
        ∈ (tPlusOneSnapshot book fills calendar asOf run run.lots).reasonCodes :=
      mem_sortedDistinct.mpr (mem_append_left _
        (mem_append_left _ (mem_singleton.mpr rfl)))
    rw [hnil] at hmem
    cases hmem

/-- The quantities of the snapshot pass their checks unless nothing is
left to reconcile. -/
theorem checkAvailability_iff : (∃ settlement, (tPlusOneSnapshot book fills calendar asOf run
        run.lots).settlement = some settlement
      ∧ (tPlusOneSnapshot book fills calendar asOf run
        run.lots).checkAvailability settlement = .ok ())
      ↔ ¬ (Fifo.total run.settled.lots = 0 ∧ run.settled.reconciliationReasons ≠ []) := by
  obtain ⟨settlement, hs, -, htotal, hpos, hle⟩ := (tPlusOne_shares h).quantities
  have hsettled : ∀ lot ∈ (tPlusOneSnapshot book fills calendar asOf run
      run.lots).lots, lot.settlement.isSome = true := by
    intro lot hlot
    obtain ⟨l, -, rfl⟩ := mem_map.mp hlot
    obtain ⟨settlement', hs', -⟩ := settleLot_settlement run.sessions l
    rfl
  have hquantity : (tPlusOneSnapshot book fills calendar asOf run
      run.lots).totalQuantity = Fifo.total run.settled.lots := by
    show ((run.settled.lots.map (settleLot run.sessions)).map
      (·.quantityRemaining)).sum = _
    rw [map_map]
    rfl
  have hstate : settlement.sellabilityState = (classify run.settled.reconciliationReasons
        (tPlusOneSnapshot book fills calendar asOf run run.lots).totalQuantity
        (run.lots.map (·.available)).sum
        run.sessions.currentStatus.state).2.1 := by
    have heq : settlement = _ := (Option.some.inj hs).symm
    rw [heq]
    rfl
  have hclosed : Fifo.total run.settled.lots = 0 → (settlement.sellabilityState ≠ .closed
        ↔ run.settled.reconciliationReasons ≠ []) := by
    intro hzero
    rw [hstate, hquantity, hzero]
    unfold classify
    by_cases hr : run.settled.reconciliationReasons ≠ []
    · simp [hr]
    · simp [hr]
  rw [hs]
  simp only [Option.some.injEq, exists_eq_left',
    PositionSnapshot.checkAvailability, bind_ok, require_ok]
  rw [hquantity]
  constructor
  · rintro ⟨_, -, _, -, _, -, hnot⟩ ⟨hzero, hreasons⟩
    exact hnot ⟨hzero, (hclosed hzero).mpr hreasons⟩
  · intro hnot
    rw [hquantity] at htotal
    refine ⟨(), htotal, (), ⟨hpos, hle⟩, (), hsettled, ?_⟩
    rintro ⟨hzero, hopen⟩
    exact hnot ⟨hzero, (hclosed hzero).mp hopen⟩

end Legal

-- ==== the condition

/-- Every share is sold in time: no more shares are bought than sold, in
all and among those that open after any date. -/
def SoldInTime (calendar : TradingCalendarArtifact) (effective : List Fill) : Prop :=
  shares (buys effective) ≤ shares (sells effective)
    ∧ ∀ date, shares ((buys effective).filter fun fill =>
        date < (settlementDates calendar fill).sellableFromSession)
      ≤ shares ((sells effective).filter fun fill => date < sessionOf calendar fill)

/-- Every share is sold in time, and some SELL is to be reconciled: it
was recorded on a session that was not tradable, or more was sold than
bought. -/
def NothingLeftToReconcile (calendar : TradingCalendarArtifact)
    (statuses : List SymbolTradingSessionStatus) (effective : List Fill) :
    Prop :=
  SoldInTime calendar effective ∧ ((∃ fill ∈ effective, haltedSale statuses calendar fill = true)
      ∨ shares (buys effective) < shares (sells effective))

theorem wantedAfter_dated (symbol : String)
    (calendar : TradingCalendarArtifact) (date : Day) (fills : List Fill) :
    Fifo.wantedAfter date (fills.map (datedEvent symbol calendar))
      = shares ((sells fills).filter fun fill =>
        date < sessionOf calendar fill) := by
  induction fills with
  | nil => rfl
  | cons fill fills ih =>
    rw [map_cons]
    cases hs : fill.side with
    | buy =>
      rw [(split_buy fills hs).2, ← ih]
      simp [fillEvent, hs, Fifo.wantedAfter]
    | sell =>
      rw [(split_sell fills hs).2, filter_cons]
      simp only [fillEvent, hs, Fifo.wantedAfter, ih]
      split
      · next hd => simp [hd]
      · next hd => simp [hd]

theorem soldOut_iff (symbol : String) (calendar : TradingCalendarArtifact) (effective : List Fill) :
    Fifo.SoldOut lotDates (effective.map (datedEvent symbol calendar))
      ↔ SoldInTime calendar effective := by
  have htotal : ∀ fills : List Fill,
      Fifo.total (fills.map (datedLot symbol calendar)) = shares fills :=
    total_map_lotOf _ fun _ => rfl
  have hafter : ∀ date, ((buys effective).map
      (datedLot symbol calendar)).filter (lotDates.after date)
        = ((buys effective).filter fun fill => decide
          (date < (settlementDates calendar fill).sellableFromSession)).map
            (datedLot symbol calendar) := by
    intro date
    rw [filter_map]
    rfl
  unfold Fifo.SoldOut SoldInTime
  rw [addedLots_dated, htotal, wanted_fillEvent]
  simp only [hafter, htotal, wantedAfter_dated]

section Condition

variable {book : PositionBook} {trades : List ManualTradeRecord} {fills : List Fill}
  {calendar : TradingCalendarArtifact} {symbolSessionStatuses : List SymbolTradingSessionStatus}
  {asOf : Instant} {run : TPlusOneRun}
  (h : Accepted book trades fills calendar symbolSessionStatuses asOf run)
include h

theorem soldInTime_of_empty (hempty : Fifo.total run.settled.lots = 0) :
    SoldInTime calendar run.effective := by
  rw [h.settled.lots] at hempty
  rw [← soldOut_iff book.symbol]
  exact Fifo.soldOut_of_empty hempty

theorem empty_of_soldInTime
    (horder : run.effective.Pairwise fun a b => sessionOf calendar a ≤ sessionOf calendar b)
    (hsold : SoldInTime calendar run.effective) :
    Fifo.total run.settled.lots = 0 := by
  have hdate : ∀ fill, lotDates.date (datedEvent book.symbol calendar fill)
      = sessionOf calendar fill := by
    intro fill
    cases hs : fill.side with
    | buy =>
      simp only [fillEvent, hs]
      rfl
    | sell =>
      simp only [fillEvent, hs]
      rfl
  rw [h.settled.lots]
  refine Fifo.empty_of_soldOut ?_ (fun lot hlot => ?_)
    ((soldOut_iff book.symbol calendar run.effective).mpr hsold)
  · rw [pairwise_map]
    simpa only [hdate] using horder
  · rw [addedLots_dated] at hlot
    obtain ⟨fill, -, rfl⟩ := mem_map.mp hlot
    exact settled_after calendar fill

/-- An empty position is to be reconciled exactly when a SELL was
recorded on a session that was not tradable, or more was sold than
bought. -/
theorem reasons_of_empty (hempty : Fifo.total run.settled.lots = 0) :
    run.settled.reconciliationReasons ≠ [] ↔ (∃ fill ∈ run.effective,
          haltedSale run.sessions.statuses calendar fill = true)
        ∨ shares (buys run.effective) < shares (sells run.effective) := by
  have htotal := Fifo.run_total lotDates.isOpen []
    (run.effective.map (datedEvent book.symbol calendar))
  rw [← h.settled.lots, hempty, addedLots_dated, wanted_fillEvent,
    Fifo.total_nil, total_map_lotOf _ fun _ => rfl] at htotal
  have hmissing : 0 < Fifo.missing lotDates.isOpen []
      (run.effective.map (datedEvent book.symbol calendar))
        ↔ shares (buys run.effective) < shares (sells run.effective) := by
    omega
  rw [← hmissing, ne_eq, eq_nil_iff_forall_not_mem, not_forall]
  simp only [not_not, h.settled.reasons, not_mem_nil, false_or]
  constructor
  · rintro ⟨_, ⟨-, hhalted⟩ | ⟨-, hshort⟩⟩
    · exact Or.inl hhalted
    · exact Or.inr hshort
  · rintro (hhalted | hshort)
    · exact ⟨_, Or.inl ⟨rfl, hhalted⟩⟩
    · exact ⟨_, Or.inr ⟨rfl, hshort⟩⟩

/-- What the projection returns is its snapshot, if it passes its own
checks. -/
theorem projectBookTPlusOne_eq
    (hrun : tPlusOneRun book trades fills calendar symbolSessionStatuses asOf = .ok run) :
    projectBookTPlusOne book trades fills calendar symbolSessionStatuses asOf
      = (tPlusOneSnapshot book fills calendar asOf run run.lots).postInit :=
  by
    unfold projectBookTPlusOne
    rw [hrun]
    show (run.lots.mapM PositionLot.postInit >>= _) = _
    rw [mapM_settleLot h]
    rfl

end Condition

/-- T+1 legality of an accepted input: no SELL reaches a lot of its own
session or a later one, the shares of the snapshot add up, and none of
its checks of a quantity raises. -/
def TPlusOneLegal (book : PositionBook) (fills : List Fill) (calendar : TradingCalendarArtifact)
    (asOf : Instant) (run : TPlusOneRun) : Prop :=
  TPlusOneShares book.symbol calendar run (tPlusOneSnapshot book fills calendar asOf run run.lots)
    ∧ QuantitiesConsistent run.lots (tPlusOneSnapshot book fills calendar asOf run run.lots)

/-- An accepted input is T+1 legal unless nothing is left to reconcile;
where its Fills are in the order of their sessions, exactly then. -/
theorem t_plus_one_legal (book : PositionBook) (trades : List ManualTradeRecord) (fills : List Fill)
    (calendar : TradingCalendarArtifact) (symbolSessionStatuses : List SymbolTradingSessionStatus)
    (asOf : Instant) (run : TPlusOneRun)
    (hrun : tPlusOneRun book trades fills calendar symbolSessionStatuses asOf = .ok run) :
    effectiveFills fills = .ok run.effective
      ∧ run.sessions.statuses = sortBy sessionKey symbolSessionStatuses
      ∧ projectBookTPlusOne book trades fills calendar symbolSessionStatuses asOf
        = (tPlusOneSnapshot book fills calendar asOf run run.lots).postInit
      ∧ TPlusOneShares book.symbol calendar run
        (tPlusOneSnapshot book fills calendar asOf run run.lots)
      ∧ (¬ NothingLeftToReconcile calendar run.sessions.statuses
          run.effective → TPlusOneLegal book fills calendar asOf run)
      ∧ ((run.effective.Pairwise fun a b =>
          sessionOf calendar a ≤ sessionOf calendar b) →
        (TPlusOneLegal book fills calendar asOf run
          ↔ ¬ NothingLeftToReconcile calendar run.sessions.statuses run.effective)) := by
  have h := accepted_of_run hrun
  have hshares := tPlusOne_shares h
  have hlegal : TPlusOneLegal book fills calendar asOf run
      ↔ ¬ (Fifo.total run.settled.lots = 0 ∧ run.settled.reconciliationReasons ≠ []) := by
    constructor
    · intro hl
      exact (checkAvailability_iff h).mp hl.2.availability
    · intro hnot
      exact ⟨hshares, mapM_settleLot h, checkPosition_ok h, (checkAvailability_iff h).mpr hnot⟩
  have hcondition : Fifo.total run.settled.lots = 0 ∧ run.settled.reconciliationReasons ≠ [] →
        NothingLeftToReconcile calendar run.sessions.statuses run.effective :=
    fun ⟨hempty, hreasons⟩ => ⟨soldInTime_of_empty h hempty,
      (reasons_of_empty h hempty).mp hreasons⟩
  refine ⟨h.effective, h.statuses, projectBookTPlusOne_eq h hrun, hshares,
    fun hnot => hlegal.mpr fun hbad => hnot (hcondition hbad),
    fun horder => ?_⟩
  rw [hlegal, not_iff_not]
  refine ⟨hcondition, fun ⟨hsold, hreasons⟩ => ?_⟩
  have hempty := empty_of_soldInTime h horder hsold
  exact ⟨hempty, (reasons_of_empty h hempty).mpr hreasons⟩

-- ==== a sample

def sampleBook : PositionBook where
  positionBookId := "book"
  accountId := "account"
  symbol := "600000.SH"
  opportunityId := "opportunity"
  thesisId := "thesis"

def sampleTrade : ManualTradeRecord where
  schemaVersion := .traceable
  manualTradeId := "trade"
  positionBookId := some "book"
  thesisId := some "thesis"
  opportunityId := some "opportunity"
  accountId := "account"
  symbol := "600000.SH"

def sampleCalendar : TradingCalendarArtifact where
  artifactId := "calendar"
  market := "CN_A_SHARE"
  zone := ⟨fun _ => 28800000000⟩
  tradingDates := [1, 2, 3]
  nonempty := by decide
  chronological := by decide

def sampleInstant (day : Int) : Instant := day * 86400000000 + 7200000000

def sampleStatus : SymbolTradingSessionStatus where
  statusId := "status"
  symbol := "600000.SH"
  sessionDate := 2
  state := .tradable
  availabilityTime := sampleInstant 1

def sampleSale (quantity : Nat) (hquantity : 0 < quantity) : List Fill :=
  [sampleFill "b1" .buy 100 10 (sampleInstant 1) .execution hundred_shares price_ten
      (FillKind.execution_ne _),
    sampleFill "s1" .sell quantity 12 (sampleInstant 2) .execution hquantity price_twelve
      (FillKind.execution_ne _)]

theorem t_plus_one_legal_sample : ∃ run,
    tPlusOneRun sampleBook [sampleTrade] (sampleSale 40 (by decide))
        sampleCalendar [sampleStatus] (sampleInstant 2) = .ok run
      ∧ TPlusOneLegal sampleBook (sampleSale 40 (by decide)) sampleCalendar
        (sampleInstant 2) run := by
  have hok : (tPlusOneRun sampleBook [sampleTrade]
      (sampleSale 40 (by decide)) sampleCalendar [sampleStatus]
      (sampleInstant 2)).isOk := by
    decide +kernel
  cases h : tPlusOneRun sampleBook [sampleTrade]
      (sampleSale 40 (by decide)) sampleCalendar [sampleStatus]
      (sampleInstant 2) with
  | error raised =>
    rw [h] at hok
    cases hok
  | ok run =>
    obtain ⟨heffective, -, -, -, hlegal, -⟩ := t_plus_one_legal sampleBook
      [sampleTrade] (sampleSale 40 (by decide)) sampleCalendar
      [sampleStatus] (sampleInstant 2) run h
    have hfills : effectiveFills (sampleSale 40 (by decide)) = .ok (sampleSale 40 (by decide)) := by
      rfl
    injection heffective with heffective
    refine ⟨run, rfl, hlegal ?_⟩
    rw [← heffective]
    rintro ⟨⟨hsold, -⟩, -⟩
    revert hsold
    decide

/-- More is sold than was ever bought: the position is empty, must be
reconciled, and is refused by its own snapshot. -/
theorem oversold_not_legal : ∃ run,
    tPlusOneRun sampleBook [sampleTrade] (sampleSale 200 (by decide))
        sampleCalendar [sampleStatus] (sampleInstant 2) = .ok run
      ∧ ¬ TPlusOneLegal sampleBook (sampleSale 200 (by decide)) sampleCalendar (sampleInstant 2) run
      ∧ projectBookTPlusOne sampleBook [sampleTrade]
          (sampleSale 200 (by decide)) sampleCalendar [sampleStatus]
          (sampleInstant 2)
        = .error (.valueError "closed Position requires CLOSED sellability")
    := by
  have hsettled : (tPlusOneRun sampleBook [sampleTrade]
      (sampleSale 200 (by decide)) sampleCalendar [sampleStatus]
      (sampleInstant 2)).map (fun run => (Fifo.total run.settled.lots,
        run.settled.reconciliationReasons))
      = .ok (0, ["T_PLUS_ONE_SELL_EXCEEDS_AVAILABLE"]) := by
    decide +kernel
  cases h : tPlusOneRun sampleBook [sampleTrade]
      (sampleSale 200 (by decide)) sampleCalendar [sampleStatus]
      (sampleInstant 2) with
  | error raised =>
    rw [h] at hsettled
    cases hsettled
  | ok run =>
    rw [h] at hsettled
    simp only [Except.map, Except.ok.injEq, Prod.mk.injEq] at hsettled
    refine ⟨run, rfl, fun hlegal => ?_, by decide +kernel⟩
    refine (checkAvailability_iff (accepted_of_run h)).mp hlegal.2.availability ⟨hsettled.1, ?_⟩
    rw [hsettled.2]
    exact cons_ne_nil _ _

end MarketRegimeAlpha.Position
