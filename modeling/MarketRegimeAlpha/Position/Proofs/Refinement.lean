/-
The T+1 projection against the plain one.

Both take shares from the front of the same queue, and the T+1 projection
passes over the lots that are not open yet. While every SELL finds its
shares it lets go of as many as the plain projection, so neither the
number of shares nor the need to reconcile differs. Which lots they come
from is the same as long as the lots that are not open come last, that
is, as long as the days of the BUYs do not go back along the queue: the
zone of the calendar may well set the clock back over midnight.
-/
import MarketRegimeAlpha.Position.Proofs.TPlusOne

namespace MarketRegimeAlpha.Position

open Lib List

-- ==== the plain projection runs

theorem mapM_freezeLot (symbol : String) (effective : List Fill) :
    ((projectFills symbol effective).lots.map freezeLot).mapM PositionLot.postInit
      = .ok ((projectFills symbol effective).lots.map freezeLot) := by
  refine mapM_ok_self fun frozen hfrozen => ?_
  obtain ⟨lot, hlot, rfl⟩ := mem_map.mp hfrozen
  have hadded : Fifo.addedLots (effective.map (plainEvent symbol))
      = (buys effective).map fun fill => buyLot symbol fill () :=
    addedLots_fillEvent _ _ effective
  have hfull : Fifo.Full (Fifo.addedLots (effective.map (plainEvent symbol))) := by
    rw [hadded]
    exact full_map_lotOf _ (fun _ => rfl) _
  rw [projectFills, (projectStep_foldl symbol effective ⟨[], 0, false⟩).1] at hlot
  have hempty : Fifo.Full ([] : List (MutableLot Unit)) :=
    fun _ h => absurd h not_mem_nil
  have hquantity := Fifo.run_full allOpen hempty hfull lot hlot
  obtain ⟨before, hmem, n, rfl⟩ := Fifo.mem_run allOpen hlot
  rw [nil_append, hadded] at hmem
  obtain ⟨fill, -, rfl⟩ := mem_map.mp hmem
  simp only [PositionLot.postInit, bind_ok, require_ok]
  exact ⟨(), ⟨hquantity, buyLot_unitCost_pos symbol fill ()⟩, rfl⟩

variable {fills : List Fill} {asOf : Instant}

/-- What the checks of `project` ask for is enough for it to return. -/
theorem project_returns {accountId symbol : String} {effective : List Fill}
    (hfills : fills ≠ []) (hunique : (fills.map (·.fillId)).Nodup)
    (hscope : ∀ fill ∈ fills, fill.accountId = accountId ∧ fill.symbol = symbol)
    (hrecorded : ∀ fill ∈ fills, ¬ asOf < fill.recordedAt)
    (heffective : effectiveFills fills = .ok effective) :
    project accountId symbol fills asOf = .ok (plainSnapshot accountId symbol asOf
        ((sortBy recordedKey fills).map (·.fillId)) effective
        (projectFills symbol effective)
        ((projectFills symbol effective).lots.map freezeLot)) := by
  have hperm := sortBy_perm recordedKey fills
  have hsorted : sortBy recordedKey fills ≠ [] := by
    intro hnil
    rw [hnil] at hperm
    exact hfills hperm.nil_eq.symm
  simp only [project, bind_ok, require_ok]
  refine ⟨(), hfills, (), ?_, (), ?_, (), ?_, effective, ?_, _, mapM_freezeLot symbol effective, ?_⟩
  · exact (hperm.map _).nodup_iff.mpr hunique
  · exact fun fill hfill => hscope fill (hperm.mem_iff.mp hfill)
  · exact fun fill hfill => hrecorded fill (hperm.mem_iff.mp hfill)
  · rw [effectiveFills_sorted]
    exact heffective
  · refine PositionSnapshot.postInit_untraced rfl
      (PositionSnapshot.checkPosition_intro ?_ rfl rfl rfl ?_) rfl
    · simpa [plainSnapshot] using hsorted
    · unfold plainSnapshot
      split
      · exact cons_ne_nil _ _
      · exact cons_ne_nil _ _

variable {calendar : TradingCalendarArtifact} {symbol : String}

theorem projectBook_returns {book : PositionBook} {trades : List ManualTradeRecord}
    {symbolSessionStatuses : List SymbolTradingSessionStatus} {run : TPlusOneRun}
    (h : Accepted book trades fills calendar symbolSessionStatuses asOf run) :
    ∃ base, projectBook book trades fills asOf = .ok base
      ∧ Projected book.symbol run.effective base := by
  have hproject := project_returns h.nonempty h.unique h.scope h.recorded h.effective
  obtain ⟨effective, heffective, hp⟩ := projected_of_project hproject
  have hsame : effective = run.effective := by
    have heq := heffective.symm.trans h.effective
    injection heq
  subst hsame
  have hperm := sortBy_perm recordedKey fills
  have hsorted : sortBy recordedKey fills ≠ [] := by
    intro hnil
    rw [hnil] at hperm
    exact h.nonempty hperm.nil_eq.symm
  unfold projectBook
  rw [h.trades, hproject]
  refine ⟨_, PositionSnapshot.postInit_traceable rfl
    (PositionSnapshot.checkPosition_intro ?_ rfl rfl rfl ?_) ?_, ?_⟩
  · simpa [plainSnapshot] using hsorted
  · unfold plainSnapshot
    split
    · exact cons_ne_nil _ _
    · exact cons_ne_nil _ _
  · have hids : sortedDistinct (fills.map (·.manualTradeId)) ≠ [] := by
      intro hnil
      obtain ⟨fill, hfill⟩ := exists_mem_of_ne_nil fills h.nonempty
      have hmem := mem_sortedDistinct.mpr (mem_map_of_mem (f := (·.manualTradeId)) hfill)
      rw [hnil] at hmem
      cases hmem
    have hagain : sortedDistinct (fills.map (·.manualTradeId))
        = sortedDistinct (sortedDistinct (fills.map (·.manualTradeId))) :=
      (sortedDistinct_of_pairwise (sortedDistinct_pairwise _)).symm
    simp only [PositionSnapshot.checkTraceable, bind_ok, require_ok]
    exact ⟨(), Option.some_ne_none _, (), hids, (), hagain, rfl, rfl⟩
  · exact ⟨hp.lots, hp.total, hp.pnl, hp.state, hp.effective_ids, hp.cost⟩

-- ==== shares in number

variable (lots : List (MutableLot SettlementDates))

theorem unmatched_of_missing (fills : List Fill)
    (h : Fifo.missing lotDates.isOpen lots (fills.map (datedEvent symbol calendar)) = 0) :
    unmatched (Fifo.total lots) fills = 0 := by
  induction fills generalizing lots with
  | nil => rfl
  | cons fill fills ih =>
    rw [map_cons] at h
    cases hs : fill.side with
    | buy =>
      have hevent : datedEvent symbol calendar fill = .add (datedLot symbol calendar fill) := by
        simp [fillEvent, hs]
      rw [hevent] at h
      have hrest := ih (lots ++ [datedLot symbol calendar fill]) h
      rw [Fifo.total_append, Fifo.total_cons, Fifo.total_nil] at hrest
      simp only [unmatched, hs]
      exact hrest
    | sell =>
      have hevent : datedEvent symbol calendar fill
          = .take fill.quantity (sessionOf calendar fill) := by
        simp [fillEvent, hs]
      rw [hevent] at h
      simp only [Fifo.missing] at h
      have htake := Fifo.total_take (lotDates.isOpen (sessionOf calendar fill)) fill.quantity lots
      have hrest := ih _ (Nat.eq_zero_of_add_eq_zero_left h)
      have hleft : Fifo.total (Fifo.take
          (lotDates.isOpen (sessionOf calendar fill)) fill.quantity lots)
          = Fifo.total lots - fill.quantity := by omega
      rw [hleft] at hrest
      simp only [unmatched, hs]
      omega

-- ==== lot for lot

variable (lot : MutableLot SettlementDates)

def plainLot : MutableLot Unit where
  sourceFillId := lot.sourceFillId
  symbol := lot.symbol
  quantityRemaining := lot.quantityRemaining
  unitCost := lot.unitCost
  acquiredAt := lot.acquiredAt
  settlement := ()

theorem costOf_plainLot : costOf (lots.map plainLot) = costOf lots := by
  unfold costOf
  rw [map_map]
  rfl

theorem total_plainLot : Fifo.total (lots.map plainLot) = Fifo.total lots := by
  unfold Fifo.total
  rw [map_map]
  rfl

def opening : Day := lot.settlement.sellableFromSession

def openingOf (calendar : TradingCalendarArtifact) (fill : Fill) : Day :=
  (settlementDates calendar fill).sellableFromSession

/-- A SELL that finds its shares in lots that open in their order leaves
what the plain one leaves, and makes what it makes. -/
theorem sellFill_plain {date : Day} {fill : Fill} {lots : List (MutableLot SettlementDates)}
    (realizedPnl : ℚ) (horder : (lots.map opening).Pairwise (· ≤ ·))
    (henough : fill.quantity ≤ Fifo.total (lots.filter (lotDates.isOpen date))) :
    (Fifo.take (lotDates.isOpen date) fill.quantity lots).map plainLot
        = Fifo.take (fun _ => true) fill.quantity (lots.map plainLot)
      ∧ (sellFill (closedOn date) fill lots realizedPnl).2.realizedPnl
        = (sellFill (fun _ => false) fill (lots.map plainLot) realizedPnl).2.realizedPnl := by
  have hpre : lots.Pairwise fun a b =>
      lotDates.isOpen date b = true → lotDates.isOpen date a = true := by
    rw [pairwise_map] at horder
    refine horder.imp fun hab hb => ?_
    exact decide_eq_true (le_trans hab (of_decide_eq_true hb))
  have hsame : Fifo.take (lotDates.isOpen date) fill.quantity lots
      = Fifo.take (fun _ => true) fill.quantity lots := by
    unfold Fifo.take
    rw [Fifo.taken_of_prefix hpre henough]
  have hmap : Fifo.take (fun _ => true) fill.quantity (lots.map plainLot)
      = (Fifo.take (fun _ => true) fill.quantity lots).map plainLot :=
    Fifo.take_map (f := plainLot) (fun _ => rfl) (fun _ _ => rfl) (fun _ => rfl) _ _
  have hle := Fifo.total_filter_le (lotDates.isOpen date) lots
  have hdated : matched (closedOn date) fill.quantity lots = fill.quantity := by
    unfold matched
    rw [not_closedOn]
    omega
  have hplain : matched (fun _ => false) fill.quantity (lots.map plainLot) = fill.quantity := by
    show min _ (Fifo.total ((lots.map plainLot).filter fun _ => true)) = _
    rw [filter_allOpen, total_plainLot]
    omega
  refine ⟨by rw [hsame, hmap], ?_⟩
  rw [(sellFill_spec (closedOn date) fill lots realizedPnl).2.2,
    (sellFill_spec (fun _ => false) fill (lots.map plainLot)
      realizedPnl).2.2, hdated, hplain, not_closedOn, hsame]
  show _ = realizedPnl + (_ - _ - (costOf (lots.map plainLot)
    - costOf (Fifo.take (fun _ => true) fill.quantity (lots.map plainLot))))
  rw [hmap, costOf_plainLot, costOf_plainLot]

/-- The two loops, side by side: while no SELL is short and the lots open
in their order, they hold the same lots and have made the same. -/
theorem foldl_plain {statuses : List SymbolTradingSessionStatus}
    {state after : Settling} (plain : Projection)
    (hlots : plain.lots = state.lots.map plainLot)
    (hpnl : plain.realizedPnl = state.realizedPnl)
    (horder : (state.lots.map opening ++ (buys fills).map (openingOf calendar)).Pairwise (· ≤ ·))
    (hmissing : Fifo.missing lotDates.isOpen state.lots
      (fills.map (datedEvent symbol calendar)) = 0)
    (h : fills.foldlM (tPlusOneStep symbol calendar statuses) state = .ok after) :
    (fills.foldl (projectStep symbol) plain).lots = after.lots.map plainLot
      ∧ (fills.foldl (projectStep symbol) plain).realizedPnl = after.realizedPnl := by
  induction fills generalizing state plain with
  | nil =>
    rw [foldlM_nil, pure_ok] at h
    subst h
    exact ⟨hlots, hpnl⟩
  | cons fill fills ih =>
    rw [foldlM_cons, bind_ok] at h
    obtain ⟨next, hstep, h⟩ := h
    rw [foldl_cons]
    rw [map_cons] at hmissing
    cases hs : fill.side with
    | buy =>
      obtain ⟨-, rfl⟩ := tPlusOneStep_buy hs hstep
      have hevent : datedEvent symbol calendar fill = .add (datedLot symbol calendar fill) := by
        simp [fillEvent, hs]
      rw [hevent] at hmissing
      rw [(split_buy fills hs).1, map_cons] at horder
      rw [projectStep_buy hs]
      refine @ih { state with
        lots := state.lots ++ [datedLot symbol calendar fill] } _
        ?_ hpnl ?_ hmissing h
      · dsimp only
        rw [hlots, map_append]
        rfl
      · dsimp only
        rw [map_append, append_assoc]
        exact horder
    | sell =>
      obtain ⟨hsold, hmade, -⟩ := tPlusOneStep_sell hs hstep
      have hevent : datedEvent symbol calendar fill
          = .take fill.quantity (sessionOf calendar fill) := by
        simp [fillEvent, hs]
      rw [hevent] at hmissing
      simp only [Fifo.missing] at hmissing
      have henough : fill.quantity ≤ Fifo.total (state.lots.filter
          (lotDates.isOpen (sessionOf calendar fill))) := by omega
      rw [(split_sell fills hs).1] at horder
      have hsorted := (pairwise_append.mp horder).1
      obtain ⟨hleft, hcash⟩ := sellFill_plain state.realizedPnl hsorted henough
      have hlater : (next.lots.map opening).Sublist (state.lots.map opening) := by
        rw [hsold]
        exact Fifo.take_map_sublist fun _ _ => rfl
      have hplain : (projectStep symbol plain fill).lots
          = Fifo.take (fun _ => true) fill.quantity plain.lots := by
        rw [projectStep_sell hs]
      have hearned : (projectStep symbol plain fill).realizedPnl
          = (sellFill (fun _ => false) fill plain.lots plain.realizedPnl).2.realizedPnl := by
        simp only [projectStep, hs]
      refine ih _ ?_ ?_ ?_ ?_ h
      · rw [hplain, hsold, hlots, hleft]
      · rw [hearned, hmade, hlots, hpnl, hcash]
      · exact horder.sublist (hlater.append_right _)
      · rw [hsold]
        exact Nat.eq_zero_of_add_eq_zero_left hmissing

-- ==== refinement

/-- A lot of a snapshot without its settlement. -/
def unsettled (lot : PositionLot) : PositionLot := { lot with settlement := none }

theorem averageCost_unsettled (lots : List PositionLot) :
    averageCost (lots.map unsettled) = averageCost lots := by
  unfold averageCost
  rw [map_map, map_map]
  rfl

/-- What the T+1 projection `snapshot` owes to the plain one, `base`. -/
structure TPlusOneRefines (calendar : TradingCalendarArtifact)
    (effective : List Fill) (base snapshot : PositionSnapshot) : Prop where
  effective_ids : snapshot.effectiveFillIds = base.effectiveFillIds
  /-- While no SELL exceeds what is available, the shares are those of
  the plain projection, which has nothing to reconcile. -/
  shares : "T_PLUS_ONE_SELL_EXCEEDS_AVAILABLE" ∉ snapshot.reasonCodes →
    base.state ≠ .reconciliationRequired ∧ snapshot.totalQuantity = base.totalQuantity
  /-- And where the days of the BUYs do not go back, so are the lots,
  their cost and what was made. -/
  lots : "T_PLUS_ONE_SELL_EXCEEDS_AVAILABLE" ∉ snapshot.reasonCodes →
    ((buys effective).Pairwise fun a b => sessionOf calendar a ≤ sessionOf calendar b) →
    snapshot.lots.map unsettled = base.lots ∧ snapshot.averageCost = base.averageCost
      ∧ snapshot.realizedPnl = base.realizedPnl
  /-- What the plain projection must reconcile, the T+1 one must. -/
  reconciliation : base.state = .reconciliationRequired → snapshot.state = .reconciliationRequired

/-- The T+1 projection refines the plain one, and the plain one returns
whenever the T+1 one does. -/
theorem t_plus_one_refines (book : PositionBook)
    (trades : List ManualTradeRecord) (fills : List Fill)
    (calendar : TradingCalendarArtifact)
    (symbolSessionStatuses : List SymbolTradingSessionStatus)
    (asOf : Instant) (snapshot : PositionSnapshot)
    (h : projectBookTPlusOne book trades fills calendar symbolSessionStatuses asOf = .ok snapshot) :
    ∃ effective base, effectiveFills fills = .ok effective
      ∧ projectBook book trades fills asOf = .ok base
      ∧ TPlusOneRefines calendar effective base snapshot := by
  simp only [projectBookTPlusOne, bind_ok] at h
  obtain ⟨run, hrun, lots, hlots, h⟩ := h
  have ha := accepted_of_run hrun
  obtain ⟨base, hbase, hp⟩ := projectBook_returns ha
  rw [mapM_postInit hlots] at h
  have hsnapshot := PositionSnapshot.postInit_ok h
  obtain ⟨hplain, hstate, -⟩ := projectStep_foldl book.symbol run.effective ⟨[], 0, false⟩
  dsimp only at hplain hstate
  have hunmatched : Fifo.missing allOpen [] (run.effective.map (plainEvent book.symbol))
        = unmatched 0 run.effective :=
    missing_eq_unmatched _ _ (fun _ => rfl) [] run.effective
  -- the reason is noted exactly when a SELL is short of open lots
  have hreason : "T_PLUS_ONE_SELL_EXCEEDS_AVAILABLE"
      ∉ snapshot.reasonCodes → Fifo.missing lotDates.isOpen []
        (run.effective.map (datedEvent book.symbol calendar)) = 0 := by
    intro hnot
    by_contra hmissing
    refine hnot ?_
    rw [hsnapshot]
    refine mem_sortedDistinct.mpr (mem_append_left _ (mem_append_right _ ?_))
    rw [ha.settled.reasons]
    exact Or.inr (Or.inr ⟨rfl, Nat.pos_of_ne_zero hmissing⟩)
  have hrec : base.state = .reconciliationRequired ↔ 0 < unmatched 0 run.effective := by
    rw [hp.state, projectFills, hstate, hunmatched, Bool.false_or, decide_eq_true_eq]
  refine ⟨run.effective, base, ha.effective, hbase, ?_⟩
  constructor
  case effective_ids =>
    rw [hsnapshot, hp.effective_ids]
    rfl
  case shares =>
    intro hnot
    have hmissing := hreason hnot
    have hnone : unmatched 0 run.effective = 0 := unmatched_of_missing [] run.effective hmissing
    refine ⟨fun hstate => ?_, ?_⟩
    · have hpos := hrec.mp hstate
      omega
    · have hdated := Fifo.run_total lotDates.isOpen []
        (run.effective.map (datedEvent book.symbol calendar))
      have hfifo := Fifo.run_total allOpen [] (run.effective.map (plainEvent book.symbol))
      rw [addedLots_dated, wanted_fillEvent, hmissing, Fifo.total_nil,
        total_map_lotOf _ fun _ => rfl, ← ha.settled.lots] at hdated
      rw [addedLots_fillEvent, wanted_fillEvent, hunmatched, hnone,
        Fifo.total_nil, total_map_lotOf _ fun _ => rfl] at hfifo
      have htotal : snapshot.totalQuantity = Fifo.total run.settled.lots := by
        rw [hsnapshot]
        show ((run.settled.lots.map (settleLot run.sessions)).map
          (·.quantityRemaining)).sum = _
        rw [map_map]
        rfl
      rw [htotal, hp.total, projectFills, hplain]
      omega
  case lots =>
    intro hnot horder
    have hopening : (([] : List (MutableLot SettlementDates)).map opening
        ++ (buys run.effective).map (openingOf calendar)).Pairwise
          (· ≤ ·) := by
      rw [map_nil, nil_append, pairwise_map]
      refine horder.imp_of_mem fun {a b} _ hb hday => ?_
      obtain ⟨date, hdate⟩ := ha.settled.resolved b hb
      exact nextSession_mono hday hdate
    obtain ⟨hleft, hmade⟩ := foldl_plain ⟨[], 0, false⟩ rfl rfl hopening (hreason hnot) ha.loop
    have hsame : snapshot.lots.map unsettled = base.lots := by
      rw [hsnapshot, hp.lots, projectFills, hleft]
      show (run.settled.lots.map (settleLot run.sessions)).map unsettled = _
      rw [map_map, map_map]
      rfl
    refine ⟨hsame, ?_, ?_⟩
    · rw [hp.cost, ← hsame, averageCost_unsettled, hsnapshot]
      rfl
    · rw [hp.pnl, projectFills, hmade, hsnapshot]
      rfl
  case reconciliation =>
    intro hstate
    have hpos := hrec.mp hstate
    have hreasons : run.settled.reconciliationReasons ≠ [] := by
      intro hnil
      have hmissing : Fifo.missing lotDates.isOpen []
          (run.effective.map (datedEvent book.symbol calendar)) = 0 := by
        by_contra hne
        have hmem := (ha.settled.reasons _).mpr (Or.inr (Or.inr ⟨rfl, Nat.pos_of_ne_zero hne⟩))
        rw [hnil] at hmem
        cases hmem
      have hnone : unmatched 0 run.effective = 0 := unmatched_of_missing [] run.effective hmissing
      omega
    rw [hsnapshot]
    show (classify run.settled.reconciliationReasons _ _ _).1 = _
    unfold classify
    rw [if_pos hreasons]

theorem t_plus_one_refines_sample : ∃ snapshot effective base,
    projectBookTPlusOne sampleBook [sampleTrade]
        (sampleSale 40 (by decide)) sampleCalendar [sampleStatus]
        (sampleInstant 2) = .ok snapshot
      ∧ effectiveFills (sampleSale 40 (by decide)) = .ok effective
      ∧ projectBook sampleBook [sampleTrade] (sampleSale 40 (by decide))
        (sampleInstant 2) = .ok base
      ∧ TPlusOneRefines sampleCalendar effective base snapshot := by
  have hok : (projectBookTPlusOne sampleBook [sampleTrade]
      (sampleSale 40 (by decide)) sampleCalendar [sampleStatus]
      (sampleInstant 2)).isOk := by
    decide +kernel
  cases h : projectBookTPlusOne sampleBook [sampleTrade]
      (sampleSale 40 (by decide)) sampleCalendar [sampleStatus]
      (sampleInstant 2) with
  | error raised =>
    rw [h] at hok
    cases hok
  | ok snapshot =>
    obtain ⟨effective, base, heffective, hbase, hrefines⟩ :=
      t_plus_one_refines sampleBook [sampleTrade]
        (sampleSale 40 (by decide)) sampleCalendar [sampleStatus]
        (sampleInstant 2) snapshot h
    exact ⟨snapshot, effective, base, rfl, heffective, hbase, hrefines⟩

-- ==== over midnight

/-- `America/St_Johns` in the autumn of 2006: at one minute past midnight
of October 29 the clock goes back an hour, into October 28. -/
def stJohns : Zone where
  utcOffset instant := if instant < 1162089060000000 then -9000000000 else -12600000000

/-- The three days around it; October 29 is day 13450. -/
def stJohnsCalendar : TradingCalendarArtifact where
  artifactId := "calendar"
  market := "CN_A_SHARE"
  zone := stJohns
  tradingDates := [13449, 13450, 13451]
  nonempty := by decide
  chronological := by decide

def stJohnsStatus : SymbolTradingSessionStatus where
  statusId := "status"
  symbol := "600000.SH"
  sessionDate := 13450
  state := .tradable
  availabilityTime := 1162134000000000

/-- A BUY half a minute after midnight, a dearer one ten minutes later on
the day before, and a SELL at noon. -/
def midnightFills : List Fill :=
  [sampleFill "b1" .buy 100 10 1162089030000000 .execution hundred_shares price_ten
      (FillKind.execution_ne _),
    sampleFill "b2" .buy 100 11 1162089600000000 .execution hundred_shares price_eleven
      (FillKind.execution_ne _),
    sampleFill "s1" .sell 100 12 1162134000000000 .execution hundred_shares price_twelve
      (FillKind.execution_ne _)]

/-- The first lot is not open yet at noon and the second one is, so the
two projections sell different lots. -/
theorem midnight_not_refined : ∃ snapshot base,
    projectBookTPlusOne sampleBook [sampleTrade] midnightFills
        stJohnsCalendar [stJohnsStatus] 1162134000000000 = .ok snapshot
      ∧ "T_PLUS_ONE_SELL_EXCEEDS_AVAILABLE" ∉ snapshot.reasonCodes
      ∧ projectBook sampleBook [sampleTrade] midnightFills 1162134000000000 = .ok base
      ∧ snapshot.lots.map unsettled ≠ base.lots
      ∧ snapshot.realizedPnl ≠ base.realizedPnl := by
  have hdated : (projectBookTPlusOne sampleBook [sampleTrade] midnightFills
      stJohnsCalendar [stJohnsStatus] 1162134000000000).map
        (fun s => (s.reasonCodes, s.lots.map (·.sourceFillId), s.realizedPnl))
      = .ok (["POSITION_REBUILT_FROM_APPEND_ONLY_FILLS_AND_CALENDAR",
          "T_PLUS_ONE_POSITION_FROZEN"], ["b1"], 98) := by
    decide +kernel
  have hplain : (projectBook sampleBook [sampleTrade] midnightFills 1162134000000000).map
        (fun s => (s.lots.map (·.sourceFillId), s.realizedPnl))
      = .ok (["b2"], 198) := by
    decide +kernel
  cases hs : projectBookTPlusOne sampleBook [sampleTrade] midnightFills
      stJohnsCalendar [stJohnsStatus] 1162134000000000 with
  | error raised =>
    rw [hs] at hdated
    cases hdated
  | ok snapshot =>
    cases hb : projectBook sampleBook [sampleTrade] midnightFills 1162134000000000 with
    | error raised =>
      rw [hb] at hplain
      cases hplain
    | ok base =>
      rw [hs] at hdated
      rw [hb] at hplain
      simp only [Except.map, Except.ok.injEq, Prod.mk.injEq] at hdated hplain
      obtain ⟨hreasons, hlots, hpnl⟩ := hdated
      obtain ⟨hlots', hpnl'⟩ := hplain
      refine ⟨snapshot, base, rfl, ?_, rfl, fun heq => ?_, ?_⟩
      · rw [hreasons]
        decide
      · -- the lots would have come from the same Fill
        have hids : snapshot.lots.map (·.sourceFillId) = base.lots.map (·.sourceFillId) := by
          rw [← heq, map_map]
          rfl
        rw [hlots, hlots'] at hids
        revert hids
        decide
      · rw [hpnl, hpnl']
        decide +kernel

end MarketRegimeAlpha.Position
