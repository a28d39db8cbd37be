/-
The plain projection conserves shares and cash.

The loop of `project` is a run of the queue with every lot open
(`Lib.Fifo`), so its lots are what is left of the bought ones after so
many shares from the front. How many that is does not depend on the lots:
`unmatched` counts the shares that a SELL did not find from the number
held alone.
-/
import MarketRegimeAlpha.Position.Proofs.Lots

namespace MarketRegimeAlpha.Position

open Lib List

-- ==== the Fills

def buys (fills : List Fill) : List Fill := fills.filter (·.side == .buy)

def sells (fills : List Fill) : List Fill := fills.filter (·.side == .sell)

def shares (fills : List Fill) : Nat := (fills.map (·.quantity)).sum

def worth (fills : List Fill) : ℚ := (fills.map fun fill => fill.price * (fill.quantity : ℚ)).sum

def feesOf (fills : List Fill) : ℚ := (fills.map (·.fees)).sum

/-- The shares that the SELLs do not find, when so many are held at
first. -/
def unmatched : Nat → List Fill → Nat
  | _, [] => 0
  | held, fill :: fills =>
    match fill.side with
    | .buy => unmatched (held + fill.quantity) fills
    | .sell => (fill.quantity - held) + unmatched (held - fill.quantity) fills

def fillEvent {σ δ : Type} (lotOf : Fill → MutableLot σ) (dateOf : Fill → δ)
    (fill : Fill) : Fifo.Event (MutableLot σ) δ :=
  match fill.side with
  | .buy => .add (lotOf fill)
  | .sell => .take fill.quantity (dateOf fill)

section Events

variable {σ δ : Type} (lotOf : Fill → MutableLot σ) (dateOf : Fill → δ)

theorem addedLots_fillEvent (fills : List Fill) :
    Fifo.addedLots (fills.map (fillEvent lotOf dateOf)) = (buys fills).map lotOf := by
  induction fills with
  | nil => rfl
  | cons fill fills ih =>
    unfold buys at ih ⊢
    cases hs : fill.side with
    | buy => simp [fillEvent, hs, Fifo.addedLots, ih]
    | sell => simp [fillEvent, hs, Fifo.addedLots, ih]

theorem wanted_fillEvent (fills : List Fill) :
    Fifo.wanted (fills.map (fillEvent lotOf dateOf)) = shares (sells fills) := by
  induction fills with
  | nil => rfl
  | cons fill fills ih =>
    unfold sells shares at ih ⊢
    cases hs : fill.side with
    | buy => simp [fillEvent, hs, Fifo.wanted, ih]
    | sell => simp [fillEvent, hs, Fifo.wanted, ih]

variable (hlot : ∀ fill, (lotOf fill).quantityRemaining = fill.quantity)

include hlot in
theorem total_map_lotOf (fills : List Fill) : Fifo.total (fills.map lotOf) = shares fills := by
  unfold Fifo.total shares
  rw [map_map]
  exact congrArg List.sum (map_congr_left fun fill _ => hlot fill)

include hlot in
theorem full_map_lotOf (fills : List Fill) : Fifo.Full (fills.map lotOf) := by
  intro lot hmem
  obtain ⟨fill, -, rfl⟩ := mem_map.mp hmem
  rw [units_lot, hlot]
  exact fill.quantity_positive

include hlot in
theorem missing_eq_unmatched (lots : List (MutableLot σ)) (fills : List Fill) :
    Fifo.missing (fun _ _ => true) lots (fills.map (fillEvent lotOf dateOf))
      = unmatched (Fifo.total lots) fills := by
  induction fills generalizing lots with
  | nil => rfl
  | cons fill fills ih =>
    rw [map_cons]
    cases hs : fill.side with
    | buy =>
      simp only [fillEvent, unmatched, hs, Fifo.missing]
      rw [ih, Fifo.total_append, Fifo.total_cons, Fifo.total_nil, units_lot, hlot, Nat.add_zero]
    | sell =>
      have hall : lots.filter (fun _ => true) = lots := filter_eq_self.mpr fun _ _ => rfl
      have htake := Fifo.total_take (fun _ => true) fill.quantity lots
      rw [hall] at htake
      simp only [fillEvent, unmatched, hs, Fifo.missing, hall]
      rw [ih]
      congr 2
      omega

end Events

theorem costOf_buyLot {σ : Type} (symbol : String) (fill : Fill) (settlement : σ) :
    costOf [buyLot symbol fill settlement] = fill.price * fill.quantity + fill.fees := by
  have hquantity : (fill.quantity : ℚ) ≠ 0 := by
    have := fill.quantity_positive
    exact_mod_cast this.ne'
  rw [costOf_cons, costOf_nil, add_zero]
  show (fill.quantity : ℚ) * ((fill.price * fill.quantity + fill.fees) / fill.quantity) = _
  rw [mul_div_cancel₀ _ hquantity]

section Sums

variable {fill : Fill} (fills : List Fill)

theorem split_buy (h : fill.side = .buy) : buys (fill :: fills) = fill :: buys fills
      ∧ sells (fill :: fills) = sells fills := by
  simp [buys, sells, h]

theorem split_sell (h : fill.side = .sell) : buys (fill :: fills) = buys fills
      ∧ sells (fill :: fills) = fill :: sells fills := by
  simp [buys, sells, h]

@[simp] theorem shares_cons (fill : Fill) :
    shares (fill :: fills) = fill.quantity + shares fills := by
  simp [shares]

@[simp] theorem worth_cons (fill : Fill) :
    worth (fill :: fills) = fill.price * fill.quantity + worth fills := by
  simp [worth]

@[simp] theorem feesOf_cons (fill : Fill) : feesOf (fill :: fills) = fill.fees + feesOf fills := by
  simp [feesOf]

end Sums

-- ==== the loop

/-- What a Fill does to the queue of `project`. -/
abbrev plainEvent (symbol : String) : Fill → Fifo.Event (MutableLot Unit) Unit :=
  fillEvent (fun fill => buyLot symbol fill ()) fun _ => ()

/-- Every lot is open to a SELL of `project`. -/
abbrev allOpen : Unit → MutableLot Unit → Bool := fun _ _ => true

variable (lots : List (MutableLot Unit))

theorem filter_allOpen : lots.filter (fun _ => true) = lots :=
  filter_eq_self.mpr fun _ _ => rfl

theorem missing_take (want : Nat) (lots : List (MutableLot Unit))
    (events : List (Fifo.Event (MutableLot Unit) Unit)) :
    Fifo.missing allOpen lots (.take want () :: events) = (want - Fifo.total lots)
        + Fifo.missing allOpen (Fifo.take (fun _ => true) want lots) events :=
  by
    show (want - Fifo.total (lots.filter fun _ => true)) + _ = _
    rw [filter_allOpen]

variable {symbol : String} {state : Projection} {fill : Fill}

theorem projectStep_buy (h : fill.side = .buy) : projectStep symbol state fill
      = { state with lots := state.lots ++ [buyLot symbol fill ()] } := by
  simp [projectStep, h]

/-- A SELL of `project`, through the queue. -/
theorem projectStep_sell (h : fill.side = .sell) : projectStep symbol state fill = {
      lots := Fifo.take (fun _ => true) fill.quantity state.lots
      realizedPnl := state.realizedPnl
        + ((min fill.quantity (Fifo.total state.lots) : Nat) * fill.price
          - fill.fees - (costOf state.lots - costOf
            (Fifo.take (fun _ => true) fill.quantity state.lots)))
      reconciliation := state.reconciliation
        || decide (0 < fill.quantity - Fifo.total state.lots) } := by
  obtain ⟨hlots, hremaining, hpnl⟩ := sellFill_spec (fun _ => false) fill
    state.lots state.realizedPnl
  have hmatched : matched (fun _ : MutableLot Unit => false) fill.quantity
      state.lots = min fill.quantity (Fifo.total state.lots) := by
    show min _ (Fifo.total (state.lots.filter fun _ => true)) = _
    rw [filter_allOpen]
  rw [hmatched] at hremaining hpnl
  have hshort : fill.quantity - min fill.quantity (Fifo.total state.lots)
      = fill.quantity - Fifo.total state.lots := by omega
  simp only [projectStep, h, hlots, hpnl, hremaining, hshort, Bool.not_false]

/-- What the loop has made once all its SELLs are matched. -/
def Made (before after : Projection) (fills : List Fill) : Prop :=
  after.realizedPnl = before.realizedPnl + (worth (sells fills)
    - feesOf (sells fills) - (costOf before.lots
      + (worth (buys fills) + feesOf (buys fills)) - costOf after.lots))

/-- The loop from any state, by induction on the Fills: its lots are
those of the queue, it needs reconciliation once a SELL is short, and
until then it makes what its Fills say. -/
theorem projectStep_foldl (symbol : String) (fills : List Fill) (state : Projection) :
    (fills.foldl (projectStep symbol) state).lots
        = Fifo.run allOpen state.lots (fills.map (plainEvent symbol))
      ∧ (fills.foldl (projectStep symbol) state).reconciliation
        = (state.reconciliation || decide (0 < Fifo.missing allOpen state.lots
          (fills.map (plainEvent symbol))))
      ∧ (Fifo.missing allOpen state.lots (fills.map (plainEvent symbol)) = 0 →
        Made state (fills.foldl (projectStep symbol) state) fills) := by
  induction fills generalizing state with
  | nil =>
    refine ⟨rfl, by simp [Fifo.missing], fun _ => ?_⟩
    simp [Made, worth, feesOf, buys, sells]
  | cons fill fills ih =>
    obtain ⟨hlots, hrec, hpnl⟩ := ih (projectStep symbol state fill)
    rw [foldl_cons, map_cons]
    cases hs : fill.side with
    | buy =>
      have hevent : plainEvent symbol fill = .add (buyLot symbol fill ()) := by simp [fillEvent, hs]
      have hcost := costOf_buyLot symbol fill ()
      obtain ⟨hbuys, hsells⟩ := split_buy fills hs
      rw [projectStep_buy hs] at hlots hrec hpnl ⊢
      rw [hevent]
      refine ⟨hlots, hrec, fun hmissing => ?_⟩
      have hmade := hpnl hmissing
      unfold Made at hmade ⊢
      rw [hmade, hbuys, hsells, costOf_append, hcost, worth_cons, feesOf_cons]
      ring
    | sell =>
      have hevent : plainEvent symbol fill = .take fill.quantity () := by simp [fillEvent, hs]
      obtain ⟨hbuys, hsells⟩ := split_sell fills hs
      rw [projectStep_sell hs] at hlots hrec hpnl ⊢
      dsimp only at hlots hrec hpnl
      rw [hevent, missing_take]
      refine ⟨hlots, ?_, fun hmissing => ?_⟩
      · rw [hrec, Bool.or_assoc]
        congr 1
        rw [← Bool.decide_or, decide_eq_decide]
        omega
      · have hmade := hpnl (by omega)
        have hall : min fill.quantity (Fifo.total state.lots) = fill.quantity := by omega
        unfold Made at hmade ⊢
        rw [hmade, hbuys, hsells, hall, worth_cons, feesOf_cons]
        ring

-- ==== the snapshot

theorem PositionLot.postInit_ok {lot lot' : PositionLot}
    (h : lot.postInit = .ok lot') : lot' = lot := by
  unfold PositionLot.postInit at h
  cases hs : lot.settlement with
  | none =>
    rw [hs] at h
    simp only [bind_ok, pure_ok] at h
    obtain ⟨_, -, h⟩ := h
    exact h.symm
  | some settlement =>
    rw [hs] at h
    simp only [bind_ok, pure_ok] at h
    obtain ⟨_, -, _, -, _, -, h⟩ := h
    exact h.symm

theorem mapM_postInit {lots lots' : List PositionLot}
    (h : lots.mapM PositionLot.postInit = .ok lots') : lots' = lots := by
  have hmap := map_mapM_ok (g := id) (k := id) (fun lot lot' hlot => PositionLot.postInit_ok hlot) h
  simpa using hmap

theorem PositionSnapshot.postInit_ok {s s' : PositionSnapshot}
    (h : s.postInit = .ok s') : s' = s := by
  unfold PositionSnapshot.postInit at h
  cases hs : s.schemaVersion with
  | positionSnapshot =>
    rw [hs] at h
    simp only [bind_ok, pure_ok] at h
    obtain ⟨_, -, _, -, h⟩ := h
    exact h.symm
  | traceable =>
    rw [hs] at h
    simp only [bind_ok, pure_ok] at h
    obtain ⟨_, -, _, -, h⟩ := h
    exact h.symm
  | tPlusOne =>
    rw [hs] at h
    simp only [bind_ok, pure_ok] at h
    obtain ⟨_, -, _, -, h⟩ := h
    exact h.symm

variable {s : PositionSnapshot}

theorem PositionSnapshot.postInit_untraced (hs : s.schemaVersion = .positionSnapshot)
    (hp : s.checkPosition = .ok ()) (hc : s.checkUntraced = .ok ()) :
    s.postInit = .ok s := by
  unfold PositionSnapshot.postInit
  rw [hp, hs]
  rw [hc]
  rfl

theorem PositionSnapshot.postInit_traceable (hs : s.schemaVersion = .traceable)
    (hp : s.checkPosition = .ok ()) (hc : s.checkTraceable = .ok ()) :
    s.postInit = .ok s := by
  unfold PositionSnapshot.postInit
  rw [hp, hs]
  rw [hc]
  rfl

theorem averageCost_isSome (lots : List PositionLot) : (averageCost lots).isSome = true
      ↔ (lots.map (·.quantityRemaining)).sum ≠ 0 := by
  by_cases hzero : (lots.map (·.quantityRemaining)).sum = 0
  · simp [averageCost, hzero]
  · simp [averageCost, hzero]

theorem PositionSnapshot.checkPosition_intro
    (hids : s.sourceFillIds ≠ []) (hversion : s.version = s.sourceFillIds.length)
    (htotal : s.totalQuantity = (s.lots.map (·.quantityRemaining)).sum)
    (hcost : s.averageCost = Position.averageCost s.lots)
    (hreasons : s.reasonCodes ≠ []) : s.checkPosition = .ok () := by
  have hsome := averageCost_isSome s.lots
  rw [← hcost, ← htotal] at hsome
  unfold PositionSnapshot.checkPosition
  simp only [bind_ok, require_ok]
  refine ⟨(), ⟨hids, hversion⟩, (), htotal, (), ?_, (), ?_, ?_⟩
  · rintro ⟨hzero, hcost⟩
    exact hsome.mp hcost hzero
  · rintro ⟨hpos, hnone⟩
    have hcost := hsome.mpr (by omega)
    rw [hnone] at hcost
    cases hcost
  · exact fun hnil => hreasons hnil.2

/-- The Fills are sorted before `_effective_fills` sorts them. -/
theorem effectiveFills_sorted (fills : List Fill) :
    effectiveFills (sortBy recordedKey fills) = effectiveFills fills := by
  unfold effectiveFills
  rw [sortBy_sortBy]

theorem effectiveFills_pairwise {fills effective : List Fill}
    (h : effectiveFills fills = .ok effective) :
    effective.Pairwise fun a b => occurredKey a ≤ occurredKey b := by
  simp only [effectiveFills, bind_ok, pure_ok] at h
  obtain ⟨_, -, rfl⟩ := h
  exact sortBy_pairwise occurredKey _

/-- The fields of what `project` returns that its loop decides. -/
structure Projected (symbol : String) (effective : List Fill)
    (snapshot : PositionSnapshot) : Prop where
  lots : snapshot.lots = (projectFills symbol effective).lots.map freezeLot
  total : snapshot.totalQuantity = Fifo.total (projectFills symbol effective).lots
  pnl : snapshot.realizedPnl = (projectFills symbol effective).realizedPnl
  state : snapshot.state = .reconciliationRequired
    ↔ (projectFills symbol effective).reconciliation = true
  effective_ids : snapshot.effectiveFillIds = effective.map (·.fillId)
  cost : snapshot.averageCost = averageCost snapshot.lots

theorem total_freezeLot :
    ((lots.map freezeLot).map (·.quantityRemaining)).sum = Fifo.total lots := by
  rw [map_map]
  rfl

theorem projected_of_project {accountId symbol : String} {fills : List Fill} {asOf : Instant}
    {snapshot : PositionSnapshot} (h : project accountId symbol fills asOf = .ok snapshot) :
    ∃ effective, effectiveFills fills = .ok effective ∧ Projected symbol effective snapshot := by
  simp only [project, bind_ok, require_ok] at h
  obtain ⟨_, -, _, -, _, -, _, -, effective, heffective, lots, hlots, h⟩ := h
  rw [effectiveFills_sorted] at heffective
  rw [mapM_postInit hlots] at h
  have hsnapshot := PositionSnapshot.postInit_ok h
  refine ⟨effective, heffective, ?_⟩
  subst hsnapshot
  constructor
  case lots => rfl
  case total => exact total_freezeLot _
  case pnl => rfl
  case state =>
    unfold plainSnapshot
    dsimp only
    cases (projectFills symbol effective).reconciliation with
    | true => simp
    | false =>
      rw [if_neg (by simp)]
      split
      · simp
      · simp
  case effective_ids => rfl
  case cost => rfl

-- ==== conservation

def lotLeft (symbol : String) (fill : Fill) (count : Nat) : PositionLot where
  sourceFillId := fill.fillId
  symbol := symbol
  quantityRemaining := count
  unitCost := (fill.price * fill.quantity + fill.fees) / fill.quantity
  acquiredAt := fill.occurredAt
  settlement := none

/-- What a snapshot owes to its effective Fills. -/
structure Conserved (symbol : String) (effective : List Fill)
    (snapshot : PositionSnapshot) : Prop where
  ordered : effective.Pairwise fun a b => occurredKey a ≤ occurredKey b
  effective_ids : snapshot.effectiveFillIds = effective.map (·.fillId)
  /-- Shares held are shares bought, less those sold and found. -/
  quantity : snapshot.totalQuantity + shares (sells effective)
    = shares (buys effective) + unmatched 0 effective
  reconciliation : snapshot.state = .reconciliationRequired ↔ 0 < unmatched 0 effective
  /-- The lots are the last BUYs, the first of them perhaps in part. -/
  remainder : snapshot.lots = [] ∨ ∃ front first back count,
    buys effective = front ++ first :: back ∧ 0 < count ∧ count ≤ first.quantity
      ∧ snapshot.lots = lotLeft symbol first count
        :: back.map fun fill => lotLeft symbol fill fill.quantity
  /-- Cash is proceeds less fees, less what was spent on shares that are
  no longer held. -/
  pnl : unmatched 0 effective = 0 → snapshot.realizedPnl = worth (sells effective)
      - feesOf (sells effective)
      - (worth (buys effective) + feesOf (buys effective) - (snapshot.lots.map fun lot =>
          (lot.quantityRemaining : ℚ) * lot.unitCost).sum)

theorem projectFills_lots (symbol : String) (effective : List Fill) :
    (projectFills symbol effective).lots
      = Fifo.dropUnits (shares (sells effective) - unmatched 0 effective)
        ((buys effective).map fun fill => buyLot symbol fill ()) := by
  have hfull : Fifo.Full (Fifo.addedLots (effective.map (plainEvent symbol))) := by
    rw [addedLots_fillEvent]
    exact full_map_lotOf _ (fun _ => rfl) _
  have hempty : Fifo.Full ([] : List (MutableLot Unit)) := nofun
  have hrun := (Fifo.run_eq_dropUnits hempty hfull).2
  rw [addedLots_fillEvent, wanted_fillEvent, missing_eq_unmatched _ _ fun _ => rfl] at hrun
  rw [projectFills, (projectStep_foldl symbol effective ⟨[], 0, false⟩).1]
  exact hrun

/-- Shares and cash are conserved by the plain projection. -/
theorem project_conserves (accountId symbol : String) (fills : List Fill) (asOf : Instant)
    (snapshot : PositionSnapshot) (h : project accountId symbol fills asOf = .ok snapshot) :
    ∃ effective, effectiveFills fills = .ok effective ∧ Conserved symbol effective snapshot := by
  obtain ⟨effective, heffective, hp⟩ := projected_of_project h
  obtain ⟨hlots, hrec, hpnl⟩ := projectStep_foldl symbol effective ⟨[], 0, false⟩
  dsimp only at hlots hrec hpnl
  have hmissing : Fifo.missing allOpen []
      (effective.map (plainEvent symbol)) = unmatched 0 effective :=
    missing_eq_unmatched _ _ (fun _ => rfl) [] effective
  refine ⟨effective, heffective, ?_⟩
  constructor
  case ordered => exact effectiveFills_pairwise heffective
  case effective_ids => exact hp.effective_ids
  case quantity =>
    have htotal := Fifo.run_total allOpen [] (effective.map (plainEvent symbol))
    rw [addedLots_fillEvent, wanted_fillEvent, hmissing, Fifo.total_nil,
      total_map_lotOf _ fun _ => rfl] at htotal
    rw [hp.total, projectFills, hlots]
    omega
  case reconciliation =>
    rw [hp.state, projectFills, hrec, hmissing, Bool.false_or, decide_eq_true_eq]
  case remainder =>
    rw [hp.lots, projectFills_lots]
    rcases Fifo.dropUnits_suffix (shares (sells effective) - unmatched 0 effective)
      ((buys effective).map fun fill => buyLot symbol fill ()) with
      hnil | ⟨front, lot, back, count, heq, hpos, hle, hdrop⟩
    · exact Or.inl (by rw [hnil]; rfl)
    · obtain ⟨frontFills, rest, hsplit, -, hrest⟩ := map_eq_append_iff.mp heq
      obtain ⟨first, backFills, rfl, rfl, rfl⟩ := map_eq_cons_iff.mp hrest
      refine Or.inr ⟨frontFills, first, backFills, count, hsplit, hpos, hle, ?_⟩
      rw [hdrop, map_cons, map_map]
      rfl
  case pnl =>
    intro hzero
    have hmade := hpnl (hmissing.trans hzero)
    have hcost : (snapshot.lots.map fun lot =>
        (lot.quantityRemaining : ℚ) * lot.unitCost).sum
        = costOf (projectFills symbol effective).lots := by
      rw [hp.lots, map_map]
      rfl
    rw [hcost, hp.pnl, projectFills, hmade]
    simp only [costOf_nil]
    ring

def sampleFill (fillId : String) (side : TradeSide) (quantity : Nat) (price : ℚ)
    (occurredAt : Instant) (fillKind : FillKind) (hquantity : 0 < quantity) (hprice : 0 < price)
    (hself : fillKind ≠ .correction fillId) : Fill where
  fillId := fillId
  manualTradeId := "trade"
  accountId := "account"
  symbol := "600000.SH"
  side := side
  quantity := quantity
  price := price
  fees := 1
  occurredAt := occurredAt
  recordedAt := occurredAt
  fillKind := fillKind
  quantity_positive := hquantity
  price_positive := hprice
  fees_nonneg := by decide +kernel
  recorded_after := le_refl _
  not_self := hself

theorem hundred_shares : 0 < 100 := Nat.succ_pos 99

theorem price_ten : (0 : ℚ) < 10 := by
  decide +kernel

theorem price_eleven : (0 : ℚ) < 11 := by
  decide +kernel

theorem price_twelve : (0 : ℚ) < 12 := by
  decide +kernel

/-- Two BUYs, the second of them corrected, and a SELL that takes the
first and a part of the second. -/
def sampleFills : List Fill :=
  [sampleFill "b1" .buy 100 10 0 .execution hundred_shares price_ten (FillKind.execution_ne _),
    sampleFill "b2" .buy 300 11 1 .execution (by decide) price_eleven (FillKind.execution_ne _),
    sampleFill "c2" .buy 200 11 2 (.correction "b2") (by decide) price_eleven (by decide),
    sampleFill "s1" .sell 150 12 3 .execution (by decide) price_twelve (FillKind.execution_ne _)]

theorem project_conserves_sample : ∃ snapshot effective,
    project "account" "600000.SH" sampleFills 10 = .ok snapshot
      ∧ effectiveFills sampleFills = .ok effective
      ∧ Conserved "600000.SH" effective snapshot := by
  have hok : (project "account" "600000.SH" sampleFills 10).isOk := by decide +kernel
  cases h : project "account" "600000.SH" sampleFills 10 with
  | error raised =>
    rw [h] at hok
    cases hok
  | ok snapshot =>
    obtain ⟨effective, heffective, hc⟩ :=
      project_conserves "account" "600000.SH" sampleFills 10 snapshot h
    exact ⟨snapshot, effective, rfl, heffective, hc⟩

end MarketRegimeAlpha.Position
