/-
What one observation of an account allows is sold and spent once.

# The two budgets

The observation says what the account could sell of a symbol and the cash it
had. The open remainders of the SELL trades and the quantity that Fills have
moved since the observation are one budget, the open remainders of the BUY
trades at their reference prices and the cash of the Fills since then are
the other. Both are checked when a trade is created; a step of a trade moves
as much out of the remainders as it adds to the Fills, or more
(`filled_le`, `transitioned_le`).

A Fill that the observation already contains adds nothing to the second sum.
For an execution that only helps. But a correction that the observation
contains, too, reopens the remainder of its trade by what it takes back, and
nothing pays for that: `NoEarlyReduction` excludes it, and
`observation_oversold` is a run with one.
-/
import Mathlib
import MarketRegimeAlpha.Execution.Proofs.ProposalAuthority

namespace MarketRegimeAlpha.Execution

open Lib List
open Position (Instant TradeSide FillKind)

variable {ledger ledger' : Ledger} {M : Type} {h : Fill → Option Fill → M} {accountId : String}
  {row : TradeRow}

-- ==== the kinds

def strategyOf (accountId : String) (row : TradeRow) : Bool :=
  row.authority.route = .strategy ∧ row.accountId = accountId

def tradesOf (accountId : String) (side : TradeSide) (symbol : Option String)
    (row : TradeRow) : Bool :=
  strategyOf accountId row = true ∧ row.side = side ∧ symbol.all (· = row.symbol) = true

theorem fixed_tradesOf (accountId : String) (side : TradeSide)
    (symbol : Option String) : Fixed (tradesOf accountId side symbol) :=
  fun _ _ => rfl

theorem tradesOf_iff {side : TradeSide} {symbol : Option String} :
    tradesOf accountId side symbol row = true ↔ strategyOf accountId row = true ∧ row.side = side ∧
        symbol.all (· = row.symbol) = true := by
  unfold tradesOf
  rw [decide_eq_true_eq]

def reservedAt (price : TradeRow → ℚ) (row : TradeRow) : ℚ :=
  (row.aggregate.reserved : ℚ) * price row

/-- A SELL trade is counted by its quantity. -/
def unitPrice (_ : TradeRow) : ℚ := 1

def rowReferencePrice (row : TradeRow) : ℚ :=
  (row.authority.authorization.map (·.referencePrice)).getD 0

def quantitySince (asOf : Instant) (fill : Fill) (correction : Option Fill) :
    ℚ :=
  ((fillQuantity (some (correction.getD fill))
    - fillQuantity (atObservation asOf fill correction) : Int) : ℚ)

def cashSince (asOf : Instant) (fill : Fill) (correction : Option Fill) : ℚ :=
  fillCash (some (correction.getD fill)) - fillCash (atObservation asOf fill correction)

-- ==== the sums of the code

/-- The revisions of the code are the executions with their corrections:
what has not moved counts nothing. -/
theorem sum_revisions_eq_executions [AddCommMonoid M] (fills : List Fill)
    (asOf : Instant) (hsame : ∀ fill, h fill (some fill) = 0) :
    ((effectiveFillRevisions fills asOf).map fun revision =>
        h revision.1 revision.2).sum
      = ((executions fills).map fun item =>
          h (((corrections fills).lookup item.1).getD item.2)
            (atObservation asOf item.2 ((corrections fills).lookup item.1))).sum := by
  unfold effectiveFillRevisions
  generalize executions fills = items
  induction items with
  | nil => rfl
  | cons item items ih =>
    rw [map_cons, sum_cons, ← ih, filterMap_cons]
    by_cases hmoved : some (((corrections fills).lookup item.1).getD item.2)
        = atObservation asOf item.2 ((corrections fills).lookup item.1)
    · simp only [if_pos hmoved]
      rw [← hmoved, hsame, zero_add]
    · simp only [if_neg hmoved, map_cons, sum_cons]

theorem sum_effectiveFillRevisions [AddCommMonoid M] {fills : List Fill} (hok : FillsOk fills)
    (asOf : Instant) (hsame : ∀ fill, h fill (some fill) = 0) :
    ((effectiveFillRevisions fills asOf).map fun revision =>
        h revision.1 revision.2).sum
      = total (·.fillId) Fill.correctionOf (fun fill correction =>
          h (correction.getD fill) (atObservation asOf fill correction))
          fills := by
  rw [sum_revisions_eq_executions fills asOf hsame, executions_eq hok, map_map]
  congr 1
  simp only [lookup_corrections hok]
  rfl

theorem LedgerSound.strategyFills_perm (h : LedgerSound ledger)
    (accountId : String) (side : TradeSide) (symbol : Option String) :
    (ledger.strategyFills accountId side symbol).Perm
      (ledger.fillsOf (tradesOf accountId side symbol)) := by
  refine (sortBy_perm _ _).trans (Perm.of_eq ?_)
  refine filter_congr fun fill hfill => ?_
  obtain ⟨row, hrow, hid, haccount, hsymbol, hside⟩ := h.fillOwner fill hfill
  rw [h.owns_eq hrow hid.symm, Bool.eq_iff_iff, tradesOf_iff, decide_eq_true_eq, any_eq_true]
  unfold strategyOf
  rw [decide_eq_true_eq, haccount, hsymbol]
  constructor
  · rintro ⟨haccount', ⟨other, hother, hcheck⟩, hsymbol'⟩
    obtain ⟨hid', hroute, hside'⟩ := of_decide_eq_true hcheck
    obtain rfl := inj_on_of_nodup_map h.ids hother hrow (hid'.trans hid.symm)
    exact ⟨⟨hroute, haccount'⟩, hside', hsymbol'⟩
  · rintro ⟨⟨hroute, haccount'⟩, hside', hsymbol'⟩
    exact ⟨haccount', ⟨row, hrow, decide_eq_true ⟨hid, hroute, hside'⟩⟩, hsymbol'⟩

theorem LedgerSound.fillsOk_fillsOf (h : LedgerSound ledger)
    (kind : TradeRow → Bool) : FillsOk (ledger.fillsOf kind) := by
  refine h.fills.filter (h.owns_target fun a b heq => ?_)
  unfold Ledger.owns
  rw [heq]

theorem mem_strategyRows : row ∈ ledger.strategyRows accountId ↔
      row ∈ ledger.records ∧ strategyOf accountId row = true := by
  unfold Ledger.strategyRows strategyOf
  rw [(sortBy_perm _ _).mem_iff, mem_filter]

theorem LedgerSound.weight_eq (h : LedgerSound ledger) (accountId : String) (side : TradeSide)
    (symbol : Option String) (price : TradeRow → ℚ) {w : ManualTradeRecord → ℚ}
    (hw : ∀ row ∈ ledger.records, w row.aggregate = reservedAt price row) :
    ((((ledger.strategyRows accountId).map (·.aggregate)).filter
        fun trade => trade.side = side ∧ symbol.all (· = trade.symbol)).map w).sum
      = ledger.weight (tradesOf accountId side symbol) (reservedAt price) := by
  have hperm : ((ledger.strategyRows accountId).filter fun row =>
        row.aggregate.side = side ∧ symbol.all (· = row.aggregate.symbol)).Perm
      (ledger.records.filter (tradesOf accountId side symbol)) := by
    refine ((sortBy_perm _ _).filter _).trans (Perm.of_eq ?_)
    rw [filter_filter]
    refine filter_congr fun row hrow => ?_
    have htrade := h.trades row hrow
    rw [Bool.eq_iff_iff, tradesOf_iff]
    unfold strategyOf
    rw [htrade.side, htrade.symbol]
    simp only [Bool.and_eq_true, decide_eq_true_eq]
    tauto
  unfold Ledger.weight
  rw [filter_map, map_map, ← (hperm.map _).sum_eq]
  congr 1
  refine map_congr_left fun row hrow => ?_
  exact hw row (mem_strategyRows.mp (mem_of_mem_filter hrow)).1

/-- The quantity a symbol has open and sold since the observation. -/
theorem LedgerSound.sell_eq (h : LedgerSound ledger) (accountId symbol : String) (asOf : Instant) :
    ((reservedQuantity symbol ((ledger.strategyRows accountId).map
          (·.aggregate)) : ℤ)
        + unobservedEffectiveFillQuantity ledger accountId symbol .sell asOf
        : ℤ)
      = ledger.budget (tradesOf accountId .sell (some symbol))
          (reservedAt unitPrice) (quantitySince asOf) := by
  have hreserved : (reservedQuantity symbol ((ledger.strategyRows accountId).map (·.aggregate)) : ℚ)
      = ledger.weight (tradesOf accountId .sell (some symbol)) (reservedAt unitPrice) := by
    have hweight := h.weight_eq accountId .sell (some symbol) unitPrice
      (w := fun trade => (trade.reserved : ℚ)) fun row _ => (mul_one _).symm
    rw [← hweight]
    unfold reservedQuantity
    rw [Nat.cast_list_sum, map_map]
    congr 2
    simp [eq_comm]
  have hunobserved : ((unobservedEffectiveFillQuantity ledger accountId symbol
        .sell asOf : Int) : ℚ)
      = total (·.fillId) Fill.correctionOf (quantitySince asOf)
          (ledger.fillsOf (tradesOf accountId .sell (some symbol))) := by
    have hperm := h.strategyFills_perm accountId .sell (some symbol)
    have hok := h.fillsOk_fillsOf (tradesOf accountId .sell (some symbol))
    rw [← total_perm (hok.perm hperm.symm) hperm]
    unfold unobservedEffectiveFillQuantity
    rw [Int.cast_list_sum, map_map]
    exact sum_effectiveFillRevisions (hok.perm hperm.symm) asOf (h := fun current observed =>
        ((fillQuantity (some current) - fillQuantity observed : Int) : ℚ))
      fun fill => by simp
  unfold Ledger.budget
  rw [← hreserved, ← hunobserved]
  push_cast
  rfl

theorem LedgerSound.buy_eq (h : LedgerSound ledger) (accountId : String) (asOf : Instant) :
    reservedCash ((ledger.strategyRows accountId).map (·.aggregate))
        + unobservedBuyFillCash ledger accountId asOf
      = ledger.budget (tradesOf accountId .buy none)
          (reservedAt rowReferencePrice) (cashSince asOf) := by
  have hreserved : reservedCash ((ledger.strategyRows accountId).map
        (·.aggregate))
      = ledger.weight (tradesOf accountId .buy none) (reservedAt rowReferencePrice) := by
    have hweight := h.weight_eq accountId .buy none rowReferencePrice
      (w := fun trade => (trade.reserved : ℚ) * trade.referencePrice)
      fun row hrow => by
        unfold reservedAt rowReferencePrice ManualTradeRecord.referencePrice
        rw [(h.trades row hrow).authority]
    rw [← hweight]
    unfold reservedCash
    congr 2
    simp
  have hunobserved : unobservedBuyFillCash ledger accountId asOf
      = total (·.fillId) Fill.correctionOf (cashSince asOf)
          (ledger.fillsOf (tradesOf accountId .buy none)) := by
    have hperm := h.strategyFills_perm accountId .buy none
    have hok := h.fillsOk_fillsOf (tradesOf accountId .buy none)
    rw [← total_perm (hok.perm hperm.symm) hperm]
    exact sum_effectiveFillRevisions (hok.perm hperm.symm) asOf (h := fun current observed =>
        fillCash (some current) - fillCash observed)
      fun fill => sub_self _
  unfold Ledger.budget
  rw [← hreserved, ← hunobserved]

-- ==== one step of a trade

section Step

variable {kind : TradeRow → Bool} {price : TradeRow → ℚ} {g : Fill → Option Fill → ℚ}
  {row : TradeRow}

/-- A status moves nothing into a budget. -/
theorem transitioned_le {current : ManualTradeRecord} {request : TransitionRequest}
    (hfixed : Fixed kind) (hprice : ∀ updated row, price (updatedRow updated row) = price row)
    (hnonneg : 0 ≤ price row) (h : LedgerSound ledger) (hrequest : RequestSound ledger request)
    (htransitioned : Transitioned ledger current request ledger') (hrow : row ∈ ledger.records)
    (hid : row.manualTradeId = request.record.manualTradeId)
    (hwithin : kind row = true → row.filledQuantity ≤ row.aggregate.intendedQuantity) :
    ledger'.budget kind (reservedAt price) g ≤ ledger.budget kind (reservedAt price) g := by
  have hbudget := htransitioned.budget (w := reservedAt price) (g := g) hfixed h hrow hid
  by_cases hkind : kind row = true
  · rw [if_pos hkind, if_pos hkind] at hbudget
    have htrade := h.trades row hrow
    obtain ⟨moved, hmoved, hid', haggregate, _⟩ :=
      htransitioned.advance.moved h (replays_of_validate htransitioned.transition)
    obtain rfl := inj_on_of_nodup_map h.ids hrow hmoved (hid.trans hid'.symm)
    obtain ⟨_, _, _, hpost⟩ := loadTrade_none htransitioned.advance.loaded
    have hquantity := htransitioned.quantity h hrequest
    have hwell := wellFormed_of_postInit hpost
    have hreplays := replays_of_validate htransitioned.transition
    have hcurrent : current.filledQuantity ≤ current.intendedQuantity := by
      rw [← haggregate, htrade.filledQuantity]
      exact hwithin hkind
    have hintended := (validateTransition_eq_ok.mp hreplays).1.intendedQuantity
    have hcommitted := hreplays.committed_le hwell hcurrent (by omega) fun _ => hquantity.le
    have hreserved : (request.record.reserved : ℚ) ≤ row.aggregate.reserved := by
      rw [haggregate]
      exact_mod_cast (by omega : (request.record.reserved : ℤ) ≤ current.reserved)
    have hmove : reservedAt price (updatedRow request.record row) ≤ reservedAt price row := by
      unfold reservedAt
      rw [hprice]
      exact mul_le_mul_of_nonneg_right hreserved hnonneg
    linarith
  · rw [if_neg hkind, if_neg hkind] at hbudget
    linarith

/-- A Fill moves out of the reserve at least what it adds to the Fills. -/
theorem filled_le {current updated : ManualTradeRecord} {fill : Fill}
    {key commandHash : String} (hfixed : Fixed kind)
    (hprice : ∀ updated row, price (updatedRow updated row) = price row)
    (hnonneg : 0 ≤ price row) (h : LedgerSound ledger)
    (hfilled : Filled ledger current updated fill key commandHash ledger')
    (hrow : row ∈ ledger.records)
    (hid : row.manualTradeId = fill.manualTradeId)
    (hwithin : kind row = true → row.filledQuantity ≤ row.aggregate.intendedQuantity ∧
        updated.filledQuantity ≤ updated.intendedQuantity ∧
        row.state.terminal = false)
    (hdelta : kind row = true → fillDelta g ledger fill
      ≤ ((fillDelta quantityOf ledger fill : ℤ) : ℚ) * price row) :
    ledger'.budget kind (reservedAt price) g ≤ ledger.budget kind (reservedAt price) g := by
  have hbudget := hfilled.budget (w := reservedAt price) (g := g) hfixed h hrow hid
  by_cases hkind : kind row = true
  · rw [if_pos hkind, if_pos hkind] at hbudget
    have htrade := h.trades row hrow
    have hreplays := replays_of_validate hfilled.transition
    obtain ⟨moved, hmoved, hid', haggregate, _⟩ := hfilled.advance.moved h hreplays
    obtain rfl := inj_on_of_nodup_map h.ids hrow hmoved (hid.trans hid'.symm)
    obtain ⟨_, _, _, hpost⟩ := loadTrade_none hfilled.advance.loaded
    obtain ⟨hbefore, hafter, hopen⟩ := hwithin hkind
    have hcurrent : current.filledQuantity ≤ current.intendedQuantity := by
      rw [← haggregate, htrade.filledQuantity]
      exact hbefore
    have hcommitted := hreplays.committed_le (wellFormed_of_postInit hpost)
      hcurrent hafter fun hterminal => by
        rw [← haggregate, htrade.state, hopen] at hterminal
        exact absurd hterminal nofun
    have hquantity := hfilled.quantity h
    have hreserved : (updated.reserved : ℚ) ≤ row.aggregate.reserved
        - ((fillDelta quantityOf ledger fill : ℤ) : ℚ) := by
      rw [haggregate]
      exact_mod_cast (by omega : (updated.reserved : ℤ)
        ≤ current.reserved - fillDelta quantityOf ledger fill)
    have hmove : reservedAt price (updatedRow updated row) ≤ reservedAt price row
          - ((fillDelta quantityOf ledger fill : ℤ) : ℚ) * price row := by
      unfold reservedAt
      rw [hprice, ← sub_mul]
      exact mul_le_mul_of_nonneg_right hreserved hnonneg
    have hfill := hdelta hkind
    linarith
  · rw [if_neg hkind, if_neg hkind] at hbudget
    linarith

end Step

-- ==== the Fills

/-- No correction that the observation contains lowers an execution that it
contains. -/
def NoEarlyReduction (accountId : String) (asOf : Instant) (ledger : Ledger) :
    Prop :=
  ∀ fill ∈ ledger.fills.map (·.fill), ∀ original ∈ ledger.fills.map (·.fill),
    fill.correctionOf = some original.fillId →
      ledger.owns (tradesOf accountId .sell none) fill = true →
        fill.recordedAt ≤ asOf → original.recordedAt ≤ asOf → original.quantity ≤ fill.quantity

/-- The BUY Fills correct nothing, are free of fees and no dearer than their
trade expects. -/
def PlainBuys (accountId : String) (ledger : Ledger) : Prop :=
  ∀ fill ∈ ledger.fills.map (·.fill), ∀ row ∈ ledger.records,
    row.manualTradeId = fill.manualTradeId → tradesOf accountId .buy none row = true →
        fill.fillKind = .execution ∧ fill.fees = 0 ∧ fill.price ≤ rowReferencePrice row

variable {fill : Fill} {asOf : Instant}

/-- A Fill adds no more to what was sold since the observation than to its
trade. -/
theorem quantitySince_le (hok : FillsOk (ledger.fills.map (·.fill)))
    (htarget : ∀ fillId ∈ fill.correctionOf,
      ∃ original ∈ ledger.fills.map (·.fill), original.fillId = fillId ∧
        (fill.recordedAt ≤ asOf → original.recordedAt ≤ asOf → original.quantity ≤ fill.quantity)) :
    fillDelta (quantitySince asOf) ledger fill
      ≤ ((fillDelta quantityOf ledger fill : ℤ) : ℚ) * 1 := by
  rw [mul_one]
  unfold fillDelta
  cases hkind : fill.correctionOf with
  | none =>
    rw [delta_original hkind, delta_original hkind]
    refine Int.cast_le.mpr ?_
    show (fill.quantity : Int) - fillQuantity (atObservation asOf fill none) ≤ fill.quantity
    unfold atObservation
    split
    · simp [fillQuantity]
    · simp [fillQuantity]
  | some fillId =>
    obtain ⟨original, hmem, hid, hearly⟩ := htarget fillId hkind
    have hkind' : fill.correctionOf = some original.fillId := by rw [hkind, hid]
    rw [delta_correction hok hmem hkind', delta_correction hok hmem hkind']
    unfold quantitySince quantityOf
    rw [← Int.cast_sub]
    refine Int.cast_le.mpr ?_
    unfold atObservation
    by_cases hafter : asOf < original.recordedAt
    · simp [hafter, fillQuantity]
    · by_cases hobserved : fill.recordedAt ≤ asOf
      · have hle := hearly hobserved (not_lt.mp hafter)
        simp only [hafter, hobserved, if_true, if_false, fillQuantity]
        omega
      · simp [hafter, hobserved, fillQuantity]

theorem cashSince_le {price : ℚ} (hkind : fill.fillKind = .execution)
    (hfees : fill.fees = 0) (hprice : fill.price ≤ price) :
    fillDelta (cashSince asOf) ledger fill
      ≤ ((fillDelta quantityOf ledger fill : ℤ) : ℚ) * price := by
  have hkind := correctionOf_eq_none.mpr hkind
  have hcost : (fill.quantity : ℚ) * fill.price ≤ fill.quantity * price :=
    mul_le_mul_of_nonneg_left hprice (Nat.cast_nonneg _)
  have hpositive : 0 ≤ (fill.quantity : ℚ) * fill.price :=
    mul_nonneg (Nat.cast_nonneg _) fill.price_positive.le
  unfold fillDelta
  rw [delta_original hkind, delta_original hkind]
  show fillCash (some fill) - fillCash (atObservation asOf fill none)
    ≤ ((fill.quantity : ℤ) : ℚ) * price
  unfold atObservation
  split
  · simp only [fillCash, hfees, Int.cast_natCast]
    linarith
  · simp only [sub_self, Int.cast_natCast]
    linarith

-- ==== the runs

/-- A step of the run leaves the Strategy trades of the account on one
observation and within their intents, and fills none that has ended. -/
def OneObservation (observations : Observations)
    (accountId observationId : String) (command : Command) (system : System) :
    Prop :=
  (∀ row ∈ (next observations command system).ledger.records,
    strategyOf accountId row = true → (∀ authorization ∈ row.authority.authorization,
        authorization.accountObservationId = observationId) ∧
      row.filledQuantity ≤ row.aggregate.intendedQuantity) ∧
  ∀ fill ∈ (next observations command system).ledger.fills.map (·.fill),
    fill ∉ system.ledger.fills.map (·.fill) → ∀ row ∈ system.ledger.records,
        row.manualTradeId = fill.manualTradeId →
          strategyOf accountId row = true → row.state.terminal = false

/-- What the account could sell of a symbol. -/
def observedQuantity (observations : Observations) (observationId symbol : String) : Int :=
  ((observations.position observationId symbol).map fun position =>
    (position.availableQuantity : Int)).getD 0

structure SpentOnce (observations : Observations)
    (accountId observationId : String) (observation : AccountObservation)
    (system : System) : Prop where
  sound : SystemSound system
  within : ∀ row ∈ system.ledger.records, strategyOf accountId row = true →
    row.filledQuantity ≤ row.aggregate.intendedQuantity
  sell : NoEarlyReduction accountId observation.asOfTime system.ledger →
    ∀ symbol, system.ledger.budget (tradesOf accountId .sell (some symbol))
        (reservedAt unitPrice) (quantitySince observation.asOfTime)
      ≤ ((observedQuantity observations observationId symbol : Int) : ℚ)
  buy : PlainBuys accountId system.ledger → system.ledger.budget (tradesOf accountId .buy none)
        (reservedAt rowReferencePrice) (cashSince observation.asOfTime)
      ≤ observation.availableCash

section Runs

variable {observations : Observations} {accountId observationId : String}
  {observation : AccountObservation} {system system' : System} {command : Command} {fill : Fill}

theorem Change.fills_mem (h : Change observations system command system') :
    ∀ fill ∈ system.ledger.fills.map (·.fill), fill ∈ system'.ledger.fills.map (·.fill) :=
  fun _ hfill => (h.prefixes.2.map (·.fill)).subset hfill

theorem RowStep.same {row row' : TradeRow} (h : RowStep row row')
    (side : TradeSide) (symbol : Option String) :
    tradesOf accountId side symbol row' = tradesOf accountId side symbol row ∧
      rowReferencePrice row' = rowReferencePrice row := by
  cases h with
  | kept => exact ⟨rfl, rfl⟩
  | moved _ => exact ⟨rfl, rfl⟩

theorem Change.owns_eq (h : SystemSound system)
    (hchange : Change observations system command system')
    (hfill : fill ∈ system.ledger.fills.map (·.fill)) (side : TradeSide) (symbol : Option String) :
    system'.ledger.owns (tradesOf accountId side symbol) fill
      = system.ledger.owns (tradesOf accountId side symbol) fill := by
  obtain ⟨row, hrow, hid, _⟩ := h.ledger.fillOwner fill hfill
  obtain ⟨row', hrow', hid', hstep⟩ := hchange.rowStep h hrow
  rw [(hchange.sound h).ledger.owns_eq hrow' (hid'.trans hid).symm,
    h.ledger.owns_eq hrow hid.symm, (hstep.same side symbol).1]

theorem Change.noEarlyReduction (h : SystemSound system)
    (hchange : Change observations system command system') {asOf : Instant}
    (hafter : NoEarlyReduction accountId asOf system'.ledger) :
    NoEarlyReduction accountId asOf system.ledger := by
  intro fill hfill original horiginal htarget howns
  refine hafter fill (hchange.fills_mem fill hfill) original
    (hchange.fills_mem original horiginal) htarget ?_
  rw [hchange.owns_eq h hfill]
  exact howns

theorem Change.plainBuys (h : SystemSound system)
    (hchange : Change observations system command system')
    (hafter : PlainBuys accountId system'.ledger) :
    PlainBuys accountId system.ledger := by
  intro fill hfill row hrow hid hkind
  obtain ⟨row', hrow', hid', hstep⟩ := hchange.rowStep h hrow
  obtain ⟨hsame, hprice⟩ : tradesOf accountId .buy none row' = tradesOf accountId .buy none row ∧
      rowReferencePrice row' = rowReferencePrice row := hstep.same .buy none
  rw [← hprice]
  exact hafter fill (hchange.fills_mem fill hfill) row' hrow' (hid'.trans hid) (hsame.trans hkind)

variable {record : ManualTradeRecord}

theorem authorization_scope {authorization : StrategyExecutionAuthorization}
    (hroute : record.validateRoute = .ok ())
    (hauthorized : record.authority.authorization = some authorization) :
    authorization.accountId = record.accountId ∧ authorization.symbol = record.symbol := by
  unfold ManualTradeRecord.validateRoute at hroute
  cases hauthority : record.authority with
  | strategy other =>
    rw [hauthority] at hroute hauthorized
    obtain rfl : other = authorization := Option.some.inj hauthorized
    obtain ⟨haccount, hsymbol, _⟩ := require_ok.mp hroute
    exact ⟨haccount, hsymbol⟩
  | manual _ => rw [hauthority] at hauthorized; exact absurd hauthorized nofun
  | traceable _ _ _ => rw [hauthority] at hauthorized; exact absurd hauthorized nofun
  | increasing _ _ _ => rw [hauthority] at hauthorized; exact absurd hauthorized nofun
  | reducing _ _ => rw [hauthority] at hauthorized; exact absurd hauthorized nofun

variable {key commandHash : String}

theorem Issued.granted_of_kind (hissued : Issued observations system.ledger record key commandHash
      command) (hpost : record.postInit = .ok ())
    (hobservation : observations.account observationId = some observation)
    (hone : strategyOf accountId (tradeRow record) = true →
      ∀ authorization ∈ (tradeRow record).authority.authorization,
        authorization.accountObservationId = observationId)
    (hkind : strategyOf accountId (tradeRow record) = true) :
    ∃ authorization, Granted observations system.ledger record authorization
        observation ∧ authorization.accountObservationId = observationId ∧
      authorization.accountId = accountId ∧
      authorization.symbol = record.symbol := by
  have hscope := hkind
  obtain ⟨hroute, haccount⟩ := of_decide_eq_true hscope
  have hroute : record.authority.route = .strategy := hroute
  cases hissued.granted hpost with
  | inl hnone =>
    cases hauthority : record.authority <;>
      simp_all [TradeAuthority.route, TradeAuthority.authorization]
  | inr hgranted =>
    obtain ⟨authorization, observed, hgranted⟩ := hgranted
    have hid := hone hkind authorization hgranted.authorized
    obtain rfl : observed = observation := by
      refine Option.some.inj ?_
      rw [← hgranted.observed, hid, hobservation]
    obtain ⟨haccount', hsymbol⟩ := authorization_scope
      (wellFormed_of_postInit hpost).route hgranted.authorized
    exact ⟨authorization, hgranted, hid, haccount'.trans haccount, hsymbol⟩

theorem Created.reserved (hpost : record.postInit = .ok ())
    (hcreated : Created ledger record key commandHash ledger') :
    record.reserved = record.intendedQuantity := by
  have hfilled := ((wellFormed_of_postInit hpost).recorded hcreated.recorded).2
  unfold ManualTradeRecord.reserved
  rw [hcreated.recorded, hfilled]
  rfl

variable (hobservation : observations.account observationId = some observation)

include hobservation in
/-- What a creation reserves was checked against the observation. -/
theorem SpentOnce.created (h : SpentOnce observations accountId observationId observation system)
    (hissued : Issued observations system.ledger record key commandHash
      command) (hpost : record.postInit = .ok ())
    (hcreated : Created system.ledger record key commandHash ledger')
    (hone : ∀ row ∈ ledger'.records, strategyOf accountId row = true →
      (∀ authorization ∈ row.authority.authorization,
        authorization.accountObservationId = observationId) ∧
      row.filledQuantity ≤ row.aggregate.intendedQuantity) :
    SpentOnce observations accountId observationId observation ⟨ledger', system.requests⟩ := by
  have hchange : Change observations system command
      ⟨ledger', system.requests⟩ := .created hissued hpost hcreated
  have hreserved := hcreated.reserved hpost
  have hmem : tradeRow record ∈ ledger'.records := by
    rw [hcreated.result]
    exact mem_append_right _ (mem_singleton.mpr rfl)
  have hgranted := fun hkind => hissued.granted_of_kind hpost hobservation
    (fun hkind => (hone _ hmem hkind).1) hkind
  refine ⟨hchange.sound h.sound, fun row hrow hkind => (hone row hrow hkind).2,
    fun hearly symbol => ?_, fun hplain => ?_⟩
  · have hsell := h.sell (hchange.noEarlyReduction h.sound hearly) symbol
    rw [hcreated.budget h.sound.ledger]
    by_cases hkind : tradesOf accountId .sell (some symbol) (tradeRow record) = true
    · obtain ⟨hstrategy, hside, hsymbol⟩ := tradesOf_iff.mp hkind
      obtain ⟨authorization, hgranted, hid, haccount, hsymbol'⟩ := hgranted hstrategy
      have hsymbol : symbol = (tradeRow record).symbol := by simpa using hsymbol
      have hsymbol : symbol = record.symbol := hsymbol
      have hroom := hgranted.sell hside
      rw [haccount, hsymbol', ← hsymbol, hid] at hroom
      rw [if_pos hkind, ← h.sound.ledger.sell_eq]
      unfold reservedAt unitPrice
      rw [mul_one, show (tradeRow record).aggregate = record from rfl, hreserved]
      unfold observedQuantity
      exact_mod_cast (by omega)
    · rw [if_neg hkind, add_zero]
      exact hsell
  · have hbuy := h.buy (hchange.plainBuys h.sound hplain)
    rw [hcreated.budget h.sound.ledger]
    by_cases hkind : tradesOf accountId .buy none (tradeRow record) = true
    · obtain ⟨hstrategy, hside, _⟩ := tradesOf_iff.mp hkind
      obtain ⟨authorization, hgranted, _, haccount, _⟩ := hgranted hstrategy
      have hroom := hgranted.cash hside
      have hprice : rowReferencePrice (tradeRow record) = authorization.referencePrice := by
        unfold rowReferencePrice
        rw [show (tradeRow record).authority = record.authority from rfl, hgranted.authorized]
        rfl
      rw [haccount] at hroom
      rw [if_pos hkind, ← h.sound.ledger.buy_eq, hgranted.availableCash]
      unfold reservedAt
      rw [hprice, show (tradeRow record).aggregate = record from rfl, hreserved]
      linarith
    · rw [if_neg hkind, add_zero]
      exact hbuy

theorem rowReferencePrice_nonneg (row : TradeRow) : 0 ≤ rowReferencePrice row := by
  unfold rowReferencePrice
  cases row.authority.authorization with
  | none => exact le_rfl
  | some authorization => exact authorization.price_positive.le

theorem SpentOnce.transitioned {current : ManualTradeRecord} {request : TransitionRequest}
    (h : SpentOnce observations accountId observationId observation system)
    (hmem : request ∈ system.requests)
    (htransitioned : Transitioned system.ledger current request ledger')
    (hwithin : ∀ row ∈ ledger'.records, strategyOf accountId row = true →
      row.filledQuantity ≤ row.aggregate.intendedQuantity) :
    SpentOnce observations accountId observationId observation ⟨ledger', system.requests⟩ := by
  have hchange : Change observations system (.transitionTrade request)
      ⟨ledger', system.requests⟩ := .transitioned hmem htransitioned
  obtain ⟨row, hrow, hid, _⟩ := htransitioned.advance.moved h.sound.ledger
    (replays_of_validate htransitioned.transition)
  have hrequest := h.sound.requests request hmem
  refine ⟨hchange.sound h.sound, hwithin, fun hearly symbol => ?_, fun hplain => ?_⟩
  · refine le_trans ?_ (h.sell (hchange.noEarlyReduction h.sound hearly) symbol)
    exact transitioned_le (fixed_tradesOf accountId .sell (some symbol))
      (fun _ _ => rfl) zero_le_one h.sound.ledger hrequest htransitioned hrow
      hid fun hkind => h.within row hrow (tradesOf_iff.mp hkind).1
  · refine le_trans ?_ (h.buy (hchange.plainBuys h.sound hplain))
    exact transitioned_le (fixed_tradesOf accountId .buy none)
      (fun _ _ => rfl) (rowReferencePrice_nonneg row) h.sound.ledger hrequest
      htransitioned hrow hid fun hkind => h.within row hrow (tradesOf_iff.mp hkind).1

/-- A Fill spends what its trade had reserved. -/
theorem SpentOnce.filled {current updated : ManualTradeRecord}
    (h : SpentOnce observations accountId observationId observation system)
    (hfilled : Filled system.ledger current updated fill key commandHash ledger')
    (hwithin : ∀ row ∈ ledger'.records, strategyOf accountId row = true →
      row.filledQuantity ≤ row.aggregate.intendedQuantity)
    (hopen : ∀ row ∈ system.ledger.records, row.manualTradeId = fill.manualTradeId →
        strategyOf accountId row = true → row.state.terminal = false) :
    SpentOnce observations accountId observationId observation ⟨ledger', system.requests⟩ := by
  have hchange : Change observations system (.appendFill fill key commandHash)
      ⟨ledger', system.requests⟩ := .filled hfilled
  have hsound := hfilled.sound h.sound.ledger
  obtain ⟨row, hrow, hid, _, hrow', _⟩ := hfilled.advance.moved h.sound.ledger
    (replays_of_validate hfilled.transition)
  have hbounds : strategyOf accountId row = true →
      row.filledQuantity ≤ row.aggregate.intendedQuantity ∧
        updated.filledQuantity ≤ updated.intendedQuantity ∧
        row.state.terminal = false := fun hkind =>
    ⟨h.within row hrow hkind, hwithin _ hrow' hkind, hopen row hrow hid hkind⟩
  have hnew : fill ∈ ledger'.fills.map (·.fill) := by
    rw [hfilled.fills_eq]
    exact mem_append_right _ (mem_singleton.mpr rfl)
  refine ⟨hchange.sound h.sound, hwithin, fun hearly symbol => ?_, fun hplain => ?_⟩
  · refine le_trans ?_ (h.sell (hchange.noEarlyReduction h.sound hearly) symbol)
    refine filled_le (fixed_tradesOf accountId .sell (some symbol))
      (fun _ _ => rfl) zero_le_one h.sound.ledger hfilled hrow hid
      (fun hkind => hbounds (tradesOf_iff.mp hkind).1) fun hkind => ?_
    refine quantitySince_le h.sound.ledger.fills fun fillId hfillId => ?_
    obtain ⟨original, hmem, horiginal, _⟩ :=
      (fillValid_of_validateFill hfilled.valid).target_all h.sound.ledger fillId hfillId
    refine ⟨original, hmem, horiginal, fun hobserved hobserved' => ?_⟩
    refine hearly fill hnew original (hchange.fills_mem original hmem) ?_ ?_ hobserved hobserved'
    · exact (Option.mem_def.mp hfillId).trans (congrArg some horiginal.symm)
    · show ledger'.owns _ fill = true
      rw [hsound.owns_eq hrow' hid.symm]
      obtain ⟨hstrategy, hside, _⟩ := tradesOf_iff.mp hkind
      exact tradesOf_iff.mpr ⟨hstrategy, hside, rfl⟩
  · refine le_trans ?_ (h.buy (hchange.plainBuys h.sound hplain))
    refine filled_le (fixed_tradesOf accountId .buy none)
      (fun _ _ => rfl) (rowReferencePrice_nonneg row) h.sound.ledger hfilled
      hrow hid (fun hkind => hbounds (tradesOf_iff.mp hkind).1) fun hkind => ?_
    obtain ⟨hexecution, hfees, hprice⟩ := hplain fill hnew _ hrow' hid hkind
    exact cashSince_le hexecution hfees hprice

include hobservation in
/-- A step that keeps the conditions of the run keeps the budgets. -/
theorem SpentOnce.next (h : SpentOnce observations accountId observationId observation system)
    (hone : OneObservation observations accountId observationId command system) :
    SpentOnce observations accountId observationId observation
      (next observations command system) := by
  obtain ⟨hrows, hfills⟩ := hone
  unfold Execution.next at hrows hfills ⊢
  cases hexecute : execute observations system command with
  | error e => exact h
  | ok system' =>
    rw [hexecute] at hrows hfills
    have hwithin := fun row hrow hkind => (hrows row hrow hkind).2
    have hchange := execute_eq_ok hexecute
    have hsound := hchange.sound h.sound
    cases hchange with
    | replayedCreation _ _ => exact h
    | created hissued hpost hcreated => exact h.created hobservation hissued hpost hcreated hrows
    | confirmed _ hconfirmed =>
      have hrecords := congrArg Ledger.records hconfirmed.result
      have hfillRows := congrArg Ledger.fills hconfirmed.result
      refine ⟨hsound, hwithin, fun hearly symbol => ?_, fun hplain => ?_⟩
      · show Ledger.budget _ _ _ _ ≤ _
        rw [budget_congr hrecords hfillRows]
        refine h.sell ?_ symbol
        rw [hconfirmed.result] at hearly
        exact hearly
      · show Ledger.budget _ _ _ _ ≤ _
        rw [budget_congr hrecords hfillRows]
        refine h.buy ?_
        rw [hconfirmed.result] at hplain
        exact hplain
    | replayedFill _ => exact h
    | filled hfilled =>
      refine h.filled hfilled hwithin ?_
      refine hfills _ ?_ fun hold => ?_
      · rw [hfilled.fills_eq]
        exact mem_append_right _ (mem_singleton.mpr rfl)
      · exact hfilled.fresh_fill _ hold rfl
    | requested _ => exact ⟨hsound, h.within, h.sell, h.buy⟩
    | replayedTransition _ => exact h
    | transitioned hmem htransitioned => exact h.transitioned hmem htransitioned hwithin

theorem SpentOnce.start : SpentOnce observations accountId observationId observation .start where
  sound := .start
  within := fun _ h => absurd h not_mem_nil
  sell := by
    intro _ symbol
    show (0 : ℚ) + 0 ≤ _
    unfold observedQuantity
    rw [add_zero]
    refine Int.cast_nonneg ?_
    cases observations.position observationId symbol with
    | none => exact le_rfl
    | some position => exact Int.natCast_nonneg _
  buy := by
    intro _
    show (0 : ℚ) + 0 ≤ _
    rw [add_zero]
    exact observation.cash_nonneg

end Runs

-- ==== the main result

def soldAfter (ledger : Ledger) (accountId symbol : String) (asOf : Instant) :
    Int :=
  total (·.fillId) Fill.correctionOf (fun fill correction =>
      if asOf < fill.recordedAt then quantityOf fill correction else 0)
    (ledger.strategyFills accountId .sell (some symbol))

def spentAfter (ledger : Ledger) (accountId : String) (asOf : Instant) : ℚ :=
  (((ledger.strategyFills accountId .buy none).filter (asOf < ·.recordedAt)).map fun fill =>
      (fill.quantity : ℚ) * fill.price + fill.fees).sum

def NoReduction (accountId : String) (asOf : Instant) (ledger : Ledger) :
    Prop :=
  ∀ fill ∈ ledger.fills.map (·.fill), ∀ original ∈ ledger.fills.map (·.fill),
    fill.correctionOf = some original.fillId →
      ledger.owns (tradesOf accountId .sell none) fill = true →
        original.recordedAt ≤ asOf → original.quantity ≤ fill.quantity

section Sums

variable {accountId symbol : String} {asOf : Instant}

theorem LedgerSound.fillsOk_strategyFills (h : LedgerSound ledger)
    (accountId : String) (side : TradeSide) (symbol : Option String) :
    FillsOk (ledger.strategyFills accountId side symbol) :=
  (h.fillsOk_fillsOf _).perm (h.strategyFills_perm accountId side symbol).symm

theorem LedgerSound.mem_strategyFills (h : LedgerSound ledger)
    {side : TradeSide} {symbol : Option String} {fill : Fill} :
    fill ∈ ledger.strategyFills accountId side symbol ↔ fill ∈ ledger.fills.map (·.fill) ∧
        ledger.owns (tradesOf accountId side symbol) fill = true := by
  rw [(h.strategyFills_perm accountId side symbol).mem_iff]
  exact mem_filter

/-- Where no contained execution is lowered, the executions since the
observation have sold no more than all the Fills since then have moved. -/
theorem LedgerSound.soldAfter_le (h : LedgerSound ledger)
    (hkept : NoReduction accountId asOf ledger) :
    soldAfter ledger accountId symbol asOf
      ≤ unobservedEffectiveFillQuantity ledger accountId symbol .sell asOf := by
  have hok := h.fillsOk_strategyFills accountId .sell (some symbol)
  have hunobserved := sum_effectiveFillRevisions hok asOf (h := fun current observed =>
      fillQuantity (some current) - fillQuantity observed)
    fun fill => sub_self _
  unfold unobservedEffectiveFillQuantity
  rw [hunobserved]
  refine sum_le_sum fun fill hfill => ?_
  obtain ⟨hmem, _⟩ := mem_originals.mp hfill
  beta_reduce
  by_cases hafter : asOf < fill.recordedAt
  · rw [if_pos hafter]
    unfold atObservation
    rw [if_pos hafter]
    exact (sub_zero _).ge
  · rw [if_neg hafter]
    unfold atObservation
    rw [if_neg hafter]
    cases hcorrection : correction (·.fillId) Fill.correctionOf
        (ledger.strategyFills accountId .sell (some symbol)) fill with
    | none => exact (sub_self _).ge
    | some c =>
      by_cases hobserved : c.recordedAt ≤ asOf
      · simp only [if_pos hobserved, Option.getD_some]
        exact (sub_self _).ge
      · simp only [if_neg hobserved, Option.getD_some]
        obtain ⟨hc, htarget⟩ := (correction_eq_some hok).mp hcorrection
        obtain ⟨hc, howns⟩ := h.mem_strategyFills.mp hc
        obtain ⟨hold, _⟩ := h.mem_strategyFills.mp hmem
        have hsell : ledger.owns (tradesOf accountId .sell none) c = true := by
          obtain ⟨row, hrow, hid, _⟩ := h.fillOwner c hc
          rw [h.owns_eq hrow hid.symm] at howns ⊢
          obtain ⟨hstrategy, hside, _⟩ := tradesOf_iff.mp howns
          exact tradesOf_iff.mpr ⟨hstrategy, hside, rfl⟩
        have hle := hkept c hc fill hold htarget hsell (not_lt.mp hafter)
        exact sub_nonneg.mpr (Int.ofNat_le.mpr hle)

/-- Plain BUY Fills have cost what those since the observation have cost. -/
theorem LedgerSound.spentAfter_eq (h : LedgerSound ledger) (hplain : PlainBuys accountId ledger) :
    spentAfter ledger accountId asOf = unobservedBuyFillCash ledger accountId asOf := by
  have hok := h.fillsOk_strategyFills accountId .buy none
  have hunobserved := sum_effectiveFillRevisions hok asOf
    (h := fun current observed => fillCash (some current) - fillCash observed)
    fun fill => sub_self _
  have hexecution : ∀ fill ∈ ledger.strategyFills accountId .buy none,
      fill.correctionOf = none := by
    intro fill hfill
    obtain ⟨hmem, howns⟩ := h.mem_strategyFills.mp hfill
    obtain ⟨row, hrow, hid, _⟩ := h.fillOwner fill hmem
    rw [h.owns_eq hrow hid.symm] at howns
    exact correctionOf_eq_none.mpr (hplain fill hmem row hrow hid howns).1
  have horiginals : originals Fill.correctionOf (ledger.strategyFills accountId .buy none)
        = ledger.strategyFills accountId .buy none :=
    filter_eq_self.mpr fun fill hfill => decide_eq_true (hexecution fill hfill)
  unfold unobservedBuyFillCash
  rw [hunobserved]
  unfold total
  rw [horiginals]
  have hite : (ledger.strategyFills accountId .buy none).map (fun fill =>
        fillCash (some ((correction (·.fillId) Fill.correctionOf
            (ledger.strategyFills accountId .buy none) fill).getD fill))
          - fillCash (atObservation asOf fill (correction (·.fillId) Fill.correctionOf
                (ledger.strategyFills accountId .buy none) fill)))
      = (ledger.strategyFills accountId .buy none).map fun fill =>
          if asOf < fill.recordedAt then
            (fill.quantity : ℚ) * fill.price + fill.fees
          else 0 := by
    refine map_congr_left fun fill _ => ?_
    have hnone : correction (·.fillId) Fill.correctionOf
        (ledger.strategyFills accountId .buy none) fill = none := by
      refine correction_eq_none.mpr fun c hc htarget => ?_
      rw [hexecution c hc] at htarget
      exact absurd htarget nofun
    rw [hnone]
    unfold atObservation
    by_cases hafter : asOf < fill.recordedAt
    · rw [if_pos hafter, if_pos hafter]
      exact sub_zero _
    · rw [if_neg hafter, if_neg hafter]
      exact sub_self _
  rw [hite, sum_map_ite]
  unfold spentAfter
  simp

end Sums

/-- In every state reached while the Strategy trades of an account stay on
one observation and within their intents, and none that has ended is filled:
the open SELL remainders of each symbol and what was sold since the
observation are at most what it allows to sell, unless a correction that it
contains lowers an execution that it contains; and the open BUY remainders
at their reference prices and what plain Fills have cost since then are at
most its cash. -/
theorem observation_spent_once (observations : Observations)
    (accountId observationId : String) (observation : AccountObservation)
    (hobservation : observations.account observationId = some observation)
    (system : System)
    (h : Reach (· = .start) (next observations)
      (OneObservation observations accountId observationId) system) :
    (NoEarlyReduction accountId observation.asOfTime system.ledger → ∀ symbol,
        (reservedQuantity symbol ((system.ledger.strategyRows accountId).map
            (·.aggregate)) : Int)
          + unobservedEffectiveFillQuantity system.ledger accountId symbol
              .sell observation.asOfTime
          ≤ observedQuantity observations observationId symbol) ∧
    (NoReduction accountId observation.asOfTime system.ledger → ∀ symbol,
        (reservedQuantity symbol ((system.ledger.strategyRows accountId).map
            (·.aggregate)) : Int)
          + soldAfter system.ledger accountId symbol observation.asOfTime
          ≤ observedQuantity observations observationId symbol) ∧
    (PlainBuys accountId system.ledger →
      reservedCash ((system.ledger.strategyRows accountId).map (·.aggregate))
          + spentAfter system.ledger accountId observation.asOfTime
        ≤ observation.availableCash) := by
  have hspent : SpentOnce observations accountId observationId observation
      system := by
    refine h.inv ?_ fun system command hinv hone => hinv.next hobservation hone
    rintro _ rfl
    exact .start
  have hsound := hspent.sound.ledger
  have hsell : NoEarlyReduction accountId observation.asOfTime system.ledger →
      ∀ symbol, (reservedQuantity symbol ((system.ledger.strategyRows
            accountId).map (·.aggregate)) : Int)
          + unobservedEffectiveFillQuantity system.ledger accountId symbol
              .sell observation.asOfTime
        ≤ observedQuantity observations observationId symbol := by
    intro hearly symbol
    have hbudget := hspent.sell hearly symbol
    rw [← hsound.sell_eq] at hbudget
    exact_mod_cast hbudget
  refine ⟨hsell, fun hkept symbol => ?_, fun hplain => ?_⟩
  · have hearly : NoEarlyReduction accountId observation.asOfTime
        system.ledger := fun fill hfill original horiginal htarget howns _ =>
      hkept fill hfill original horiginal htarget howns
    have hle := hsell hearly symbol
    have hafter : soldAfter system.ledger accountId symbol
        observation.asOfTime ≤ _ := hsound.soldAfter_le hkept
    omega
  · have hbudget := hspent.buy hplain
    rw [← hsound.buy_eq] at hbudget
    rw [hsound.spentAfter_eq hplain]
    exact hbudget

section Sample

def sampleHoldings : Observations where
  account := fun _ => some sampleAccount
  position := fun _ _ => some ⟨100, 100, le_rfl⟩

def sampleExit (proposalId : String) : StrategyExecutionAuthorization :=
  { sampleAuthorization proposalId 100 false (Nat.succ_pos 99) le_rfl with
    proposalId
    action := .exit
    currentQuantity := 100
    availableQuantity := 100
    available_le := le_rfl }

def sampleSellTrade (manualTradeId : String) : ManualTradeRecord :=
  { sampleProposalTrade manualTradeId (sampleExit manualTradeId) with
    side := .sell }

def sampleSellFill (fillId : String) (quantity : Nat) (fillKind : FillKind)
    (recordedAt : Instant) (hrecorded : 0 ≤ recordedAt)
    (hquantity : 0 < quantity) (hself : fillKind ≠ .correction fillId) : Fill :=
  { sampleFill fillId quantity fillKind hquantity hself with
    manualTradeId := "first"
    side := .sell
    occurredAt := 0
    recordedAt
    recorded_after := hrecorded }

def soldFill (recordedAt : Instant) (hrecorded : 0 ≤ recordedAt) : Fill :=
  sampleSellFill "fill" 100 .execution recordedAt hrecorded (Nat.succ_pos 99)
    (FillKind.execution_ne _)

def correctedFill (recordedAt : Instant) (hrecorded : 0 ≤ recordedAt) : Fill :=
  sampleSellFill "correction" 50 (.correction "fill") recordedAt hrecorded (by decide) (by decide)

variable (recordedAt : Instant)

/-- A first trade sells everything, a second one is created after it, and
then the Fill of the first turns out to be half as large. Both Fills are
recorded at the given instant. -/
def sampleSelling (hrecorded : 0 ≤ recordedAt) : List Command :=
  [.createStrategyTrade sampleEvidence (sampleSellTrade "first") "create" "hash",
    .appendFill (soldFill recordedAt hrecorded) "fill" "hash",
    .createStrategyTrade sampleEvidence (sampleSellTrade "second") "again" "hash",
    .appendFill (correctedFill recordedAt hrecorded) "correct" "hash"]

def sampleSold (hrecorded : 0 ≤ recordedAt) : System :=
  run (next sampleHoldings) .start (sampleSelling recordedAt hrecorded)

end Sample

/-- With both Fills recorded at the instant of the observation, 150 are open
where 100 could be sold. -/
theorem observation_oversold : Reach (· = .start) (next sampleHoldings)
        (OneObservation sampleHoldings "account" "observation")
        (sampleSold 0 le_rfl) ∧
      ¬ (reservedQuantity "600000.SH" (((sampleSold 0 le_rfl).ledger.strategyRows "account").map
            (·.aggregate)) : Int)
        + soldAfter (sampleSold 0 le_rfl).ledger "account" "600000.SH" sampleAccount.asOfTime
        ≤ observedQuantity sampleHoldings "observation" "600000.SH" ∧
      ¬ (reservedQuantity "600000.SH" (((sampleSold 0 le_rfl).ledger.strategyRows "account").map
            (·.aggregate)) : Int)
        + unobservedEffectiveFillQuantity (sampleSold 0 le_rfl).ledger
            "account" "600000.SH" .sell sampleAccount.asOfTime
        ≤ observedQuantity sampleHoldings "observation" "600000.SH" := by
  have hstart : Reach (· = .start) (next sampleHoldings)
      (OneObservation sampleHoldings "account" "observation") .start :=
    .start rfl
  refine ⟨hstart.run (sampleSelling 0 le_rfl) ?_, by decide +kernel, by decide +kernel⟩
  unfold sampleSelling
  simp only [Along, OneObservation, and_true]
  decide +kernel

/-- Recorded an instant later, the second trade is refused. -/
theorem observation_spent_once_sample : (reservedQuantity "600000.SH"
        (((sampleSold 1 zero_le_one).ledger.strategyRows "account").map
          (·.aggregate)) : Int)
      + unobservedEffectiveFillQuantity (sampleSold 1 zero_le_one).ledger
          "account" "600000.SH" .sell sampleAccount.asOfTime
      ≤ observedQuantity sampleHoldings "observation" "600000.SH" := by
  have hstart : Reach (· = .start) (next sampleHoldings)
      (OneObservation sampleHoldings "account" "observation") .start :=
    .start rfl
  have hreach := hstart.run (sampleSelling 1 zero_le_one) (by
    unfold sampleSelling
    simp only [Along, OneObservation, and_true]
    decide +kernel)
  refine (observation_spent_once sampleHoldings "account" "observation"
    sampleAccount rfl _ hreach).1 ?_ "600000.SH"
  unfold NoEarlyReduction
  decide +kernel

end MarketRegimeAlpha.Execution
