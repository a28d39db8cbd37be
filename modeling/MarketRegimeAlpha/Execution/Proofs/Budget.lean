/-
What a command makes of a sum over the trades of one kind.

# The budget

A kind of trades is a condition on what no step of a trade changes: its
account, side, symbol and authority. The budget of a kind is what its trades
weigh plus what their Fills are worth. A creation brings in the weight of the
new trade (`Created.budget`); a status moves the weight of its trade
(`Transitioned.budget`); a Fill moves the weight of its trade and adds its
own delta (`Filled.budget`), where the filled quantity of the trade moves by
the delta of the quantities (`Filled.quantity`). So what is left to say of a
budget is how one trade and one Fill of it compare.
-/
import Mathlib.Algebra.BigOperators.Ring.Finset
import Mathlib.Algebra.Order.BigOperators.Group.List
import MarketRegimeAlpha.Execution.Proofs.TradeLedger

namespace MarketRegimeAlpha.Execution

open Lib List
open Position (Instant TradeSide FillKind)

variable {ledger ledger' : Ledger}

-- ==== the kinds

/-- No step of a trade changes its kind. -/
def Fixed (kind : TradeRow → Bool) : Prop := ∀ updated row, kind (updatedRow updated row) = kind row

namespace Ledger

variable {M : Type} [AddCommGroup M] (ledger : Ledger) (kind : TradeRow → Bool)

/-- The trade of a Fill is of the kind. -/
def owns (fill : Fill) : Bool :=
  ledger.records.any fun row => row.manualTradeId = fill.manualTradeId ∧ kind row = true

def fillsOf : List Fill := (ledger.fills.map (·.fill)).filter (ledger.owns kind)

def weight (w : TradeRow → M) : M := ((ledger.records.filter kind).map w).sum

/-- The weight of the trades of a kind, and the worth of their Fills. -/
def budget (w : TradeRow → M) (g : Fill → Option Fill → M) : M :=
  ledger.weight kind w + total (·.fillId) Fill.correctionOf g (ledger.fillsOf kind)

end Ledger

def quantityOf (fill : Fill) (correction : Option Fill) : ℤ := (correction.getD fill).quantity

abbrev fillDelta {M : Type} [AddGroup M] (g : Fill → Option Fill → M)
    (ledger : Ledger) (fill : Fill) : M :=
  delta (·.fillId) Fill.correctionOf g (ledger.fills.map (·.fill)) fill

theorem cast_effectiveQuantity {fills : List Fill} (h : FillsOk fills) :
    (effectiveQuantity fills : ℤ) = total (·.fillId) Fill.correctionOf quantityOf fills := by
  rw [effectiveQuantity_eq h]
  unfold total
  rw [Nat.cast_list_sum, map_map]
  rfl

section Kinds

variable {M : Type} [AddCommGroup M] {kind : TradeRow → Bool} {w : TradeRow → M}
  {g : Fill → Option Fill → M}

theorem LedgerSound.owns_eq (h : LedgerSound ledger) {row : TradeRow} (hrow : row ∈ ledger.records)
    {fill : Fill} (hfill : fill.manualTradeId = row.manualTradeId) :
    ledger.owns kind fill = kind row := by
  unfold Ledger.owns
  rw [Bool.eq_iff_iff, any_eq_true]
  constructor
  · rintro ⟨other, hother, hcheck⟩
    obtain ⟨hid, hkind⟩ := of_decide_eq_true hcheck
    rw [← inj_on_of_nodup_map h.ids hother hrow (hid.trans hfill)]
    exact hkind
  · intro hkind
    exact ⟨row, hrow, decide_eq_true ⟨hfill.symm, hkind⟩⟩

theorem LedgerSound.owns_target (h : LedgerSound ledger) {p : Fill → Bool}
    (hp : ∀ a b : Fill, a.manualTradeId = b.manualTradeId → p a = p b) :
    ∀ c ∈ ledger.fills.map (·.fill), ∀ original ∈ ledger.fills.map (·.fill),
        c.correctionOf = some original.fillId → p c = p original :=
  fun c hc original horiginal htarget =>
    hp c original (h.sameTrade c hc original horiginal htarget).symm

theorem budget_congr (hrecords : ledger'.records = ledger.records)
    (hfills : ledger'.fills = ledger.fills) :
    ledger'.budget kind w g = ledger.budget kind w g := by
  unfold Ledger.budget Ledger.weight Ledger.fillsOf Ledger.owns
  rw [hrecords, hfills]

-- ==== a creation

theorem Created.budget {record : ManualTradeRecord} {key commandHash : String}
    (h : LedgerSound ledger) (hcreated : Created ledger record key commandHash ledger') :
    ledger'.budget kind w g = ledger.budget kind w g
        + if kind (tradeRow record) then w (tradeRow record) else 0 := by
  have hrecords : ledger'.records = ledger.records ++ [tradeRow record] := by rw [hcreated.result]
  have hfillRows : ledger'.fills = ledger.fills := by rw [hcreated.result]
  have hfills : ledger'.fillsOf kind = ledger.fillsOf kind := by
    unfold Ledger.fillsOf
    rw [hfillRows]
    refine filter_congr fun fill hfill => ?_
    obtain ⟨row, hrow, hid, _⟩ := h.fillOwner fill hfill
    have hne : record.manualTradeId ≠ fill.manualTradeId := fun heq =>
      record_eq_none.mp hcreated.fresh row hrow (hid.trans heq.symm)
    unfold Ledger.owns
    rw [hrecords, any_append]
    simp [tradeRow, hne]
  have hweight : ledger'.weight kind w = ledger.weight kind w
      + if kind (tradeRow record) then w (tradeRow record) else 0 := by
    unfold Ledger.weight
    rw [hrecords, filter_append, map_append, sum_append]
    by_cases hkind : kind (tradeRow record) = true
    · rw [filter_cons_of_pos hkind, if_pos hkind]
      simp
    · rw [filter_cons_of_neg hkind, if_neg hkind]
      rfl
  unfold Ledger.budget
  rw [hfills, hweight]
  exact add_right_comm _ _ _

-- ==== a step

section Step

variable {tradeId key eventKey commandHash : String} {current updated : ManualTradeRecord}
  {fill : Option Fill}

/-- A step moves the weight of its trade. -/
theorem Advance.weight (hfixed : Fixed kind) (h : LedgerSound ledger)
    (hreplays : Replays current updated)
    (hadvance : Advance ledger tradeId current updated fill key eventKey commandHash ledger')
    {row : TradeRow} (hrow : row ∈ ledger.records) (hid : row.manualTradeId = tradeId) :
    ledger'.weight kind w + (if kind row then w row else 0) = ledger.weight kind w
        + if kind row then w (updatedRow updated row) else 0 := by
  obtain ⟨moved, hmoved, hid', _, _, honly⟩ := hadvance.row h hreplays
  obtain rfl := inj_on_of_nodup_map h.ids hrow hmoved (hid.trans hid'.symm)
  have hrecords : ledger'.records = setRows (updates updated current.version)
      (updatedRow updated) ledger.records := by
    rw [hadvance.result]
  obtain ⟨before, after, hsplit⟩ := append_of_mem hrow
  have hids := h.ids
  rw [hsplit, map_append, map_cons, nodup_append] at hids
  obtain ⟨_, hafter, hdisjoint⟩ := hids
  have hothers : ∀ rows : List TradeRow, (∀ other ∈ rows,
        other ∈ ledger.records ∧ other.manualTradeId ≠ row.manualTradeId) →
      setRows (updates updated current.version) (updatedRow updated) rows = rows := by
    intro rows hrows
    refine setRows_none fun other hother => ?_
    obtain ⟨hmem, hne⟩ := hrows other hother
    refine Bool.eq_false_iff.mpr fun hupdates => hne ?_
    rw [(honly other hmem).mp hupdates]
  have hbefore := hothers before fun other hother =>
    ⟨hsplit ▸ mem_append_left _ hother,
      hdisjoint _ (mem_map_of_mem hother) _ mem_cons_self⟩
  have hbehind := hothers after fun other hother =>
    ⟨hsplit ▸ mem_append_right _ (mem_cons_of_mem _ hother),
      fun heq => (nodup_cons.mp hafter).1 (heq ▸ mem_map_of_mem hother)⟩
  have hrows : ledger'.records = before ++ updatedRow updated row :: after := by
    rw [hrecords, hsplit]
    unfold setRows at hbefore hbehind ⊢
    rw [map_append, map_cons, hbefore, hbehind, if_pos ((honly row hrow).mpr rfl)]
  unfold Ledger.weight
  rw [hrows, hsplit]
  by_cases hkind : kind row = true
  · rw [if_pos hkind, if_pos hkind, filter_append, filter_append,
      filter_cons_of_pos hkind,
      filter_cons_of_pos ((hfixed updated row).trans hkind)]
    simp only [map_append, map_cons, sum_append, sum_cons]
    abel
  · rw [if_neg hkind, if_neg hkind, filter_append, filter_append,
      filter_cons_of_neg hkind, filter_cons_of_neg
        (fun hmoved => hkind ((hfixed updated row).symm.trans hmoved))]

theorem Advance.owns (hfixed : Fixed kind)
    (hadvance : Advance ledger tradeId current updated fill key eventKey commandHash ledger') :
    ledger'.owns kind = ledger.owns kind := by
  funext fill'
  unfold Ledger.owns
  rw [hadvance.result]
  unfold setRows
  rw [any_map]
  refine any_congr rfl fun row => ?_
  simp only [Function.comp_apply]
  by_cases hupdates : updates updated current.version row = true
  · rw [if_pos hupdates, hfixed]
    rfl
  · rw [if_neg hupdates]

end Step

theorem Transitioned.budget {current : ManualTradeRecord} {request : TransitionRequest}
    (hfixed : Fixed kind) (h : LedgerSound ledger)
    (htransitioned : Transitioned ledger current request ledger') {row : TradeRow}
    (hrow : row ∈ ledger.records) (hid : row.manualTradeId = request.record.manualTradeId) :
    ledger'.budget kind w g + (if kind row then w row else 0) = ledger.budget kind w g
        + if kind row then w (updatedRow request.record row) else 0 := by
  have hadvance := htransitioned.advance
  have hfills : ledger'.fillsOf kind = ledger.fillsOf kind := by
    unfold Ledger.fillsOf
    rw [hadvance.owns hfixed, hadvance.result]
    simp
  have hweight := hadvance.weight (w := w) hfixed h
    (replays_of_validate htransitioned.transition) hrow hid
  unfold Ledger.budget
  rw [hfills, add_right_comm, hweight, add_right_comm]

section Filled

variable {current updated : ManualTradeRecord} {fill : Fill} {key commandHash : String}

/-- A Fill moves the weight of its trade, and adds its delta. -/
theorem Filled.budget (hfixed : Fixed kind) (h : LedgerSound ledger)
    (hfilled : Filled ledger current updated fill key commandHash ledger') {row : TradeRow}
    (hrow : row ∈ ledger.records) (hid : row.manualTradeId = fill.manualTradeId) :
    ledger'.budget kind w g + (if kind row then w row else 0) = ledger.budget kind w g
        + if kind row then
            w (updatedRow updated row) + fillDelta g ledger fill
          else 0 := by
  have hadvance := hfilled.advance
  have hsound := hfilled.sound h
  have hweight := hadvance.weight (w := w) hfixed h
    (replays_of_validate hfilled.transition) hrow hid
  have hsame : ∀ a b : Fill, a.manualTradeId = b.manualTradeId →
      ledger'.owns kind a = ledger'.owns kind b := by
    intro a b heq
    unfold Ledger.owns
    rw [heq]
  have hkind := hsound.owns_target hsame
  have hok := hsound.fills
  rw [hfilled.fills_eq] at hkind hok
  have htotal := total_filter_concat (g := g) h.fills hok hkind
  have howns : ledger'.owns kind fill = kind row := by
    rw [hadvance.owns hfixed]
    exact h.owns_eq hrow hid.symm
  unfold Ledger.budget Ledger.fillsOf
  rw [hfilled.fills_eq, htotal, howns, hadvance.owns hfixed]
  by_cases hrowKind : kind row = true
  · rw [if_pos hrowKind, if_pos hrowKind] at hweight
    rw [if_pos hrowKind, if_pos hrowKind, if_pos hrowKind, add_right_comm, hweight]
    abel
  · rw [if_neg hrowKind, if_neg hrowKind] at hweight
    rw [if_neg hrowKind, if_neg hrowKind, if_neg hrowKind, add_right_comm, hweight]
    abel

theorem Filled.quantity (h : LedgerSound ledger)
    (hfilled : Filled ledger current updated fill key commandHash ledger') :
    (updated.filledQuantity : ℤ) = current.filledQuantity + fillDelta quantityOf ledger fill := by
  obtain ⟨row, hrow, hid, haggregate, hmem, _⟩ := hfilled.advance.moved h
    (replays_of_validate hfilled.transition)
  have hsound := hfilled.sound h
  have hbefore := h.trades row hrow
  have hafter := (hsound.trades _ hmem).filled
  have hcurrent : current.filledQuantity
      = effectiveQuantity (ledger.fillsForTrade fill.manualTradeId) := by
    rw [← haggregate, hbefore.filledQuantity, hbefore.filled, hid]
  have hupdated : updated.filledQuantity
      = effectiveQuantity (ledger'.fillsForTrade fill.manualTradeId) := by
    rw [← hid]
    exact hafter
  have hkind := hsound.owns_target
    (p := fun other => decide (other.manualTradeId = fill.manualTradeId))
    fun a b heq => by rw [heq]
  have hok := hsound.fills
  rw [hfilled.fills_eq] at hkind hok
  have htotal := total_filter_concat (g := quantityOf) h.fills hok hkind
  rw [if_pos (decide_eq_true rfl), ← hfilled.fills_eq] at htotal
  rw [hupdated, hcurrent, cast_effectiveQuantity (h.fillsOk _),
    cast_effectiveQuantity (hsound.fillsOk _),
    total_perm (hsound.fillsOk _) (sortBy_perm _ _),
    total_perm (h.fillsOk _) (sortBy_perm _ _)]
  exact htotal

end Filled

end Kinds

end MarketRegimeAlpha.Execution
