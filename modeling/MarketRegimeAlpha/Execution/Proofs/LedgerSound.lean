/-
The invariant of the ledger: each trade with its events and its Fills.

# What a trade keeps

The events of a trade are its versions, from 0 on and without gaps; each of
them passes the constructor, and each step from one to the next passes the
validator that the replay uses (`TradeSound`). The last one is the trade,
and the quantity it has filled is the effective quantity of its Fills.

A step of a trade appends one event and leaves every other trade alone
(`Advance.sound`), so what remains to be said of a Fill and of a status is
only what they make of the filled quantity.
-/
import Mathlib.Data.List.Chain
import MarketRegimeAlpha.Execution.Proofs.Changes
import MarketRegimeAlpha.Lib.Corrections

namespace MarketRegimeAlpha.Execution

open Lib List
open Position (Instant TradeSide FillKind)

variable {ledger ledger' : Ledger}

-- ==== the transitions

structure Steps (before after : ManualTradeRecord) : Prop where
  version : after.version = before.version + 1
  keeps : after = { before with
      state := after.state
      filledQuantity := after.filledQuantity
      version := after.version
      updatedAt := after.updatedAt
      lastActor := after.lastActor
      lastReason := after.lastReason }

variable {before after : ManualTradeRecord} {allow : Bool}

theorem Steps.tradeId (h : Steps before after) : after.manualTradeId = before.manualTradeId := by
  rw [h.keeps]

theorem Steps.accountId (h : Steps before after) : after.accountId = before.accountId := by
  rw [h.keeps]

theorem Steps.symbol (h : Steps before after) : after.symbol = before.symbol := by
  rw [h.keeps]

theorem Steps.side (h : Steps before after) : after.side = before.side := by
  rw [h.keeps]

theorem Steps.intendedQuantity (h : Steps before after) :
    after.intendedQuantity = before.intendedQuantity := by
  rw [h.keeps]

theorem Steps.authority (h : Steps before after) : after.authority = before.authority := by
  rw [h.keeps]

/-- A transition that the validator accepts. -/
theorem validateTransition_eq_ok :
    validateManualTradeTransition before after allow = .ok () ↔
      Steps before after ∧ after.postInit = .ok () ∧ (before.state.terminal = true →
          allow = true ∧ after.state = before.state) := by
  unfold validateManualTradeTransition
  rw [bind_ok]
  unfold expectedTransition
  by_cases hupdate : allow ∧ before.state.terminal = true ∧ after.state = before.state
  · obtain ⟨hallow, hterminal, hstate⟩ := hupdate
    rw [if_pos ⟨hallow, hterminal, hstate⟩]
    constructor
    · rintro ⟨expected, hconstruct, hequal⟩
      obtain rfl := require_ok.mp hequal
      obtain ⟨hpost, heq⟩ := construct_eq_ok.mp hconstruct
      refine ⟨⟨(congrArg ManualTradeRecord.version heq).symm, ?_⟩,
        heq ▸ hpost, fun _ => ⟨hallow, hstate⟩⟩
      rw [← heq]
    · rintro ⟨hsteps, hpost, _⟩
      have heq : { before with
          filledQuantity := after.filledQuantity
          version := before.version + 1
          updatedAt := after.updatedAt
          lastActor := after.lastActor
          lastReason := after.lastReason } = after := by
        rw [hsteps.keeps, ← hsteps.version, hstate]
      rw [heq]
      exact ⟨after, construct_eq_ok.mpr ⟨hpost, rfl⟩, require_ok.mpr rfl⟩
  · rw [if_neg hupdate]
    constructor
    · rintro ⟨expected, htransition, hequal⟩
      obtain rfl := require_ok.mp hequal
      obtain ⟨_, hrunning, hconstruct⟩ := bind_ok.mp htransition
      have hrunning := require_ok.mp hrunning
      obtain ⟨hpost, heq⟩ := construct_eq_ok.mp hconstruct
      refine ⟨⟨(congrArg ManualTradeRecord.version heq).symm, ?_⟩, heq ▸ hpost, fun h => ?_⟩
      · rw [← heq]
      · exact absurd (hrunning.symm.trans h) nofun
    · rintro ⟨hsteps, hpost, hterminal⟩
      have hrunning : before.state.terminal = false := by
        by_contra h
        have h : before.state.terminal = true := by simpa using h
        obtain ⟨hallow, hstate⟩ := hterminal h
        exact hupdate ⟨hallow, h, hstate⟩
      have heq : { before with
          state := after.state
          filledQuantity := after.filledQuantity
          version := before.version + 1
          updatedAt := after.updatedAt
          lastActor := after.lastActor
          lastReason := after.lastReason } = after := by
        rw [hsteps.keeps, ← hsteps.version]
      refine ⟨after, bind_ok.mpr ⟨(), require_ok.mpr hrunning, ?_⟩, require_ok.mpr rfl⟩
      rw [heq]
      exact construct_eq_ok.mpr ⟨hpost, rfl⟩

def Replays (before after : ManualTradeRecord) : Prop :=
  validateManualTradeTransition before after true = .ok ()

theorem replays_of_validate
    (h : validateManualTradeTransition before after allow = .ok ()) :
    Replays before after := by
  obtain ⟨hsteps, hpost, hterminal⟩ := validateTransition_eq_ok.mp h
  exact validateTransition_eq_ok.mpr ⟨hsteps, hpost, fun h => ⟨rfl, (hterminal h).2⟩⟩

-- ==== the constructor

/-- What the constructor has checked of quantities, states and the route. -/
structure WellFormed (record : ManualTradeRecord) : Prop where
  intended : 0 < record.intendedQuantity
  recorded : record.state = .recorded → record.version = 0 ∧ record.filledQuantity = 0
  partiallyFilled : record.state = .partiallyFilled → 0 < record.filledQuantity ∧
      record.filledQuantity < record.intendedQuantity
  filled : record.state = .filled → record.filledQuantity = record.intendedQuantity
  reconciliationRequired : record.state = .reconciliationRequired →
    record.intendedQuantity < record.filledQuantity
  updated : record.createdAt ≤ record.updatedAt
  route : record.validateRoute = .ok ()

variable {record : ManualTradeRecord} {fill : Fill}

theorem wellFormed_of_postInit (h : record.postInit = .ok ()) : WellFormed record := by
  unfold ManualTradeRecord.postInit at h
  simp only [bind_ok, require_ok] at h
  obtain ⟨_, _, _, _, _, _, _, _, _, _, _, _, _, hintended, _, _, _, hrecorded,
    _, hincompletely, _, hfilled, _, hreconciliation, _, hupdated, hroute⟩ := h
  exact ⟨hintended, hrecorded, hincompletely, hfilled, hreconciliation, hupdated, hroute⟩

-- ==== the effective quantity

/-- Fills with ids of their own, each execution corrected at most once. -/
abbrev FillsOk (fills : List Fill) : Prop := Corrected (·.fillId) Fill.correctionOf fills

def currentFill (fills : List Fill) (fill : Fill) : Fill :=
  (correction (·.fillId) Fill.correctionOf fills fill).getD fill

theorem correctionOf_eq_none :
    fill.correctionOf = none ↔ fill.fillKind = .execution := by
  unfold Fill.correctionOf
  cases fill.fillKind <;> simp

variable {fills : List Fill}

theorem executions_eq (h : FillsOk fills) :
    executions fills = (originals Fill.correctionOf fills).map fun fill =>
      (fill.fillId, fill) := by
  have hfilter : fills.filter (·.fillKind = .execution) = originals Fill.correctionOf fills := by
    refine filter_congr fun fill _ => ?_
    simp only [correctionOf_eq_none]
  unfold executions
  rw [hfilter]
  refine dictOf_eq ?_
  unfold Lib.keys
  rw [map_map]
  exact h.ids.sublist (filter_sublist.map _)

theorem lookup_corrections (h : FillsOk fills) (fillId : String) : (corrections fills).lookup fillId
      = fills.find? (·.correctionOf = some fillId) := by
  have hlookup : ∀ fills : List Fill, (fills.filterMap fun fill =>
      fill.correctionOf.map fun fillId => (fillId, fill)).lookup fillId
        = fills.find? (·.correctionOf = some fillId) := by
    intro fills
    induction fills with
    | nil => rfl
    | cons fill fills ih =>
      rw [filterMap_cons, find?_cons]
      cases htarget : fill.correctionOf with
      | none => simpa using ih
      | some key =>
        rw [Option.map_some, lookup_cons, ih]
        by_cases hkey : key = fillId
        · simp [hkey]
        · simp [hkey, beq_eq_false_iff_ne.mpr (Ne.symm hkey)]
  unfold corrections
  rw [dictOf_eq, hlookup]
  have hkeys : Lib.keys (fills.filterMap fun fill =>
      fill.correctionOf.map fun fillId => (fillId, fill)) = fills.filterMap Fill.correctionOf := by
    unfold Lib.keys
    rw [map_filterMap]
    refine filterMap_congr fun fill _ => ?_
    cases fill.correctionOf <;> rfl
  rw [hkeys]
  exact h.once

theorem effectiveQuantity_eq (h : FillsOk fills) :
    effectiveQuantity fills = total (·.fillId) Fill.correctionOf
      (fun fill correction => (correction.getD fill).quantity) fills := by
  unfold effectiveQuantity total
  rw [executions_eq h, map_map]
  congr 1
  refine map_congr_left fun fill _ => ?_
  show (((corrections fills).lookup fill.fillId).getD fill).quantity = _
  rw [lookup_corrections h]
  rfl

-- ==== the invariant

structure TradeSound (ledger : Ledger) (row : TradeRow) : Prop where
  tradeId : row.aggregate.manualTradeId = row.manualTradeId
  accountId : row.aggregate.accountId = row.accountId
  symbol : row.aggregate.symbol = row.symbol
  side : row.aggregate.side = row.side
  state : row.aggregate.state = row.state
  filledQuantity : row.aggregate.filledQuantity = row.filledQuantity
  version : row.aggregate.version = row.version
  authority : row.aggregate.authority = row.authority
  sequences : (ledger.eventsOf row.manualTradeId).map (·.sequence) = List.range (row.version + 1)
  numbered : ∀ event ∈ ledger.eventsOf row.manualTradeId, event.aggregate.version = event.sequence
  valid : ∀ event ∈ ledger.eventsOf row.manualTradeId, event.aggregate.postInit = .ok ()
  chain : ((ledger.eventsOf row.manualTradeId).map (·.aggregate)).IsChain Replays
  last : ((ledger.eventsOf row.manualTradeId).map (·.aggregate)).getLast? = some row.aggregate
  filled : row.filledQuantity = effectiveQuantity (ledger.fillsForTrade row.manualTradeId)

/-- The tables fit together. -/
structure LedgerSound (ledger : Ledger) : Prop where
  ids : (ledger.records.map (·.manualTradeId)).Nodup
  trades : ∀ row ∈ ledger.records, TradeSound ledger row
  eventOwner : ∀ event ∈ ledger.events, ∃ row ∈ ledger.records,
    row.manualTradeId = event.manualTradeId
  fillOwner : ∀ fill ∈ ledger.fills.map (·.fill), ∃ row ∈ ledger.records,
    row.manualTradeId = fill.manualTradeId ∧ fill.accountId = row.accountId ∧
      fill.symbol = row.symbol ∧ fill.side = row.side
  fills : FillsOk (ledger.fills.map (·.fill))
  sameTrade : ∀ fill ∈ ledger.fills.map (·.fill), ∀ original ∈ ledger.fills.map (·.fill),
      fill.correctionOf = some original.fillId → original.manualTradeId = fill.manualTradeId

theorem TradeSound.congr {row : TradeRow} (h : TradeSound ledger row)
    (hevents : ledger'.eventsOf row.manualTradeId = ledger.eventsOf row.manualTradeId)
    (hfills : ledger'.fillsForTrade row.manualTradeId = ledger.fillsForTrade row.manualTradeId) :
    TradeSound ledger' row := by
  constructor
  case tradeId => exact h.tradeId
  case accountId => exact h.accountId
  case symbol => exact h.symbol
  case side => exact h.side
  case state => exact h.state
  case filledQuantity => exact h.filledQuantity
  case version => exact h.version
  case authority => exact h.authority
  case sequences => rw [hevents]; exact h.sequences
  case numbered => rw [hevents]; exact h.numbered
  case valid => rw [hevents]; exact h.valid
  case chain => rw [hevents]; exact h.chain
  case last => rw [hevents]; exact h.last
  case filled => rw [hfills]; exact h.filled

theorem LedgerSound.empty : LedgerSound .empty where
  ids := nodup_nil
  trades := fun _ h => absurd h not_mem_nil
  eventOwner := fun _ h => absurd h not_mem_nil
  fillOwner := fun _ h => absurd h not_mem_nil
  fills := corrected_nil
  sameTrade := fun _ h => absurd h not_mem_nil

theorem LedgerSound.record_eq (h : LedgerSound ledger) {row : TradeRow}
    (hrow : row ∈ ledger.records) :
    ledger.record row.manualTradeId = some row := by
  refine find?_keyed h.ids hrow (by simp) fun other _ heq => ?_
  simpa using heq

variable {tradeId : String} {key commandHash : String}

theorem record_mem {row : TradeRow} (h : ledger.record tradeId = some row) :
    row ∈ ledger.records ∧ row.manualTradeId = tradeId := by
  exact ⟨mem_of_find?_eq_some h, by simpa using find?_some h⟩

theorem record_eq_none : ledger.record tradeId = none ↔
      ∀ row ∈ ledger.records, row.manualTradeId ≠ tradeId := by
  unfold Ledger.record
  rw [find?_eq_none]
  exact forall₂_congr fun row _ => by rw [decide_eq_true_eq]

theorem mem_fillsForTrade : fill ∈ ledger.fillsForTrade tradeId ↔
      fill ∈ ledger.fills.map (·.fill) ∧ fill.manualTradeId = tradeId := by
  unfold Ledger.fillsForTrade
  rw [(sortBy_perm _ _).mem_iff, mem_filter, decide_eq_true_eq]

theorem LedgerSound.fillsOk (h : LedgerSound ledger) (tradeId : String) :
    FillsOk (ledger.fillsForTrade tradeId) := by
  have hfilter : FillsOk ((ledger.fills.map (·.fill)).filter
      (·.manualTradeId = tradeId)) := by
    constructor
    case ids => exact h.fills.ids.sublist (filter_sublist.map _)
    case once => exact h.fills.once.sublist (filter_sublist.filterMap _)
    case known =>
      intro fill hfill key hkey
      obtain ⟨hmem, htrade⟩ := mem_filter.mp hfill
      obtain ⟨original, horiginal, hid, hnone⟩ := h.fills.known fill hmem key hkey
      have hsame := h.sameTrade fill hmem original horiginal
        ((Option.mem_def.mp hkey).trans (congrArg some hid.symm))
      refine ⟨original, mem_filter.mpr ⟨horiginal, ?_⟩, hid, hnone⟩
      simpa [hsame] using htrade
  exact hfilter.perm (sortBy_perm _ _).symm

-- ==== the loads

theorem loadTrade_none {current : ManualTradeRecord}
    (h : ledger.loadTrade tradeId none = .ok current) :
    ∃ row, ledger.record tradeId = some row ∧ row.aggregate = current ∧
      current.postInit = .ok () := by
  unfold Ledger.loadTrade at h
  cases hrow : ledger.record tradeId with
  | none =>
    rw [hrow] at h
    cases h
  | some row =>
    rw [hrow] at h
    simp only [Option.getD_none, bind_ok] at h
    obtain ⟨_, _, history, _, _, _, h⟩ := h
    cases hlast : history.getLast? with
    | none =>
      rw [hlast] at h
      cases h
    | some result =>
      rw [hlast] at h
      obtain ⟨_, hprojection, hresult⟩ := bind_ok.mp h
      obtain ⟨stored, hstored, hcheck⟩ := bind_ok.mp hprojection
      obtain ⟨hpost, hsame⟩ := construct_eq_ok.mp hstored
      obtain ⟨hequal, _⟩ := require_ok.mp hcheck
      obtain rfl := pure_ok.mp hresult
      exact ⟨row, rfl, hsame.trans hequal, hequal ▸ hsame ▸ hpost⟩

/-- The events up to a version. -/
theorem TradeSound.events_le {row : TradeRow} (h : TradeSound ledger row) (version : Nat) :
    sortBy (·.sequence) ((ledger.eventsOf row.manualTradeId).filter
        (·.sequence ≤ version))
      = (ledger.eventsOf row.manualTradeId).take (version + 1) := by
  have hfilter : ∀ (events : List EventRow) (start : Nat),
      events.map (·.sequence) = List.range' start events.length →
      events.filter (·.sequence ≤ version) = events.take (version + 1 - start) := by
    intro events
    induction events with
    | nil => intro start _; simp
    | cons event events ih =>
      intro start hseq
      rw [map_cons, length_cons, range'_succ] at hseq
      injection hseq with hhead htail
      by_cases hle : event.sequence ≤ version
      · rw [filter_cons_of_pos (by simpa using hle), ih _ htail,
          show version + 1 - start = version + 1 - (start + 1) + 1 by omega,
          take_succ_cons]
      · rw [filter_cons_of_neg (by simpa using hle), ih _ htail,
          show version + 1 - start = 0 by omega,
          show version + 1 - (start + 1) = 0 by omega, take_zero,
          take_zero]
  have hlength : (ledger.eventsOf row.manualTradeId).length = row.version + 1 := by
    have hmap := congrArg List.length h.sequences
    rwa [length_map, length_range] at hmap
  have hsequences := h.sequences
  rw [← hlength, range_eq_range'] at hsequences
  rw [hfilter _ 0 hsequences, Nat.sub_zero]
  have hsorted : ((ledger.eventsOf row.manualTradeId).take
      (version + 1)).Pairwise fun a b => a.sequence ≤ b.sequence := by
    refine List.Pairwise.sublist (take_sublist _ _) ?_
    refine pairwise_map.mp ?_
    rw [h.sequences]
    exact pairwise_le_range
  exact hsorted.insertionSort_eq

/-- Every version of a trade is replayed, and the current one is the
trade. -/
theorem LedgerSound.loadTrade (h : LedgerSound ledger) {row : TradeRow}
    (hrow : row ∈ ledger.records) {version : Nat} (hversion : version ≤ row.version) :
    ∃ event ∈ ledger.eventsOf row.manualTradeId, event.sequence = version ∧
      (version = row.version → event.aggregate = row.aggregate) ∧
      ledger.loadTrade row.manualTradeId (some version) = .ok event.aggregate := by
  have htrade := h.trades row hrow
  have hevents := htrade.events_le version
  have hlength : (ledger.eventsOf row.manualTradeId).length = row.version + 1 := by
    have hmap := congrArg List.length htrade.sequences
    rwa [length_map, length_range] at hmap
  have htake : version < (ledger.eventsOf row.manualTradeId).length := by omega
  obtain ⟨event, hevent⟩ : ∃ event, (ledger.eventsOf row.manualTradeId)[version]? = some event :=
    ⟨_, getElem?_eq_getElem htake⟩
  have hmem : event ∈ ledger.eventsOf row.manualTradeId := mem_of_getElem? hevent
  have hsequence : event.sequence = version := by
    have hmap := congrArg (·[version]?) htrade.sequences
    simp only [getElem?_map, hevent, Option.map_some] at hmap
    rw [getElem?_range (by omega)] at hmap
    exact Option.some.inj hmap
  have hcount : ((ledger.eventsOf row.manualTradeId).filter
      (·.sequence ≤ version)).length = version + 1 := by
    have hperm := sortBy_perm (·.sequence)
      ((ledger.eventsOf row.manualTradeId).filter (·.sequence ≤ version))
    rw [← hperm.length_eq, hevents, length_take]
    omega
  have hhistory : ledger.history row.manualTradeId version
      = .ok (((ledger.eventsOf row.manualTradeId).take (version + 1)).map
        (·.aggregate)) := by
    unfold Ledger.history
    rw [hevents]
    refine mapM_ok_map fun event hevent => ?_
    exact construct_eq_ok.mpr ⟨htrade.valid event (mem_of_mem_take hevent), rfl⟩
  have hchain : (((ledger.eventsOf row.manualTradeId).take (version + 1)).map
      (·.aggregate)).IsChain Replays := by
    rw [map_take]
    exact htrade.chain.take _
  have hlast : (((ledger.eventsOf row.manualTradeId).take (version + 1)).map
      (·.aggregate)).getLast? = some event.aggregate := by
    rw [getLast?_map, getLast?_take, if_neg (by omega), Nat.add_sub_cancel, hevent]
    rfl
  have hcurrent : version = row.version → event.aggregate = row.aggregate := by
    intro heq
    have hall : (ledger.eventsOf row.manualTradeId).take (version + 1)
        = ledger.eventsOf row.manualTradeId :=
      take_of_length_le (by omega)
    rw [hall, htrade.last] at hlast
    exact (Option.some.inj hlast).symm
  refine ⟨event, hmem, hsequence, hcurrent, ?_⟩
  unfold Ledger.loadTrade
  rw [h.record_eq hrow]
  simp only [Option.getD_some]
  rw [require_true ⟨hversion, hcount⟩, ok_bind, hhistory, ok_bind]
  rw [mapM_ok_map (g := fun _ => ()) fun pair hpair =>
    forall_zip_tail hchain pair hpair, ok_bind, hlast]
  simp only
  by_cases heq : version = row.version
  · have hpost := htrade.valid event hmem
    rw [hcurrent heq] at hpost
    have hprojection : Ledger.validateProjection row event.aggregate = .ok () := by
      unfold Ledger.validateProjection
      rw [construct_eq_ok.mpr ⟨hpost, rfl⟩, ok_bind]
      refine require_true ?_ _
      rw [hcurrent heq]
      exact ⟨rfl, htrade.tradeId.symm, htrade.accountId.symm,
        htrade.symbol.symm, htrade.side.symm, htrade.state.symm,
        htrade.filledQuantity.symm, htrade.version.symm,
        htrade.authority.symm⟩
    rw [if_pos heq, hprojection, ok_bind]
    rfl
  · rw [if_neg heq, ok_bind]
    rfl

-- ==== the steps

/-- A new trade. -/
theorem Created.sound (h : LedgerSound ledger)
    (hpost : record.postInit = .ok ()) (hcreated : Created ledger record key commandHash ledger') :
    LedgerSound ledger' := by
  have hfresh := record_eq_none.mp hcreated.fresh
  have hfilled : record.filledQuantity = 0 :=
    ((wellFormed_of_postInit hpost).recorded hcreated.recorded).2
  have hevents : ledger.eventsOf record.manualTradeId = [] := by
    refine filter_eq_nil_iff.mpr fun event hevent => ?_
    obtain ⟨row, hrow, howner⟩ := h.eventOwner event hevent
    simpa [← howner] using hfresh row hrow
  have hfills : ledger.fillsForTrade record.manualTradeId = [] := by
    refine eq_nil_iff_forall_not_mem.mpr fun fill hfill => ?_
    obtain ⟨hmem, htrade⟩ := mem_fillsForTrade.mp hfill
    obtain ⟨row, hrow, howner, _⟩ := h.fillOwner fill hmem
    exact hfresh row hrow (howner.trans htrade)
  have hold : ∀ row ∈ ledger.records, ledger'.eventsOf row.manualTradeId
        = ledger.eventsOf row.manualTradeId := by
    intro row hrow
    rw [hcreated.result]
    unfold Ledger.eventsOf
    simp [eventRow, (hfresh row hrow).symm]
  have hnew : ledger'.eventsOf record.manualTradeId = [eventRow record key] := by
    rw [hcreated.result]
    unfold Ledger.eventsOf at hevents ⊢
    rw [filter_append, hevents, nil_append,
      filter_cons_of_pos (by simp [eventRow]), filter_nil]
  have hsame : ∀ tradeId, ledger'.fillsForTrade tradeId = ledger.fillsForTrade tradeId := by
    intro tradeId
    rw [hcreated.result]
    rfl
  have hrecords : ledger'.records = ledger.records ++ [tradeRow record] := by rw [hcreated.result]
  have hfillRows : ledger'.fills = ledger.fills := by rw [hcreated.result]
  constructor
  case ids =>
    rw [hrecords, map_append, map_singleton]
    refine h.ids.append (nodup_singleton _) (disjoint_singleton.mpr ?_)
    intro hmem
    obtain ⟨row, hrow, heq⟩ := mem_map.mp hmem
    exact hfresh row hrow heq
  case trades =>
    intro row hrow
    rw [hrecords] at hrow
    cases mem_append.mp hrow with
    | inl hrow => exact (h.trades row hrow).congr (hold row hrow) (hsame _)
    | inr hrow =>
      rw [mem_singleton.mp hrow]
      have hrow' : ledger'.eventsOf (tradeRow record).manualTradeId = [eventRow record key] := hnew
      constructor
      case tradeId => rfl
      case accountId => rfl
      case symbol => rfl
      case side => rfl
      case state => rfl
      case filledQuantity => exact hfilled
      case version => exact hcreated.version
      case authority => rfl
      case sequences =>
        rw [hrow']
        show [record.version] = List.range 1
        rw [hcreated.version]
        rfl
      case numbered =>
        rw [hrow']
        exact forall_mem_singleton.mpr rfl
      case valid =>
        rw [hrow']
        exact forall_mem_singleton.mpr hpost
      case chain =>
        rw [hrow']
        exact isChain_singleton _
      case last =>
        rw [hrow']
        rfl
      case filled =>
        rw [hsame, show (tradeRow record).manualTradeId = record.manualTradeId from rfl, hfills]
        rfl
  case eventOwner =>
    intro event hevent
    rw [hcreated.result] at hevent
    rw [hrecords]
    cases mem_append.mp hevent with
    | inl hevent =>
      obtain ⟨row, hrow, howner⟩ := h.eventOwner event hevent
      exact ⟨row, mem_append_left _ hrow, howner⟩
    | inr hevent =>
      rw [mem_singleton.mp hevent]
      exact ⟨tradeRow record, mem_append_right _ (mem_singleton.mpr rfl), rfl⟩
  case fillOwner =>
    intro fill hfill
    rw [hfillRows] at hfill
    rw [hrecords]
    obtain ⟨row, hrow, howner⟩ := h.fillOwner fill hfill
    exact ⟨row, mem_append_left _ hrow, howner⟩
  case fills =>
    rw [hfillRows]
    exact h.fills
  case sameTrade =>
    rw [hfillRows]
    exact h.sameTrade

theorem Confirmed.sound (h : LedgerSound ledger)
    (hconfirmed : Confirmed ledger record key commandHash ledger') :
    LedgerSound ledger' := by
  rw [hconfirmed.result]
  exact ⟨h.ids, fun row hrow => (h.trades row hrow).congr rfl rfl,
    h.eventOwner, h.fillOwner, h.fills, h.sameTrade⟩

section Advance

variable {tradeId key eventKey commandHash : String} {current updated : ManualTradeRecord}
  {fill : Option Fill} {other : String}

theorem Advance.row (h : LedgerSound ledger) (hreplays : Replays current updated)
    (hadvance : Advance ledger tradeId current updated fill key eventKey commandHash ledger') :
    ∃ row ∈ ledger.records, row.manualTradeId = tradeId ∧
      row.aggregate = current ∧ updated.manualTradeId = tradeId ∧
      ∀ other ∈ ledger.records, (updates updated current.version other = true ↔ other = row) := by
  obtain ⟨row, hrecord, haggregate, _⟩ := loadTrade_none hadvance.loaded
  obtain ⟨hrow, hid⟩ := record_mem hrecord
  have htrade := h.trades row hrow
  have hsteps := (validateTransition_eq_ok.mp hreplays).1
  have hupdated : updated.manualTradeId = row.manualTradeId := by
    rw [hsteps.tradeId, ← haggregate, htrade.tradeId]
  refine ⟨row, hrow, hid, haggregate, hupdated.trans hid, fun other hother => ?_⟩
  unfold updates
  rw [decide_eq_true_eq]
  constructor
  · rintro ⟨heq, _⟩
    exact inj_on_of_nodup_map h.ids hother hrow (heq.trans hupdated)
  · rintro rfl
    exact ⟨hupdated.symm, by rw [← haggregate, htrade.version]⟩

theorem Advance.mem_records (h : LedgerSound ledger) (hreplays : Replays current updated)
    (hadvance : Advance ledger tradeId current updated fill key eventKey commandHash ledger')
    {row' : TradeRow} (hrow' : row' ∈ ledger'.records) :
    (∃ row ∈ ledger.records, row.manualTradeId = tradeId ∧
      row.aggregate = current ∧ row' = updatedRow updated row) ∨
    row' ∈ ledger.records ∧ row'.manualTradeId ≠ tradeId := by
  obtain ⟨row, hrow, hid, haggregate, _, honly⟩ := hadvance.row h hreplays
  rw [hadvance.result] at hrow'
  obtain ⟨other, hother, rfl⟩ := mem_map.mp hrow'
  by_cases hupdates : updates updated current.version other = true
  · rw [if_pos hupdates]
    obtain rfl := (honly other hother).mp hupdates
    exact Or.inl ⟨other, hother, hid, haggregate, rfl⟩
  · rw [if_neg hupdates]
    refine Or.inr ⟨hother, fun heq => hupdates ((honly other hother).mpr ?_)⟩
    exact inj_on_of_nodup_map h.ids hother hrow (heq.trans hid.symm)

theorem Advance.ids (hadvance : Advance ledger tradeId current updated fill key
    eventKey commandHash ledger') :
    ledger'.records.map (·.manualTradeId) = ledger.records.map (·.manualTradeId) := by
  rw [hadvance.result]
  exact map_setRows (f := updatedRow updated) (fun _ => rfl) _

theorem Advance.events_ne (hadvance : Advance ledger tradeId current updated
    fill key eventKey commandHash ledger')
    (hother : updated.manualTradeId ≠ other) :
    ledger'.eventsOf other = ledger.eventsOf other := by
  rw [hadvance.result]
  unfold Ledger.eventsOf
  simp [eventRow, hother]

theorem Advance.events_eq (hadvance : Advance ledger tradeId current updated
    fill key eventKey commandHash ledger') :
    ledger'.eventsOf updated.manualTradeId = ledger.eventsOf updated.manualTradeId
        ++ [eventRow updated eventKey] := by
  rw [hadvance.result]
  unfold Ledger.eventsOf
  rw [filter_append, filter_cons_of_pos (by simp [eventRow]), filter_nil]

theorem Advance.fills_ne (hadvance : Advance ledger tradeId current updated
    fill key eventKey commandHash ledger')
    (hother : ∀ fill' ∈ fill, fill'.manualTradeId ≠ other) :
    ledger'.fillsForTrade other = ledger.fillsForTrade other := by
  rw [hadvance.result]
  unfold Ledger.fillsForTrade
  cases fill with
  | none => simp
  | some fill =>
    have hne := hother fill rfl
    simp [hne]

/-- The versions of the trade that moves. -/
theorem Advance.tradeSound (h : LedgerSound ledger) (hreplays : Replays current updated)
    (hadvance : Advance ledger tradeId current updated fill key eventKey commandHash ledger')
    (hfilled : updated.filledQuantity = effectiveQuantity (ledger'.fillsForTrade tradeId))
    {row : TradeRow} (hrow : row ∈ ledger.records)
    (hid : row.manualTradeId = tradeId) (haggregate : row.aggregate = current) :
    TradeSound ledger' (updatedRow updated row) := by
  obtain ⟨_, _, _, _, hupdated, _⟩ := hadvance.row h hreplays
  obtain ⟨hsteps, hpost, _⟩ := validateTransition_eq_ok.mp hreplays
  have htrade := h.trades row hrow
  have hversion : updated.version = row.version + 1 := by
    rw [hsteps.version, ← haggregate, htrade.version]
  have hevents : ledger'.eventsOf (updatedRow updated row).manualTradeId
      = ledger.eventsOf row.manualTradeId ++ [eventRow updated eventKey] := by
    have hevents := hadvance.events_eq
    rw [hupdated, ← hid] at hevents
    exact hevents
  constructor
  case tradeId => exact hupdated.trans hid.symm
  case accountId =>
    show updated.accountId = row.accountId
    rw [hsteps.accountId, ← haggregate, htrade.accountId]
  case symbol =>
    show updated.symbol = row.symbol
    rw [hsteps.symbol, ← haggregate, htrade.symbol]
  case side =>
    show updated.side = row.side
    rw [hsteps.side, ← haggregate, htrade.side]
  case state => rfl
  case filledQuantity => rfl
  case version => rfl
  case authority =>
    show updated.authority = row.authority
    rw [hsteps.authority, ← haggregate, htrade.authority]
  case sequences =>
    rw [hevents, map_append, htrade.sequences, map_singleton]
    show _ ++ [updated.version] = List.range (updated.version + 1)
    rw [hversion]
    exact range_succ.symm
  case numbered =>
    rw [hevents]
    exact forall_mem_append.mpr ⟨htrade.numbered, forall_mem_singleton.mpr rfl⟩
  case valid =>
    rw [hevents]
    exact forall_mem_append.mpr ⟨htrade.valid, forall_mem_singleton.mpr hpost⟩
  case chain =>
    rw [hevents, map_append, map_singleton]
    refine htrade.chain.append (isChain_singleton _) ?_
    intro before hbefore after hafter
    rw [htrade.last] at hbefore
    rw [← Option.some.inj hbefore, haggregate, ← Option.some.inj (Option.mem_def.mp hafter)]
    exact hreplays
  case last =>
    rw [hevents, map_append, map_singleton,
      getLast?_append_of_ne_nil _ (cons_ne_nil _ _)]
    rfl
  case filled =>
    show updated.filledQuantity = effectiveQuantity (ledger'.fillsForTrade row.manualTradeId)
    rw [hid]
    exact hfilled

/-- A step of a trade, once its Fills are known to be sound. -/
theorem Advance.sound (h : LedgerSound ledger) (hreplays : Replays current updated)
    (hadvance : Advance ledger tradeId current updated fill key eventKey commandHash ledger')
    (hscope : ∀ fill' ∈ fill, fill'.manualTradeId = tradeId ∧
      fill'.accountId = current.accountId ∧ fill'.symbol = current.symbol ∧
      fill'.side = current.side)
    (hfills : FillsOk (ledger'.fills.map (·.fill)))
    (hsameTrade : ∀ fill ∈ ledger'.fills.map (·.fill),
      ∀ original ∈ ledger'.fills.map (·.fill), fill.correctionOf = some original.fillId →
          original.manualTradeId = fill.manualTradeId)
    (hfilled : updated.filledQuantity = effectiveQuantity (ledger'.fillsForTrade tradeId)) :
    LedgerSound ledger' := by
  obtain ⟨row, hrow, hid, haggregate, hupdated, _⟩ := hadvance.row h hreplays
  have hkept : ∀ row ∈ ledger.records, ∃ row' ∈ ledger'.records,
      row'.manualTradeId = row.manualTradeId ∧
        row'.accountId = row.accountId ∧ row'.symbol = row.symbol ∧
        row'.side = row.side := by
    intro other hother
    rw [hadvance.result]
    refine ⟨_, mem_map_of_mem hother, ?_⟩
    by_cases hupdates : updates updated current.version other = true
    · rw [if_pos hupdates]
      exact ⟨rfl, rfl, rfl, rfl⟩
    · rw [if_neg hupdates]
      exact ⟨rfl, rfl, rfl, rfl⟩
  constructor
  case ids =>
    rw [hadvance.ids]
    exact h.ids
  case trades =>
    intro row' hrow'
    cases hadvance.mem_records h hreplays hrow' with
    | inl hmoved =>
      obtain ⟨row, hrow, hid, haggregate, rfl⟩ := hmoved
      exact hadvance.tradeSound h hreplays hfilled hrow hid haggregate
    | inr hother =>
      obtain ⟨hother, hne⟩ := hother
      refine (h.trades row' hother).congr (hadvance.events_ne (hupdated ▸ hne.symm))
        (hadvance.fills_ne fun fill' hfill' => ?_)
      rw [(hscope fill' hfill').1]
      exact hne.symm
  case eventOwner =>
    intro event hevent
    rw [hadvance.result] at hevent
    cases mem_append.mp hevent with
    | inl hevent =>
      obtain ⟨owner, howner, heq⟩ := h.eventOwner event hevent
      obtain ⟨owner', howner', hid', _⟩ := hkept owner howner
      exact ⟨owner', howner', hid'.trans heq⟩
    | inr hevent =>
      obtain ⟨owner', howner', hid', _⟩ := hkept row hrow
      refine ⟨owner', howner', ?_⟩
      rw [mem_singleton.mp hevent, hid', hid]
      exact hupdated.symm
  case fillOwner =>
    intro fill' hfill'
    rw [hadvance.result, map_append] at hfill'
    cases mem_append.mp hfill' with
    | inl hfill' =>
      obtain ⟨owner, howner, htrade, haccount, hsymbol, hside⟩ := h.fillOwner fill' hfill'
      obtain ⟨owner', howner', hid', haccount', hsymbol', hside'⟩ := hkept owner howner
      exact ⟨owner', howner', hid'.trans htrade,
        haccount.trans haccount'.symm, hsymbol.trans hsymbol'.symm,
        hside.trans hside'.symm⟩
    | inr hfill' =>
      have hmem : fill' ∈ fill := by
        cases fill with
        | none => exact absurd hfill' not_mem_nil
        | some fill => simpa [eq_comm] using hfill'
      obtain ⟨htrade, haccount, hsymbol, hside⟩ := hscope fill' hmem
      have hsound := h.trades row hrow
      obtain ⟨owner', howner', hid', haccount', hsymbol', hside'⟩ := hkept row hrow
      refine ⟨owner', howner', (hid'.trans hid).trans htrade.symm, ?_⟩
      rw [haccount', hsymbol', hside', haccount, hsymbol, hside, ← haggregate]
      exact ⟨hsound.accountId, hsound.symbol, hsound.side⟩
  case fills => exact hfills
  case sameTrade => exact hsameTrade

end Advance

-- ==== a Fill

structure FillValid (ledger : Ledger) (current : ManualTradeRecord) (fill : Fill) : Prop where
  accountId : fill.accountId = current.accountId
  symbol : fill.symbol = current.symbol
  side : fill.side = current.side
  rejected : ¬ (current.state = .rejected ∧ fill.fillKind = .execution)
  filled : ¬ (current.state = .filled ∧ fill.fillKind = .execution)
  target : ∀ fillId ∈ fill.correctionOf, ∃ original ∈ ledger.fillsForTrade fill.manualTradeId,
      original.fillId = fillId ∧ original.correctionOf = none ∧
        correction (·.fillId) Fill.correctionOf
          (ledger.fillsForTrade fill.manualTradeId) original = none

theorem fillValid_of_validateFill {current : ManualTradeRecord} {fill : Fill}
    (h : validateFill ledger current fill = .ok ()) :
    FillValid ledger current fill := by
  obtain ⟨_, hscope, h⟩ := bind_ok.mp h
  obtain ⟨haccount, hsymbol⟩ := require_ok.mp hscope
  obtain ⟨_, hside, h⟩ := bind_ok.mp h
  obtain ⟨_, hrejected, h⟩ := bind_ok.mp h
  obtain ⟨_, hfilled, h⟩ := bind_ok.mp h
  refine ⟨haccount, hsymbol, require_ok.mp hside, require_ok.mp hrejected,
    require_ok.mp hfilled, fun fillId hfillId => ?_⟩
  split at h
  next => simp at h
  next =>
    unfold Fill.correctionOf at hfillId
    cases hkind : fill.fillKind with
    | execution =>
      rw [hkind] at hfillId
      cases hfillId
    | correction target =>
      rw [hkind] at hfillId
      obtain rfl : target = fillId := Option.some.inj hfillId
      simp only [hkind, bind_ok, require_ok] at h
      obtain ⟨_, htarget, honce⟩ := h
      obtain ⟨original, hmem, hcheck⟩ := any_eq_true.mp htarget
      rw [decide_eq_true_eq] at hcheck
      refine ⟨original, hmem, hcheck.1, correctionOf_eq_none.mpr hcheck.2, ?_⟩
      refine correction_eq_none.mpr fun other hother heq => ?_
      have hother := all_eq_true.mp honce other hother
      rw [decide_eq_true_eq, ← hcheck.1] at hother
      exact hother heq

end MarketRegimeAlpha.Execution
