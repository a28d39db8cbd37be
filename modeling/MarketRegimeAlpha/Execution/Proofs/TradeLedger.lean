/-
The manual trade ledger over whole runs: what the commands, in any order,
leave of a trade.

# From a step to a run

A Fill changes the effective quantity by itself, and the trade is given the
new one (`Filled.sound`). A status repeats the filled quantity it has read
one transaction earlier: it is accepted only at the version it has read, so
the quantity is still the trade's (`Transitioned.sound`). The requests in
flight therefore belong to the invariant (`SystemSound`).

`Change.sound` is the step; `trade_ledger_sound` is what it gives of every
run. The version of a trade counts the accepted commands because each of
them moves it by one and nothing else moves it (`version_next`).
-/
import MarketRegimeAlpha.Execution.Proofs.LedgerSound

namespace MarketRegimeAlpha.Execution

open Lib List
open Position (Instant TradeSide FillKind)

variable {ledger ledger' : Ledger}

-- ==== a Fill

theorem fillsOk_concat {fills : List Fill} {fill : Fill} (h : FillsOk fills)
    (hfresh : ∀ other ∈ fills, other.fillId ≠ fill.fillId)
    (htarget : ∀ fillId ∈ fill.correctionOf, ∃ original ∈ fills,
      original.fillId = fillId ∧ original.correctionOf = none ∧
        correction (·.fillId) Fill.correctionOf fills original = none) :
    FillsOk (fills ++ [fill]) := by
  have hids : fill.fillId ∉ fills.map (·.fillId) := by
    intro hmem
    obtain ⟨other, hother, heq⟩ := mem_map.mp hmem
    exact hfresh other hother heq
  cases hkind : fill.correctionOf with
  | none => exact h.concat_original hkind hids
  | some fillId =>
    obtain ⟨original, hmem, hid, hexecution, hnone⟩ := htarget fillId hkind
    exact h.concat_correction (mem_originals.mpr ⟨hmem, hexecution⟩)
      (hkind.trans (congrArg some hid.symm)) hids hnone

namespace FillValid

variable {current : ManualTradeRecord} {fill : Fill}

theorem target_all (hvalid : FillValid ledger current fill) (h : LedgerSound ledger)
    (fillId : String) (hfillId : fillId ∈ fill.correctionOf) :
    ∃ original ∈ ledger.fills.map (·.fill), original.fillId = fillId ∧
      original.manualTradeId = fill.manualTradeId ∧
      original.correctionOf = none ∧
        correction (·.fillId) Fill.correctionOf (ledger.fills.map (·.fill)) original = none := by
  obtain ⟨original, hmem, hid, hexecution, hnone⟩ := hvalid.target fillId hfillId
  obtain ⟨hmem, htrade⟩ := mem_fillsForTrade.mp hmem
  refine ⟨original, hmem, hid, htrade, hexecution, ?_⟩
  refine correction_eq_none.mpr fun other hother htarget => ?_
  have hsame := h.sameTrade other hother original hmem htarget
  exact correction_eq_none.mp hnone other
    (mem_fillsForTrade.mpr ⟨hother, hsame.symm.trans htrade⟩) htarget

end FillValid

section Filled

variable {current updated : ManualTradeRecord} {fill : Fill} {key commandHash : String}
  (hfilled : Filled ledger current updated fill key commandHash ledger')

include hfilled in
theorem Filled.fills_eq : ledger'.fills.map (·.fill) = ledger.fills.map (·.fill) ++ [fill] := by
  rw [hfilled.advance.result, map_append]
  rfl

include hfilled in
theorem Filled.fresh_fill : ∀ other ∈ ledger.fills.map (·.fill), other.fillId ≠ fill.fillId := by
  intro other hother
  obtain ⟨row, hrow, rfl⟩ := mem_map.mp hother
  exact hfilled.fresh row hrow

include hfilled in
theorem Filled.fillsForTrade_perm : (ledger.fillsForTrade fill.manualTradeId ++ [fill]).Perm
      (ledger'.fillsForTrade fill.manualTradeId) := by
  unfold Ledger.fillsForTrade
  rw [hfilled.fills_eq, filter_append, filter_cons_of_pos (by simp), filter_nil]
  exact ((sortBy_perm _ _).append_right _).trans (sortBy_perm _ _).symm

theorem Filled.fillsOk_trade (h : LedgerSound ledger)
    (hfilled : Filled ledger current updated fill key commandHash ledger') :
    FillsOk (ledger.fillsForTrade fill.manualTradeId ++ [fill]) := by
  have hvalid := fillValid_of_validateFill hfilled.valid
  refine fillsOk_concat (h.fillsOk _) (fun other hother => ?_) hvalid.target
  exact hfilled.fresh_fill other (mem_fillsForTrade.mp hother).1

/-- A Fill keeps the ledger sound. -/
theorem Filled.sound (h : LedgerSound ledger)
    (hfilled : Filled ledger current updated fill key commandHash ledger') :
    LedgerSound ledger' := by
  have hvalid := fillValid_of_validateFill hfilled.valid
  refine hfilled.advance.sound h (replays_of_validate hfilled.transition) ?_ ?_ ?_ ?_
  · intro fill' hfill'
    obtain rfl : fill = fill' := Option.some.inj hfill'
    exact ⟨rfl, hvalid.accountId, hvalid.symbol, hvalid.side⟩
  · rw [hfilled.fills_eq]
    refine fillsOk_concat h.fills hfilled.fresh_fill fun fillId hfillId => ?_
    obtain ⟨original, hmem, hid, _, hexecution, hnone⟩ := hvalid.target_all h fillId hfillId
    exact ⟨original, hmem, hid, hexecution, hnone⟩
  · rw [hfilled.fills_eq]
    intro other hother original horiginal htarget
    cases mem_append.mp hother with
    | inl hold =>
      cases mem_append.mp horiginal with
      | inl horiginal => exact h.sameTrade other hold original horiginal htarget
      | inr horiginal =>
        -- a Fill names only what was there before it
        obtain rfl := mem_singleton.mp horiginal
        obtain ⟨known, hmem, hid, _⟩ := h.fills.known other hold original.fillId htarget
        exact absurd hid (hfilled.fresh_fill known hmem)
    | inr hother =>
      obtain rfl := mem_singleton.mp hother
      cases mem_append.mp horiginal with
      | inl horiginal =>
        obtain ⟨known, hmem, hid, htrade, _⟩ := hvalid.target_all h original.fillId htarget
        rw [← inj_on_of_nodup_map h.fills.ids hmem horiginal hid]
        exact htrade
      | inr horiginal => rw [mem_singleton.mp horiginal]
  · have hperm := hfilled.fillsForTrade_perm
    have hok := hfilled.fillsOk_trade h
    rw [effectiveQuantity_eq (hok.perm hperm), ← total_perm hok hperm,
      ← effectiveQuantity_eq hok, hfilled.updated_eq]
    rfl

end Filled

-- ==== a status

/-- A transition in flight repeats the filled quantity of the version it was
built on. -/
def RequestSound (ledger : Ledger) (request : TransitionRequest) : Prop :=
  ∃ event ∈ ledger.eventsOf request.record.manualTradeId, event.sequence = request.expectedVersion ∧
      request.record.filledQuantity = event.aggregate.filledQuantity

variable {row : TradeRow}

theorem TradeSound.event_unique (h : TradeSound ledger row)
    {event event' : EventRow} (hevent : event ∈ ledger.eventsOf row.manualTradeId)
    (hevent' : event' ∈ ledger.eventsOf row.manualTradeId)
    (heq : event.sequence = event'.sequence) : event = event' := by
  refine inj_on_of_nodup_map ?_ hevent hevent' heq
  rw [h.sequences]
  exact nodup_range

variable {request : TransitionRequest} {tradeId : String} {expectedVersion : Nat}
  {state : ManualOrderState} {key commandHash : String} {current : ManualTradeRecord}

variable (h : LedgerSound ledger)

include h in
/-- The version that a status has read is still the current one, so the
filled quantity it repeats is the trade's. -/
theorem Transitioned.quantity (hrequest : RequestSound ledger request)
    (htransitioned : Transitioned ledger current request ledger') :
    request.record.filledQuantity = current.filledQuantity := by
  obtain ⟨row, hrecord, haggregate, _⟩ := loadTrade_none htransitioned.advance.loaded
  obtain ⟨hrow, hid⟩ := record_mem hrecord
  have htrade := h.trades row hrow
  obtain ⟨event, hevent, hsequence, hquantity⟩ := hrequest
  obtain ⟨event', hevent', hsequence', hcurrent, _⟩ := h.loadTrade hrow le_rfl
  have hversion : row.version = request.expectedVersion := by
    rw [← htransitioned.expected, ← haggregate, htrade.version]
  have hsame : event = event' := by
    refine htrade.event_unique (hid ▸ hevent) hevent' ?_
    rw [hsequence, hsequence', hversion]
  rw [hquantity, hsame, hcurrent rfl, haggregate]

include h in
theorem Transitioned.sound (hrequest : RequestSound ledger request)
    (htransitioned : Transitioned ledger current request ledger') :
    LedgerSound ledger' := by
  have hadvance := htransitioned.advance
  obtain ⟨row, hrecord, haggregate, _⟩ := loadTrade_none hadvance.loaded
  obtain ⟨hrow, hid⟩ := record_mem hrecord
  have htrade := h.trades row hrow
  have hfills : ledger'.fills.map (·.fill) = ledger.fills.map (·.fill) := by
    rw [hadvance.result]
    simp
  refine hadvance.sound h (replays_of_validate htransitioned.transition)
    nofun (hfills ▸ h.fills) (hfills ▸ h.sameTrade) ?_
  have hsameFills : ledger'.fillsForTrade request.record.manualTradeId
      = ledger.fillsForTrade request.record.manualTradeId :=
    hadvance.fills_ne nofun
  rw [hsameFills, htransitioned.quantity h hrequest, ← haggregate,
    htrade.filledQuantity, htrade.filled, hid]

/-- What `mark_order_state` sends. -/
structure Marked (ledger : Ledger) (tradeId : String) (expectedVersion : Nat)
    (state : ManualOrderState) (request : TransitionRequest) : Prop where
  command : state = .cancelled ∨ state = .rejected ∨ state = .unknown
  expected : request.expectedVersion = expectedVersion
  record : ∃ current, ledger.loadTrade tradeId none = .ok current ∧
    current.version = expectedVersion ∧ request.record.state = state ∧
    request.record.filledQuantity = current.filledQuantity ∧
    request.record.manualTradeId = current.manualTradeId

theorem markOrderState_eq_ok {actor reason : String} {changedAt : Instant}
    (h : markOrderState ledger tradeId expectedVersion state actor reason
      changedAt key commandHash = .ok request) :
    Marked ledger tradeId expectedVersion state request := by
  obtain ⟨_, hcommand, h⟩ := bind_ok.mp h
  obtain ⟨current, hload, h⟩ := bind_ok.mp h
  obtain ⟨_, hversion, h⟩ := bind_ok.mp h
  obtain ⟨_, _, h⟩ := bind_ok.mp h
  obtain ⟨updated, htransition, h⟩ := bind_ok.mp h
  obtain rfl := pure_ok.mp h
  obtain ⟨_, _, hconstruct⟩ := bind_ok.mp htransition
  obtain ⟨_, rfl⟩ := construct_eq_ok.mp hconstruct
  exact ⟨require_ok.mp hcommand, rfl, ⟨current, hload, require_ok.mp hversion, rfl, rfl, rfl⟩⟩

include h in
theorem Marked.requestSound (hmarked : Marked ledger tradeId expectedVersion state request) :
    RequestSound ledger request := by
  obtain ⟨current, hload, hversion, _, hquantity, hid⟩ := hmarked.record
  obtain ⟨row, hrecord, haggregate, _⟩ := loadTrade_none hload
  obtain ⟨hrow, _⟩ := record_mem hrecord
  have htrade := h.trades row hrow
  obtain ⟨event, hevent, hsequence, hcurrent, _⟩ := h.loadTrade hrow le_rfl
  refine ⟨event, ?_, ?_, ?_⟩
  · rw [hid, ← haggregate, htrade.tradeId]
    exact hevent
  · rw [hsequence, hmarked.expected, ← hversion, ← haggregate, htrade.version]
  · rw [hquantity, hcurrent rfl, haggregate]

-- ==== the system

structure SystemSound (system : System) : Prop where
  ledger : LedgerSound system.ledger
  requests : ∀ request ∈ system.requests, RequestSound system.ledger request

theorem SystemSound.start : SystemSound .start := ⟨.empty, fun _ h => absurd h not_mem_nil⟩

theorem RequestSound.mono (h : RequestSound ledger request)
    (hevents : ∀ event ∈ ledger.events, event ∈ ledger'.events) :
    RequestSound ledger' request := by
  obtain ⟨event, hevent, hrest⟩ := h
  obtain ⟨hmem, howner⟩ := mem_filter.mp hevent
  exact ⟨event, mem_filter.mpr ⟨hevents event hmem, howner⟩, hrest⟩

variable {observations : Observations} {system system' : System} {command : Command}

theorem Change.events_mem (h : Change observations system command system') :
    ∀ event ∈ system.ledger.events, event ∈ system'.ledger.events := by
  intro event hevent
  cases h with
  | replayedCreation _ _ => exact hevent
  | created _ _ hcreated =>
    rw [hcreated.result]
    exact mem_append_left _ hevent
  | confirmed _ hconfirmed =>
    rw [hconfirmed.result]
    exact hevent
  | replayedFill _ => exact hevent
  | filled hfilled =>
    rw [hfilled.advance.result]
    exact mem_append_left _ hevent
  | requested _ => exact hevent
  | replayedTransition _ => exact hevent
  | transitioned _ htransitioned =>
    rw [htransitioned.advance.result]
    exact mem_append_left _ hevent

theorem Change.sound (h : SystemSound system)
    (hchange : Change observations system command system') :
    SystemSound system' := by
  have hrequests : ∀ request ∈ system.requests,
      RequestSound system'.ledger request := fun request hrequest =>
    (h.requests request hrequest).mono hchange.events_mem
  cases hchange with
  | replayedCreation _ _ => exact h
  | created _ hpost hcreated => exact ⟨hcreated.sound h.ledger hpost, hrequests⟩
  | confirmed _ hconfirmed => exact ⟨hconfirmed.sound h.ledger, hrequests⟩
  | replayedFill _ => exact h
  | filled hfilled => exact ⟨hfilled.sound h.ledger, hrequests⟩
  | requested hmark =>
    refine ⟨h.ledger, fun request hrequest => ?_⟩
    cases mem_append.mp hrequest with
    | inl hrequest => exact h.requests request hrequest
    | inr hrequest =>
      rw [mem_singleton.mp hrequest]
      exact (markOrderState_eq_ok hmark).requestSound h.ledger
  | replayedTransition _ => exact h
  | transitioned hmem htransitioned =>
    exact ⟨htransitioned.sound h.ledger (h.requests _ hmem), hrequests⟩

theorem next_error {error : ExecutionError}
    (h : execute observations system command = .error error) :
    next observations command system = system := by
  unfold next
  rw [h]

theorem SystemSound.next (h : SystemSound system) (command : Command) :
    SystemSound (next observations command system) := by
  unfold Execution.next
  cases hexecute : execute observations system command with
  | error e => exact h
  | ok system' => exact (execute_eq_ok hexecute).sound h

theorem SystemSound.run (h : SystemSound system) (commands : List Command) :
    SystemSound (run (Execution.next observations) system commands) := by
  induction commands generalizing system with
  | nil => exact h
  | cons command commands ih => exact ih (h.next command)

-- ==== one trade

inductive RowStep (row : TradeRow) : TradeRow → Prop
  | kept : RowStep row row
  | moved {updated : ManualTradeRecord} (h : Replays row.aggregate updated) :
      RowStep row (updatedRow updated row)

variable {tradeId key eventKey commandHash : String} {current updated : ManualTradeRecord}
  {fill : Option Fill} {c : Prop}

include h in
theorem Advance.moved (hreplays : Replays current updated)
    (hadvance : Advance ledger tradeId current updated fill key eventKey commandHash ledger') :
    ∃ row ∈ ledger.records, row.manualTradeId = tradeId ∧
      row.aggregate = current ∧ updatedRow updated row ∈ ledger'.records ∧
      ∀ other ∈ ledger.records, other.manualTradeId ≠ tradeId → other ∈ ledger'.records := by
  obtain ⟨row, hrow, hid, haggregate, _, honly⟩ := hadvance.row h hreplays
  have hrecords : ledger'.records = setRows (updates updated current.version)
      (updatedRow updated) ledger.records := by
    rw [hadvance.result]
  refine ⟨row, hrow, hid, haggregate, ?_, fun other hother hne => ?_⟩
  · rw [hrecords]
    exact mem_setRows.mpr ⟨row, hrow, if_pos ((honly row hrow).mpr rfl)⟩
  · rw [hrecords]
    refine mem_setRows.mpr ⟨other, hother, if_neg fun hupdates => hne ?_⟩
    rw [(honly other hother).mp hupdates, hid]

include h in
theorem Advance.rowStep (hreplays : Replays current updated)
    (hadvance : Advance ledger tradeId current updated fill key eventKey commandHash ledger')
    (hrow : row ∈ ledger.records) :
    ∃ row' ∈ ledger'.records, row'.manualTradeId = row.manualTradeId ∧
      RowStep row row' := by
  obtain ⟨moved, hmoved, hid, haggregate, hmem, hothers⟩ := hadvance.moved h hreplays
  by_cases hsame : row.manualTradeId = tradeId
  · obtain rfl := inj_on_of_nodup_map h.ids hrow hmoved (hsame.trans hid.symm)
    exact ⟨_, hmem, rfl, .moved (haggregate ▸ hreplays)⟩
  · exact ⟨row, hothers row hrow hsame, rfl, .kept⟩

theorem Change.rowStep (h : SystemSound system)
    (hchange : Change observations system command system') (hrow : row ∈ system.ledger.records) :
    ∃ row' ∈ system'.ledger.records, row'.manualTradeId = row.manualTradeId ∧ RowStep row row' := by
  cases hchange with
  | replayedCreation _ _ => exact ⟨row, hrow, rfl, .kept⟩
  | created _ _ hcreated =>
    rw [hcreated.result]
    exact ⟨row, mem_append_left _ hrow, rfl, .kept⟩
  | confirmed _ hconfirmed =>
    rw [hconfirmed.result]
    exact ⟨row, hrow, rfl, .kept⟩
  | replayedFill _ => exact ⟨row, hrow, rfl, .kept⟩
  | filled hfilled =>
    exact hfilled.advance.rowStep h.ledger (replays_of_validate hfilled.transition) hrow
  | requested _ => exact ⟨row, hrow, rfl, .kept⟩
  | replayedTransition _ => exact ⟨row, hrow, rfl, .kept⟩
  | transitioned _ htransitioned =>
    exact htransitioned.advance.rowStep h.ledger (replays_of_validate htransitioned.transition) hrow

theorem SystemSound.rowStep_next (h : SystemSound system) (command : Command)
    (hrow : row ∈ system.ledger.records) :
    ∃ row' ∈ (Execution.next observations command system).ledger.records,
      row'.manualTradeId = row.manualTradeId ∧ RowStep row row' := by
  unfold Execution.next
  cases hexecute : execute observations system command with
  | error e => exact ⟨row, hrow, rfl, .kept⟩
  | ok system' => exact (execute_eq_ok hexecute).rowStep h hrow

theorem RowStep.terminal {row row' : TradeRow} (h : RowStep row row')
    (hstate : row.aggregate.state = row.state)
    (hterminal : row.state.terminal = true) : row'.state = row.state := by
  cases h with
  | kept => rfl
  | moved hreplays =>
    obtain ⟨_, _, hkeeps⟩ := validateTransition_eq_ok.mp hreplays
    exact (hkeeps (hstate ▸ hterminal)).2.trans hstate

theorem SystemSound.terminal_run (h : SystemSound system) (commands : List Command)
    (hrow : row ∈ system.ledger.records) (hterminal : row.state.terminal = true) :
    ∃ row' ∈ (Lib.run (Execution.next observations) system commands).ledger.records,
      row'.manualTradeId = row.manualTradeId ∧ row'.state = row.state := by
  induction commands generalizing system row with
  | nil => exact ⟨row, hrow, rfl, rfl⟩
  | cons command commands ih =>
    obtain ⟨moved, hmoved, hid, hstep⟩ : ∃ row' ∈
          (Execution.next observations command system).ledger.records,
        row'.manualTradeId = row.manualTradeId ∧ RowStep row row' :=
      h.rowStep_next command hrow
    have hstate := hstep.terminal (h.ledger.trades row hrow).state hterminal
    obtain ⟨row', hrow', hid', hstate'⟩ := ih (h.next command) hmoved (hstate ▸ hterminal)
    exact ⟨row', hrow', hid'.trans hid, hstate'.trans hstate⟩

-- ==== the versions

def Command.advances (tradeId : String) : Command → Option String
  | .createTrade _ _ _ _ => none
  | .createStrategyTrade _ _ _ _ => none
  | .appendFill fill key _ => if fill.manualTradeId = tradeId then some key else none
  | .markOrderState _ _ _ _ _ _ _ _ => none
  | .transitionTrade request =>
    if request.record.manualTradeId = tradeId then
      some request.idempotencyKey
    else none

/-- The command moves the trade: it is not rejected and repeats no earlier
one. -/
def accepted (observations : Observations) (tradeId : String)
    (command : Command) (system : System) : Bool :=
  (execute observations system command).isOk && (command.advances tradeId).any fun key =>
      (system.ledger.command key).isNone

/-- How many commands of a run move the trade. -/
def acceptedCount (observations : Observations) (tradeId : String) : System → List Command → Nat
  | _, [] => 0
  | system, command :: commands =>
    (if accepted observations tradeId command system then 1 else 0)
      + acceptedCount observations tradeId (next observations command system) commands

theorem acceptedCount_cons (tradeId : String) (system : System)
    (command : Command) (commands : List Command) :
    acceptedCount observations tradeId system (command :: commands)
      = (if accepted observations tradeId command system then 1 else 0)
        + acceptedCount observations tradeId (next observations command system) commands := rfl

def Ledger.version (ledger : Ledger) (tradeId : String) : Nat :=
  ((ledger.record tradeId).map (·.version)).getD 0

include h in
theorem LedgerSound.version_eq (hrow : row ∈ ledger.records) :
    ledger.version row.manualTradeId = row.version := by
  unfold Ledger.version
  rw [h.record_eq hrow]
  rfl

theorem version_eq_zero (h : ∀ row ∈ ledger.records, row.manualTradeId ≠ tradeId) :
    ledger.version tradeId = 0 := by
  unfold Ledger.version
  rw [record_eq_none.mpr h]
  rfl

include h in
theorem Advance.version (h' : LedgerSound ledger') (hreplays : Replays current updated)
    (hadvance : Advance ledger tradeId current updated fill key eventKey commandHash ledger')
    (other : String) :
    ledger'.version other = ledger.version other + if tradeId = other then 1 else 0 := by
  obtain ⟨row, hrow, hid, haggregate, hmem, hothers⟩ := hadvance.moved h hreplays
  by_cases hsame : tradeId = other
  · have hsteps := (validateTransition_eq_ok.mp hreplays).1
    have hversion : ledger'.version row.manualTradeId = updated.version := h'.version_eq hmem
    rw [if_pos hsame, ← hsame, ← hid, hversion, h.version_eq hrow,
      hsteps.version, ← haggregate, (h.trades row hrow).version]
  · rw [if_neg hsame, Nat.add_zero]
    cases hrecord : ledger.record other with
    | none =>
      have hnone := record_eq_none.mp hrecord
      rw [version_eq_zero hnone]
      refine version_eq_zero fun row' hrow' heq => ?_
      have hids := mem_map_of_mem (f := (·.manualTradeId)) hrow'
      rw [hadvance.ids] at hids
      obtain ⟨row₀, hrow₀, heq₀⟩ := mem_map.mp hids
      exact hnone row₀ hrow₀ (heq₀.trans heq)
    | some row₀ =>
      obtain ⟨hrow₀, rfl⟩ := record_mem hrecord
      rw [h.version_eq hrow₀, h'.version_eq (hothers row₀ hrow₀ (Ne.symm hsame))]

include h in
theorem Created.version_eq {record : ManualTradeRecord} (h' : LedgerSound ledger')
    (hcreated : Created ledger record key commandHash ledger')
    (tradeId : String) : ledger'.version tradeId = ledger.version tradeId := by
  have hrecords : ledger'.records = ledger.records ++ [tradeRow record] := by rw [hcreated.result]
  cases hrecord : ledger.record tradeId with
  | none =>
    rw [version_eq_zero (record_eq_none.mp hrecord)]
    by_cases hsame : record.manualTradeId = tradeId
    · have hmem : tradeRow record ∈ ledger'.records := by
        rw [hrecords]
        exact mem_append_right _ (mem_singleton.mpr rfl)
      rw [← hsame]
      exact h'.version_eq hmem
    · refine version_eq_zero fun row' hrow' heq => ?_
      rw [hrecords] at hrow'
      cases mem_append.mp hrow' with
      | inl hrow' => exact record_eq_none.mp hrecord row' hrow' heq
      | inr hrow' =>
        rw [mem_singleton.mp hrow'] at heq
        exact hsame heq
  | some row =>
    obtain ⟨hrow, rfl⟩ := record_mem hrecord
    have hmem : row ∈ ledger'.records := by
      rw [hrecords]
      exact mem_append_left _ hrow
    rw [h.version_eq hrow, h'.version_eq hmem]

theorem any_isNone_of_ne [Decidable c] {key : String} (h : ledger.command key ≠ none) :
    ((if c then some key else none).any fun key =>
      (ledger.command key).isNone) = false := by
  by_cases hc : c
  · rw [if_pos hc]
    simpa [Option.isSome_iff_ne_none] using h
  · rw [if_neg hc]
    rfl

theorem any_isNone_of_eq [Decidable c] {key : String} (h : ledger.command key = none) :
    ((if c then some key else none).any fun key =>
      (ledger.command key).isNone) = decide c := by
  by_cases hc : c
  · rw [if_pos hc, decide_eq_true hc]
    simpa using h
  · rw [if_neg hc, decide_eq_false hc]
    rfl

/-- The version of a trade moves by one with each command that moves it. -/
theorem SystemSound.version_next (h : SystemSound system) (command : Command) (tradeId : String) :
    (Execution.next observations command system).ledger.version tradeId
      = system.ledger.version tradeId
        + if accepted observations tradeId command system then 1 else 0 := by
  unfold Execution.next accepted
  cases hexecute : execute observations system command with
  | error e => rfl
  | ok system' =>
    have hchange := execute_eq_ok hexecute
    have h' := hchange.sound h
    rw [show (Except.ok system' : Except ExecutionError System).isOk = true from rfl, Bool.true_and]
    cases hchange with
    | replayedCreation hcreates _ => cases hcreates <;> rfl
    | created hissued _ hcreated =>
      rw [hcreated.version_eq h.ledger h'.ledger]
      cases hissued <;> rfl
    | confirmed hissued hconfirmed =>
      rw [hconfirmed.result]
      cases hissued <;> rfl
    | replayedFill hkey =>
      unfold Command.advances
      rw [any_isNone_of_ne hkey]
      rfl
    | filled hfilled =>
      rw [hfilled.advance.version h.ledger h'.ledger (replays_of_validate hfilled.transition)]
      unfold Command.advances
      rw [any_isNone_of_eq hfilled.advance.newKey]
      simp only [decide_eq_true_eq]
    | requested _ => rfl
    | replayedTransition hkey =>
      unfold Command.advances
      rw [any_isNone_of_ne hkey]
      rfl
    | transitioned _ htransitioned =>
      rw [htransitioned.advance.version h.ledger h'.ledger
        (replays_of_validate htransitioned.transition)]
      unfold Command.advances
      rw [any_isNone_of_eq htransitioned.advance.newKey]
      simp only [decide_eq_true_eq]

theorem SystemSound.version_run (h : SystemSound system)
    (commands : List Command) (tradeId : String) :
    (Lib.run (Execution.next observations) system commands).ledger.version tradeId
      = system.ledger.version tradeId + acceptedCount observations tradeId system commands := by
  induction commands generalizing system with
  | nil => rfl
  | cons command commands ih =>
    rw [run_cons, ih (h.next command), h.version_next, acceptedCount_cons, Nat.add_assoc]

-- ==== the main result

include h in
/-- The Fill that counts for an execution is the same in its trade and in
the whole ledger. -/
theorem LedgerSound.currentFill_eq {fill : Fill} (hfill : fill ∈ ledger.fillsForTrade tradeId) :
    currentFill (ledger.fillsForTrade tradeId) fill
      = currentFill (ledger.fills.map (·.fill)) fill := by
  unfold currentFill
  congr 1
  refine Option.ext fun c => ?_
  rw [correction_eq_some (h.fillsOk tradeId), correction_eq_some h.fills]
  obtain ⟨hmem, htrade⟩ := mem_fillsForTrade.mp hfill
  constructor
  · rintro ⟨hc, htarget⟩
    exact ⟨(mem_fillsForTrade.mp hc).1, htarget⟩
  · rintro ⟨hc, htarget⟩
    have hsame := h.sameTrade c hc fill hmem htarget
    exact ⟨mem_fillsForTrade.mpr ⟨hc, hsame.symm.trans htrade⟩, htarget⟩

theorem loadTrade_current (hrow : ledger.record row.manualTradeId = some row) :
    ledger.loadTrade row.manualTradeId none
      = ledger.loadTrade row.manualTradeId (some row.version) := by
  unfold Ledger.loadTrade
  rw [hrow]
  rfl

/-- What the ledger keeps of a trade: its filled quantity is what its Fills
and their corrections say, its state agrees with it, and every version of it
can be read. -/
structure TradeKept (ledger : Ledger) (row : TradeRow) : Prop where
  filled : row.filledQuantity = (((ledger.fillsForTrade row.manualTradeId).filter
        (·.fillKind = .execution)).map fun fill =>
          (currentFill (ledger.fills.map (·.fill)) fill).quantity).sum
  once : ∀ c ∈ ledger.fills.map (·.fill), ∀ c' ∈ ledger.fills.map (·.fill),
    c.correctionOf ≠ none → c.correctionOf = c'.correctionOf → c = c'
  partiallyFilled : row.state = .partiallyFilled →
    row.filledQuantity < row.aggregate.intendedQuantity
  filledUp : row.state = .filled → row.filledQuantity = row.aggregate.intendedQuantity
  reconciliationRequired : row.state = .reconciliationRequired →
    row.aggregate.intendedQuantity < row.filledQuantity
  replayed : ∀ version ≤ row.version, ∃ record,
    ledger.loadTrade row.manualTradeId (some version) = .ok record ∧ record.version = version
  loaded : ledger.loadTrade row.manualTradeId none = .ok row.aggregate
  state : row.aggregate.state = row.state
  filledQuantity : row.aggregate.filledQuantity = row.filledQuantity
  version : row.aggregate.version = row.version

include h in
theorem LedgerSound.tradeKept (hrow : row ∈ ledger.records) : TradeKept ledger row := by
  have htrade := h.trades row hrow
  obtain ⟨event, hevent, _, hcurrent, hload⟩ := h.loadTrade hrow le_rfl
  have haggregate := hcurrent rfl
  have hwell : WellFormed row.aggregate :=
    wellFormed_of_postInit (haggregate ▸ htrade.valid event hevent)
  constructor
  case filled =>
    rw [htrade.filled, effectiveQuantity_eq (h.fillsOk _)]
    unfold total
    have hfilter : originals Fill.correctionOf (ledger.fillsForTrade row.manualTradeId)
        = (ledger.fillsForTrade row.manualTradeId).filter
          (·.fillKind = .execution) := by
      refine filter_congr fun fill _ => ?_
      simp only [correctionOf_eq_none]
    rw [hfilter]
    congr 1
    refine map_congr_left fun fill hfill => ?_
    rw [← h.currentFill_eq (mem_of_mem_filter hfill)]
    rfl
  case once =>
    intro c hc c' hc' hsome heq
    obtain ⟨fillId, hfillId⟩ := Option.ne_none_iff_exists'.mp hsome
    exact h.fills.eq_of_target hc hc' hfillId (heq.symm.trans hfillId)
  case partiallyFilled =>
    intro hstate
    rw [← htrade.filledQuantity]
    exact (hwell.partiallyFilled (htrade.state.trans hstate)).2
  case filledUp =>
    intro hstate
    rw [← htrade.filledQuantity]
    exact hwell.filled (htrade.state.trans hstate)
  case reconciliationRequired =>
    intro hstate
    rw [← htrade.filledQuantity]
    exact hwell.reconciliationRequired (htrade.state.trans hstate)
  case replayed =>
    intro version hversion
    obtain ⟨event, hevent, hsequence, _, hload⟩ := h.loadTrade hrow hversion
    exact ⟨event.aggregate, hload, (htrade.numbered event hevent).trans hsequence⟩
  case loaded => rw [loadTrade_current (h.record_eq hrow), hload, haggregate]
  case state => exact htrade.state
  case filledQuantity => exact htrade.filledQuantity
  case version => exact htrade.version

/-- After any commands, in any order: every trade is kept as it should be,
its version counts the commands that were accepted for it, a trade that has
ended stays ended whatever follows, and a rejected command changes
nothing. -/
theorem trade_ledger_sound (observations : Observations) (commands : List Command) (row : TradeRow)
    (hrow : row ∈ (run (next observations) .start commands).ledger.records) :
    TradeKept (run (next observations) .start commands).ledger row ∧ row.version
        = acceptedCount observations row.manualTradeId .start commands ∧
      (row.state = .cancelled ∨ row.state = .rejected → ∀ later,
        ∃ row' ∈ (run (next observations) .start (commands ++ later)).ledger.records,
          row'.manualTradeId = row.manualTradeId ∧ row'.state = row.state) ∧
      ∀ command error, execute observations (run (next observations) .start commands) command
            = .error error →
          next observations command (run (next observations) .start commands)
            = run (next observations) .start commands := by
  have hsound : SystemSound (run (next observations) .start commands) :=
    SystemSound.start.run commands
  refine ⟨hsound.ledger.tradeKept hrow, ?_, fun hstate later => ?_, fun command error herror => ?_⟩
  · rw [← hsound.ledger.version_eq hrow, SystemSound.start.version_run]
    exact Nat.zero_add _
  · have hterminal : row.state.terminal = true := by
      cases hstate with
      | inl h => rw [h]; rfl
      | inr h => rw [h]; rfl
    unfold run
    rw [foldl_append]
    exact hsound.terminal_run later hrow hterminal
  · exact next_error herror

section Sample

def sampleTrade : ManualTradeRecord where
  manualTradeId := "trade"
  accountId := "account"
  symbol := "600000.SH"
  side := .buy
  intendedQuantity := 10
  expectedPriceLower := 1
  expectedPriceUpper := 2
  state := .recorded
  filledQuantity := 0
  version := 0
  actor := "operator"
  reason := "entry"
  createdAt := 0
  updatedAt := 0
  lastActor := "operator"
  lastReason := "entry"
  authority := .manual ⟨"risk", "portfolio"⟩

theorem unit_price : (0 : ℚ) < 1 := by
  decide +kernel

def sampleFill (fillId : String) (quantity : Nat) (fillKind : FillKind)
    (hquantity : 0 < quantity) (hself : fillKind ≠ .correction fillId) :
    Fill where
  fillId
  manualTradeId := "trade"
  accountId := "account"
  symbol := "600000.SH"
  side := .buy
  quantity
  price := 1
  fees := 0
  occurredAt := 1
  recordedAt := 1
  fillKind
  quantity_positive := hquantity
  price_positive := unit_price
  fees_nonneg := le_rfl
  recorded_after := le_rfl
  not_self := hself
  externalFillId := fillId
  actor := "operator"
  reason := "fill"

def sampleCancelled : ManualTradeRecord :=
  { sampleTrade with
    state := .cancelled
    filledQuantity := 6
    version := 3
    updatedAt := 2 }

/-- A trade is filled in part, the Fill is corrected, the rest is cancelled,
and another Fill comes late. -/
def sampleCommands : List Command :=
  [.createTrade (.ok ()) sampleTrade "create" "hash",
    .appendFill (sampleFill "first" 4 .execution (by decide) (FillKind.execution_ne _)) "fill" "hash",
    .appendFill (sampleFill "second" 6 (.correction "first") (by decide)
      (by decide)) "correct" "hash",
    .markOrderState "trade" 2 .cancelled "operator" "entry" 2 "cancel" "hash",
    .transitionTrade ⟨sampleCancelled, 2, "cancel", "hash"⟩,
    .appendFill (sampleFill "third" 2 .execution Nat.zero_lt_two (FillKind.execution_ne _)) "late" "hash"]

def noObservations : Observations := ⟨fun _ => none, fun _ _ => none⟩

def sampleRow : TradeRow :=
  { tradeRow sampleTrade with
    state := .cancelled
    filledQuantity := 8
    version := 4
    aggregate :=
      { sampleTrade with
        state := .cancelled
        filledQuantity := 8
        version := 4
        updatedAt := 1
        lastReason := "fill" } }

end Sample

theorem trade_ledger_sound_sample : sampleRow ∈
        (run (next noObservations) .start sampleCommands).ledger.records ∧
      TradeKept (run (next noObservations) .start sampleCommands).ledger sampleRow ∧
      4 = acceptedCount noObservations "trade" .start sampleCommands := by
  have hrow : sampleRow ∈ (run (next noObservations) .start sampleCommands).ledger.records := by
    decide +kernel
  obtain ⟨hkept, hversion, _⟩ := trade_ledger_sound noObservations sampleCommands sampleRow hrow
  exact ⟨hrow, hkept, hversion⟩

end MarketRegimeAlpha.Execution
