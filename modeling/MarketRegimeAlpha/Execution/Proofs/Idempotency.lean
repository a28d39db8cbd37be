/-
Repeated calls of the service.

# What a ledger keeps

Whatever commands follow, a ledger only grows (`Extends`): its command rows and
Fills stay in front, its events stay, and a trade keeps its scope while its version
rises. So a command row answers the same for ever (`Replayed.kept`).
-/
import MarketRegimeAlpha.Execution.Service
import MarketRegimeAlpha.Execution.Proofs.TradeLedger

namespace MarketRegimeAlpha.Execution

open Lib List
open Position (Instant TradeSide FillKind)

variable {ledger ledger' : Ledger}

-- ==== what a ledger keeps

structure SameTrade (row row' : TradeRow) : Prop where
  tradeId : row'.manualTradeId = row.manualTradeId
  accountId : row'.accountId = row.accountId
  symbol : row'.symbol = row.symbol
  side : row'.side = row.side
  version : row.version ≤ row'.version

/-- A ledger, later. -/
structure Extends (ledger ledger' : Ledger) : Prop where
  commands : ledger.commands <+: ledger'.commands
  fills : ledger.fills <+: ledger'.fills
  events : ∀ event ∈ ledger.events, event ∈ ledger'.events
  trades : ∀ row ∈ ledger.records, ∃ row' ∈ ledger'.records, SameTrade row row'

theorem Extends.refl (ledger : Ledger) : Extends ledger ledger where
  commands := prefix_rfl
  fills := prefix_rfl
  events := fun _ h => h
  trades := fun row hrow => ⟨row, hrow, rfl, rfl, rfl, rfl, le_rfl⟩

theorem Extends.trans {ledger'' : Ledger} (h : Extends ledger ledger')
    (h' : Extends ledger' ledger'') : Extends ledger ledger'' where
  commands := h.commands.trans h'.commands
  fills := h.fills.trans h'.fills
  events := fun event hevent => h'.events event (h.events event hevent)
  trades := by
    intro row hrow
    obtain ⟨row', hrow', hsame⟩ := h.trades row hrow
    obtain ⟨row'', hrow'', hsame'⟩ := h'.trades row' hrow'
    exact ⟨row'', hrow'', hsame'.tradeId.trans hsame.tradeId,
      hsame'.accountId.trans hsame.accountId, hsame'.symbol.trans hsame.symbol,
      hsame'.side.trans hsame.side, hsame.version.trans hsame'.version⟩

theorem RowStep.sameTrade {row row' : TradeRow} (h : RowStep row row')
    (htrade : TradeSound ledger row) (hid : row'.manualTradeId = row.manualTradeId) :
    SameTrade row row' := by
  cases h with
  | kept => exact ⟨rfl, rfl, rfl, rfl, le_rfl⟩
  | moved hreplays =>
    obtain ⟨hsteps, _⟩ := validateTransition_eq_ok.mp hreplays
    have hversion := hsteps.version
    rw [htrade.version] at hversion
    exact ⟨hid, rfl, rfl, rfl, (Nat.le_succ _).trans_eq hversion.symm⟩

section Changes

variable {observations : Observations} {system system' : System} {command : Command}

theorem Change.extends (h : SystemSound system)
    (hchange : Change observations system command system') :
    Extends system.ledger system'.ledger := by
  obtain ⟨hcommands, hfills⟩ := hchange.prefixes
  refine ⟨hcommands, hfills, hchange.events_mem, fun row hrow => ?_⟩
  obtain ⟨row', hrow', hid, hstep⟩ := hchange.rowStep h hrow
  exact ⟨row', hrow', hstep.sameTrade (h.ledger.trades row hrow) hid⟩

end Changes

theorem loadTrade_some {tradeId : String} {version : Nat} {record : ManualTradeRecord}
    (h : ledger.loadTrade tradeId (some version) = .ok record) :
    ∃ row ∈ ledger.records, row.manualTradeId = tradeId ∧ version ≤ row.version := by
  unfold Ledger.loadTrade at h
  cases hrecord : ledger.record tradeId with
  | none =>
    rw [hrecord] at h
    exact absurd h nofun
  | some row =>
    rw [hrecord] at h
    obtain ⟨_, hcheck, _⟩ := bind_ok.mp h
    obtain ⟨hrow, hid⟩ := record_mem hrecord
    exact ⟨row, hrow, hid, (require_ok.mp hcheck).1⟩

section Kept

variable (h : LedgerSound ledger) (h' : LedgerSound ledger') (hextends : Extends ledger ledger')
  {record : ManualTradeRecord}

include h h' hextends

theorem LedgerSound.loadTrade_kept {tradeId : String} {version : Nat}
    (hload : ledger.loadTrade tradeId (some version) = .ok record) :
    ledger'.loadTrade tradeId (some version) = .ok record := by
  obtain ⟨row, hrow, rfl, hversion⟩ := loadTrade_some hload
  obtain ⟨row', hrow', hsame⟩ := hextends.trades row hrow
  obtain ⟨event, hevent, hsequence, _, hloaded⟩ := h.loadTrade hrow hversion
  obtain ⟨event', hevent', hsequence', _, hloaded'⟩ :=
    h'.loadTrade hrow' (hversion.trans hsame.version)
  have hmem : event ∈ ledger'.eventsOf row'.manualTradeId := by
    obtain ⟨hevent, howner⟩ := mem_filter.mp hevent
    rw [hsame.tradeId]
    exact mem_filter.mpr ⟨hextends.events event hevent, howner⟩
  have heq : event = event' := (h'.trades row' hrow').event_unique hmem hevent'
    (hsequence.trans hsequence'.symm)
  rw [hload] at hloaded
  rw [hloaded, ← hsame.tradeId, hloaded', heq]

theorem Replayed.kept {key commandHash tradeId : String}
    {command : CommandRow} (hreplayed : Replayed ledger key commandHash tradeId record command) :
    Replayed ledger' key commandHash tradeId record command := by
  obtain ⟨later, hlater⟩ := hextends.commands
  refine ⟨?_, hreplayed.hash, hreplayed.trade, h.loadTrade_kept h' hextends hreplayed.loaded⟩
  have hfound := hreplayed.found
  unfold Ledger.command at hfound ⊢
  rw [← hlater, find?_append, hfound]
  rfl

omit h h' in
theorem Extends.loadFill {fillId : Option String} {fill : Fill}
    (hload : ledger.loadFill fillId = .ok fill) :
    ledger'.loadFill fillId = .ok fill := by
  obtain ⟨later, hlater⟩ := hextends.fills
  unfold Ledger.loadFill at hload ⊢
  rw [← hlater, find?_append]
  cases hfound : ledger.fills.find? (some ·.fill.fillId = fillId) with
  | none =>
    rw [hfound] at hload
    exact absurd hload nofun
  | some row =>
    rw [hfound] at hload
    exact hload

theorem LedgerSound.loadTrade_later {tradeId : String} {trade : ManualTradeRecord}
    (hload : ledger.loadTrade tradeId none = .ok trade) :
    ∃ trade', ledger'.loadTrade tradeId none = .ok trade' ∧
      trade'.accountId = trade.accountId ∧ trade'.symbol = trade.symbol ∧
      trade'.side = trade.side := by
  obtain ⟨row, hrecord, haggregate, _⟩ := loadTrade_none hload
  obtain ⟨hrow, hid⟩ := record_mem hrecord
  obtain ⟨row', hrow', hsame⟩ := hextends.trades row hrow
  have htrade := h.trades row hrow
  have htrade' := h'.trades row' hrow'
  refine ⟨row'.aggregate, ?_, ?_, ?_, ?_⟩
  · rw [← hid, ← hsame.tradeId]
    exact (h'.tradeKept hrow').loaded
  · rw [htrade'.accountId, hsame.accountId, ← htrade.accountId, haggregate]
  · rw [htrade'.symbol, hsame.symbol, ← htrade.symbol, haggregate]
  · rw [htrade'.side, hsame.side, ← htrade.side, haggregate]

end Kept

-- ==== the calls

section Calls

variable {κ : Type} {canonicalHash : Semantic κ → String}

theorem FillCall.fill_congr (call : FillCall) {trade trade' : ManualTradeRecord}
    (haccount : trade'.accountId = trade.accountId)
    (hsymbol : trade'.symbol = trade.symbol) (hside : trade'.side = trade.side)
    (fillId : String) : call.fill trade' fillId = call.fill trade fillId := by
  unfold FillCall.fill
  rw [haccount, hsymbol, hside]

variable {call : FillCall} {fill : Fill}

theorem FillCall.fill_tradeId {trade : ManualTradeRecord}
    {fillId : String} (h : call.fill trade fillId = .ok fill) :
    fill.manualTradeId = call.tradeId := by
  iterate 5 obtain ⟨_, _, h⟩ := bind_ok.mp h
  split at h
  next =>
    split at h
    next =>
      split at h
      next =>
        split at h
        next =>
          obtain rfl := pure_ok.mp h
          rfl
        next => cases h
      next => cases h
    next => cases h
  next => cases h

theorem recordFill_tradeId (h : recordFill canonicalHash ledger call = .ok fill) :
    fill.manualTradeId = call.tradeId := by
  obtain ⟨_, _, hfill⟩ := bind_ok.mp h
  exact FillCall.fill_tradeId hfill

theorem recordFill_kept (h : LedgerSound ledger) (h' : LedgerSound ledger')
    (hextends : Extends ledger ledger') (hbuilt : recordFill canonicalHash ledger call = .ok fill) :
    recordFill canonicalHash ledger' call = .ok fill := by
  unfold recordFill at hbuilt ⊢
  obtain ⟨trade, hload, hfill⟩ := bind_ok.mp hbuilt
  obtain ⟨trade', hload', haccount, hsymbol, hside⟩ := h.loadTrade_later h' hextends hload
  rw [hload', ok_bind, call.fill_congr haccount hsymbol hside]
  exact hfill

variable {expectedVersion : Nat} {state : ManualOrderState} {key commandHash : String}
  {request : TransitionRequest}

theorem markOrderState_request {tradeId : String} {actor reason : String} {changedAt : Instant}
    (h : markOrderState ledger tradeId expectedVersion state actor reason
      changedAt key commandHash = .ok request) :
    request.idempotencyKey = key ∧ request.commandHash = commandHash := by
  iterate 5 obtain ⟨_, _, h⟩ := bind_ok.mp h
  obtain rfl := pure_ok.mp h
  exact ⟨rfl, rfl⟩

theorem LedgerSound.markOrderState_stale (h : LedgerSound ledger) {row : TradeRow}
    (hrow : row ∈ ledger.records) (hversion : expectedVersion < row.version)
    (hstate : state = .cancelled ∨ state = .rejected ∨ state = .unknown) (actor reason : String)
    (changedAt : Instant) (key commandHash : String) :
    markOrderState ledger row.manualTradeId expectedVersion state actor reason
        changedAt key commandHash
      = .error (.valueError "stale ManualTradeRecord version") := by
  unfold markOrderState
  rw [require_true hstate, ok_bind, (h.tradeKept hrow).loaded, ok_bind, (h.trades row hrow).version]
  unfold Lib.require
  rw [if_neg hversion.ne']
  rfl

theorem appendFill_replayed {fill stored : Fill} {record : ManualTradeRecord} {command : CommandRow}
    (hreplayed : Replayed ledger key commandHash fill.manualTradeId record command)
    (hstored : ledger.loadFill command.fillId = .ok stored) :
    (appendFill fill key commandHash).outcome ledger = .ok ((record, stored), ledger) := by
  unfold appendFill
  rw [Tx.outcome_select, hreplayed.found]
  simp only [Tx.outcome_bind_eq_ok, checked_eq_ok, Tx.outcome_pure_eq_ok]
  exact ⟨(), ledger, ⟨validateCommand_eq_ok.mpr ⟨hreplayed.hash, hreplayed.trade⟩, rfl⟩,
    ledger, ledger, rfl, stored, ledger, ⟨hstored, rfl⟩, record, ledger,
    ⟨hreplayed.loaded, rfl⟩, rfl, rfl⟩

variable {current updated : ManualTradeRecord}

theorem Advance.replayed {tradeId key eventKey commandHash : String} {fill : Option Fill}
    (hadvance : Advance ledger tradeId current updated fill key eventKey commandHash ledger')
    (hid : updated.manualTradeId = tradeId) (h' : LedgerSound ledger') :
    Replayed ledger' key commandHash tradeId updated (commandRow key commandHash updated fill) := by
  have hevents : eventRow updated eventKey ∈ ledger'.eventsOf tradeId := by
    rw [hadvance.result]
    exact mem_filter.mpr
      ⟨mem_append_right _ (mem_singleton_self _), decide_eq_true hid⟩
  obtain ⟨row, hrow, howner⟩ := h'.eventOwner _ (mem_of_mem_filter hevents)
  have howner : row.manualTradeId = tradeId := howner.trans hid
  have htrade := h'.trades row hrow
  have hversion : updated.version ≤ row.version := by
    have hmem : updated.version ∈ List.range (row.version + 1) := by
      rw [← htrade.sequences, howner]
      exact mem_map.mpr ⟨_, hevents, rfl⟩
    exact Nat.le_of_lt_succ (mem_range.mp hmem)
  obtain ⟨event, hevent, hsequence, _, hload⟩ := h'.loadTrade hrow hversion
  have heq : event = eventRow updated eventKey :=
    htrade.event_unique hevent (howner ▸ hevents) hsequence
  refine ⟨?_, rfl, hid, ?_⟩
  · have hfresh := hadvance.newKey
    unfold Ledger.command at hfresh ⊢
    rw [hadvance.result, find?_append, hfresh]
    simp [commandRow]
  · rw [heq] at hload
    rw [← howner]
    exact hload

variable (hfilled : Filled ledger current updated fill key commandHash ledger')

include hfilled in
theorem Filled.replayed (h : LedgerSound ledger) (h' : LedgerSound ledger') :
    Replayed ledger' key commandHash fill.manualTradeId updated
      (commandRow key commandHash updated (some fill)) := by
  obtain ⟨_, _, _, _, hid, _⟩ := hfilled.advance.row h (replays_of_validate hfilled.transition)
  exact hfilled.advance.replayed hid h'

include hfilled in
theorem Filled.loadFill : ledger'.loadFill (some fill.fillId) = .ok fill := by
  unfold Ledger.loadFill
  have hnone : ledger.fills.find? (some ·.fill.fillId = some fill.fillId) = none := by
    refine find?_eq_none.mpr fun row hrow hid => ?_
    exact hfilled.fresh row hrow (Option.some.inj (of_decide_eq_true hid))
  rw [hfilled.advance.result, find?_append, hnone]
  simp

theorem Transitioned.replayed {current : ManualTradeRecord}
    (htransitioned : Transitioned ledger current request ledger') (h' : LedgerSound ledger') :
    Replayed ledger' request.idempotencyKey request.commandHash
      request.record.manualTradeId request.record
      (commandRow request.idempotencyKey request.commandHash request.record none) :=
  htransitioned.advance.replayed rfl h'

theorem Marked.tradeId {tradeId : String}
    (hmarked : Marked ledger tradeId expectedVersion state request)
    (h : LedgerSound ledger) : request.record.manualTradeId = tradeId := by
  obtain ⟨current, hload, _, _, _, hid⟩ := hmarked.record
  obtain ⟨row, hrecord, haggregate, _⟩ := loadTrade_none hload
  obtain ⟨hrow, howner⟩ := record_mem hrecord
  rw [hid, ← haggregate, (h.trades row hrow).tradeId, howner]

/-- What the ledger has of a call that was accepted. -/
inductive Recorded (canonicalHash : Semantic κ → String) (key : String)
    (ledger : Ledger) : Call → Answer → Prop
  | fill {call : FillCall} {fill stored : Fill} {record : ManualTradeRecord} {command : CommandRow}
      (hreplayed : Replayed ledger key (canonicalHash (.fill call)) call.tradeId record command)
      (hstored : ledger.loadFill command.fillId = .ok stored)
      (hbuilt : recordFill canonicalHash ledger call = .ok fill) :
      Recorded canonicalHash key ledger (.recordFill call) ⟨record, some stored⟩
  | status {call : StatusCall} {record : ManualTradeRecord} {command : CommandRow}
      (hreplayed : Replayed ledger key (canonicalHash (.status call)) call.tradeId record command)
      (hversion : command.resultVersion = call.expectedVersion + 1)
      (hstate : call.state = .cancelled ∨ call.state = .rejected ∨ call.state = .unknown) :
      Recorded canonicalHash key ledger (.markOrderState call) ⟨record, none⟩

variable {key : String} {call : Call} {answer : Answer}
  (hrecorded : Recorded canonicalHash key ledger call answer)

include hrecorded in
theorem Recorded.kept (h : LedgerSound ledger) (h' : LedgerSound ledger')
    (hextends : Extends ledger ledger') :
    Recorded canonicalHash key ledger' call answer := by
  cases hrecorded with
  | fill hreplayed hstored hbuilt =>
    exact .fill (hreplayed.kept h h' hextends) (hextends.loadFill hstored)
      (recordFill_kept h h' hextends hbuilt)
  | status hreplayed hversion hstate => exact .status (hreplayed.kept h h' hextends) hversion hstate

include hrecorded in
theorem Recorded.replayed :
    ∃ command, Replayed ledger key (canonicalHash call.semantic) call.tradeId
      answer.record command := by
  cases hrecorded with
  | fill hreplayed _ _ => exact ⟨_, hreplayed⟩
  | status hreplayed _ _ => exact ⟨_, hreplayed⟩

include hrecorded in
theorem Recorded.serve_iff (h : LedgerSound ledger) (h' : LedgerSound ledger')
    (hextends : Extends ledger ledger') :
    serve canonicalHash key call ledger ledger' = .ok (answer, ledger')
      ↔ ∃ fill, call = .recordFill fill := by
  cases hrecorded with
  | fill hreplayed hstored hbuilt =>
    refine ⟨fun _ => ⟨_, rfl⟩, fun _ => ?_⟩
    have htrade := recordFill_tradeId hbuilt
    have houtcome := appendFill_replayed (htrade ▸ hreplayed.kept h h' hextends)
      (hextends.loadFill hstored)
    unfold serve
    dsimp only
    rw [hbuilt]
    dsimp only [Except.mapError]
    rw [ok_bind, houtcome, ok_bind]
    rfl
  | status hreplayed hversion hstate =>
    refine ⟨fun hserve => ?_, fun ⟨_, hcall⟩ => absurd hcall nofun⟩
    obtain ⟨row, hrow, hid, hle⟩ := loadTrade_some hreplayed.loaded
    have hstale := h.markOrderState_stale hrow (hversion ▸ hle) hstate
    unfold serve at hserve
    dsimp only at hserve
    rw [← hid, hstale] at hserve
    exact absurd hserve nofun

include hrecorded in
/-- The key, used again for something else. -/
theorem Recorded.serve_other {other : Call}
    (hother : canonicalHash other.semantic ≠ canonicalHash call.semantic)
    (read : Ledger) :
    ∃ error, serve canonicalHash key other read ledger = .error error := by
  obtain ⟨command, hreplayed⟩ := hrecorded.replayed
  cases hserve : serve canonicalHash key other read ledger with
  | error error => exact ⟨error, rfl⟩
  | ok result =>
    exfalso
    cases other with
    | recordFill other =>
      obtain ⟨_, _, hserve⟩ := bind_ok.mp hserve
      obtain ⟨⟨_, _⟩, houtcome, _⟩ := bind_ok.mp hserve
      cases appendFill_eq_ok houtcome with
      | inl hagain =>
        obtain ⟨_, hagain, _⟩ := hagain
        have hsame := Option.some.inj (hagain.found.symm.trans hreplayed.found)
        exact hother (hagain.hash.symm.trans (hsame ▸ hreplayed.hash))
      | inr hnew =>
        obtain ⟨_, hnew, _⟩ := hnew
        exact absurd (hnew.advance.newKey.symm.trans hreplayed.found) nofun
    | markOrderState other =>
      obtain ⟨request, hrequest, hserve⟩ := bind_ok.mp hserve
      obtain ⟨⟨_, _⟩, houtcome, _⟩ := bind_ok.mp hserve
      obtain ⟨hkey, hhash⟩ := markOrderState_request (mapError_eq_ok.mp hrequest)
      cases transitionTrade_eq_ok houtcome with
      | inl hagain =>
        obtain ⟨_, hagain, _⟩ := hagain
        rw [hkey, hhash] at hagain
        have hsame := Option.some.inj (hagain.found.symm.trans hreplayed.found)
        exact hother (hagain.hash.symm.trans (hsame ▸ hreplayed.hash))
      | inr hnew =>
        obtain ⟨_, hnew, _⟩ := hnew
        have hfresh := hnew.advance.newKey
        rw [hkey] at hfresh
        exact absurd (hfresh.symm.trans hreplayed.found) nofun

end Calls

-- ==== the runs

section Runs

variable {κ : Type} {canonicalHash : Semantic κ → String} {payloads : Set (Semantic κ)}
  {observations : Observations} {system system' : System} {command : Command}

/-- What the hash of a status is the hash of, where it is sent and where it is
stored: a row under it is of the version after the expected one. -/
structure StatusSound (canonicalHash : Semantic κ → String)
    (payloads : Set (Semantic κ)) (system : System) : Prop where
  requests : ∀ request ∈ system.requests, ∃ call, .status call ∈ payloads ∧
    request.commandHash = canonicalHash (.status call) ∧
    request.expectedVersion = call.expectedVersion
  commands : ∀ row ∈ system.ledger.commands, ∀ call, .status call ∈ payloads →
    row.commandHash = canonicalHash (.status call) → row.resultVersion = call.expectedVersion + 1

/-- The system keeps both. -/
structure ServiceSound (canonicalHash : Semantic κ → String)
    (payloads : Set (Semantic κ)) (system : System) : Prop where
  sound : SystemSound system
  status : StatusSound canonicalHash payloads system

theorem Transitioned.version {current : ManualTradeRecord}
    {request : TransitionRequest} (h : Transitioned ledger current request ledger') :
    request.record.version = request.expectedVersion + 1 := by
  obtain ⟨hsteps, _⟩ := validateTransition_eq_ok.mp h.transition
  rw [hsteps.version, h.expected]

theorem forall_commands_append {P : CommandRow → Prop} {rows : List CommandRow}
    {new : CommandRow} (hrows : ∀ row ∈ rows, P row) (hrow : P new) :
    ∀ row ∈ rows ++ [new], P row :=
  forall_mem_append.mpr ⟨hrows, forall_mem_singleton.mpr hrow⟩

variable (hhash : Set.InjOn canonicalHash payloads)
  (hserved : Served canonicalHash payloads command)

include hhash hserved

theorem Issued.not_status {record : ManualTradeRecord} {key commandHash : String}
    (hissued : Issued observations ledger record key commandHash command)
    {call : StatusCall} (hcall : .status call ∈ payloads) :
    commandHash ≠ canonicalHash (.status call) := by
  intro heq
  cases hissued with
  | increasing _ =>
    cases hserved with
    | createTrade hpayload => exact absurd (hhash hpayload hcall heq) nofun
  | strategy _ _ =>
    cases hserved with
    | createStrategyTrade hpayload => exact absurd (hhash hpayload hcall heq) nofun

theorem Change.statusSound (h : StatusSound canonicalHash payloads system)
    (hchange : Change observations system command system') :
    StatusSound canonicalHash payloads system' := by
  cases hchange with
  | replayedCreation _ _ => exact h
  | created hissued _ hcreated =>
    rw [hcreated.result]
    refine ⟨h.requests, forall_commands_append h.commands fun call hcall heq => ?_⟩
    exact absurd heq (hissued.not_status hhash hserved hcall)
  | confirmed hissued hconfirmed =>
    rw [hconfirmed.result]
    refine ⟨h.requests, forall_commands_append h.commands fun call hcall heq => ?_⟩
    exact absurd heq (hissued.not_status hhash hserved hcall)
  | replayedFill _ => exact h
  | filled hfilled =>
    rw [hfilled.advance.result]
    refine ⟨h.requests, forall_commands_append h.commands fun call hcall heq => ?_⟩
    cases hserved with
    | recordFill hpayload _ => exact absurd (hhash hpayload hcall heq) nofun
  | requested hmark =>
    refine ⟨fun request hrequest => ?_, h.commands⟩
    cases mem_append.mp hrequest with
    | inl hsent => exact h.requests request hsent
    | inr hnew =>
      rw [mem_singleton.mp hnew]
      obtain ⟨_, hsent⟩ := markOrderState_request hmark
      have hexpected := (markOrderState_eq_ok hmark).expected
      cases hserved with
      | markOrderState hpayload => exact ⟨_, hpayload, hsent, hexpected⟩
  | replayedTransition _ => exact h
  | transitioned hmem htransitioned =>
    rw [htransitioned.advance.result]
    refine ⟨h.requests, forall_commands_append h.commands fun call hcall heq => ?_⟩
    obtain ⟨sent, hsent, hsentHash, hexpected⟩ := h.requests _ hmem
    have hsame := Semantic.status.inj (hhash hsent hcall (hsentHash.symm.trans heq))
    rw [← hsame, ← hexpected]
    exact htransitioned.version

theorem ServiceSound.next (h : ServiceSound canonicalHash payloads system) :
    ServiceSound canonicalHash payloads (next observations command system) ∧
      Extends system.ledger (Execution.next observations command system).ledger := by
  unfold Execution.next
  cases hexecute : execute observations system command with
  | error _ => exact ⟨h, .refl _⟩
  | ok system' =>
    have hchange := execute_eq_ok hexecute
    exact ⟨⟨hchange.sound h.sound, hchange.statusSound hhash hserved h.status⟩,
      hchange.extends h.sound⟩

omit hserved

/-- The systems that the services lead to from another. -/
def Later (observations : Observations) (canonicalHash : Semantic κ → String)
    (payloads : Set (Semantic κ)) (system : System) : System → Prop :=
  Reach (· = system) (Execution.next observations)
    fun command _ => Served canonicalHash payloads command

theorem Later.sound (hlater : Later observations canonicalHash payloads system system')
    (h : ServiceSound canonicalHash payloads system) :
    ServiceSound canonicalHash payloads system' ∧
      Extends system.ledger system'.ledger := by
  refine Reach.inv (I := fun s => ServiceSound canonicalHash payloads s ∧
    Extends system.ledger s.ledger) ?_ ?_ hlater
  · rintro _ rfl
    exact ⟨h, .refl _⟩
  · rintro s command ⟨hsound, hextends⟩ hserved
    obtain ⟨hnext, hstep⟩ := hsound.next hhash hserved
    exact ⟨hnext, hextends.trans hstep⟩

/-- What an accepted call leaves. -/
theorem serve_recorded {read : System} {key : String} {call : Call} {answer : Answer}
    (hcall : call.semantic ∈ payloads) (hread : ServiceSound canonicalHash payloads read)
    (h : ServiceSound canonicalHash payloads system) (hextends : Extends read.ledger system.ledger)
    (hserve : serve canonicalHash key call read.ledger system.ledger = .ok (answer, ledger')) :
    ServiceSound canonicalHash payloads ⟨ledger', system.requests⟩ ∧
      Recorded canonicalHash key ledger' call answer := by
  cases call with
  | recordFill call =>
    obtain ⟨fill, hbuilt, hserve⟩ := bind_ok.mp hserve
    have hbuilt := mapError_eq_ok.mp hbuilt
    obtain ⟨⟨⟨record, stored⟩, after⟩, houtcome, hanswer⟩ := bind_ok.mp hserve
    obtain ⟨rfl, rfl⟩ := Prod.mk.inj (pure_ok.mp hanswer)
    have htrade := recordFill_tradeId hbuilt
    have hagain := recordFill_kept hread.sound.ledger h.sound.ledger hextends hbuilt
    cases appendFill_eq_ok houtcome with
    | inl hknown =>
      obtain ⟨command, hreplayed, hstored, rfl⟩ := hknown
      exact ⟨h, .fill (htrade ▸ hreplayed) hstored hagain⟩
    | inr hnew =>
      obtain ⟨current, hfilled, rfl⟩ := hnew
      have hchange : Change noObservations system
          (.appendFill stored key (canonicalHash (.fill call)))
          ⟨after, system.requests⟩ := .filled hfilled
      have hsound := hchange.sound h.sound
      have hstatus := hchange.statusSound hhash (.recordFill hcall hbuilt) h.status
      refine ⟨⟨hsound, hstatus⟩, .fill (htrade ▸ hfilled.replayed h.sound.ledger hsound.ledger) ?_
        (recordFill_kept h.sound.ledger hsound.ledger (hchange.extends h.sound) hagain)⟩
      exact hfilled.loadFill
  | markOrderState call =>
    obtain ⟨request, hrequest, hserve⟩ := bind_ok.mp hserve
    have hrequest := mapError_eq_ok.mp hrequest
    obtain ⟨⟨record, after⟩, houtcome, hanswer⟩ := bind_ok.mp hserve
    obtain ⟨rfl, rfl⟩ := Prod.mk.inj (pure_ok.mp hanswer)
    have hmarked := markOrderState_eq_ok hrequest
    obtain ⟨hkey, hsent⟩ := markOrderState_request hrequest
    have htrade := hmarked.tradeId hread.sound.ledger
    cases transitionTrade_eq_ok houtcome with
    | inl hknown =>
      obtain ⟨command, hreplayed, rfl⟩ := hknown
      rw [hkey, hsent, htrade] at hreplayed
      have hmem := mem_of_find?_eq_some hreplayed.found
      exact ⟨h, .status hreplayed
        (h.status.commands command hmem call hcall hreplayed.hash) hmarked.command⟩
    | inr hnew =>
      obtain ⟨current, htransitioned, rfl⟩ := hnew
      -- the request is in flight between the two transactions
      have hflight : ServiceSound canonicalHash payloads
          ⟨system.ledger, system.requests ++ [request]⟩ := by
        refine ⟨⟨h.sound.ledger, forall_mem_append.mpr ⟨h.sound.requests,
          forall_mem_singleton.mpr ?_⟩⟩,
          ⟨forall_mem_append.mpr ⟨h.status.requests,
            forall_mem_singleton.mpr ⟨call, hcall, hsent, hmarked.expected⟩⟩,
          h.status.commands⟩⟩
        exact (hmarked.requestSound hread.sound.ledger).mono hextends.events
      have hchange : Change noObservations
          ⟨system.ledger, system.requests ++ [request]⟩ (.transitionTrade request)
          ⟨after, system.requests ++ [request]⟩ :=
        .transitioned (mem_append_right _ (mem_singleton_self request)) htransitioned
      have hsound := hchange.sound hflight.sound
      have hstatus := hchange.statusSound hhash .transitionTrade hflight.status
      have hreplayed := htransitioned.replayed hsound.ledger
      rw [hkey, hsent, htrade] at hreplayed
      refine ⟨⟨⟨hsound.ledger, fun request hmem =>
          hsound.requests request (mem_append_left _ hmem)⟩,
        ⟨fun request hmem => hstatus.requests request (mem_append_left _ hmem),
          hstatus.commands⟩⟩, .status hreplayed ?_ hmarked.command⟩
      show request.record.version = _
      rw [htransitioned.version, hmarked.expected]

omit hhash

def Served.Reached (observations : Observations)
    (canonicalHash : Semantic κ → String) (payloads : Set (Semantic κ)) :
    System → Prop :=
  Later observations canonicalHash payloads .start

theorem ServiceSound.start : ServiceSound canonicalHash payloads .start where
  sound := .start
  status := ⟨fun _ h => absurd h not_mem_nil, fun _ h => absurd h not_mem_nil⟩

end Runs

-- ==== the main result

/-- **Idempotency.** In every run of the services whose dictionaries do not
collide, for every call that was accepted: its repetition at any later time, reading
one ledger and writing another, returns what was returned first and changes no row
if and only if it is a `record_fill`; and the key used for any other call is refused
at any later time, whatever that call has read. -/
theorem command_idempotency {κ : Type} (observations : Observations)
    (canonicalHash : Semantic κ → String) (payloads : Set (Semantic κ))
    (hhash : Set.InjOn canonicalHash payloads) (key : String) (call : Call)
    (hcall : call.semantic ∈ payloads) {read system : System}
    (hread : Served.Reached observations canonicalHash payloads read)
    (hsystem : Later observations canonicalHash payloads read system)
    {answer : Answer} {ledger' : Ledger}
    (haccepted : serve canonicalHash key call read.ledger system.ledger = .ok (answer, ledger')) :
    (∀ again final, Later observations canonicalHash payloads ⟨ledger', system.requests⟩ again →
      Later observations canonicalHash payloads again final →
        (serve canonicalHash key call again.ledger final.ledger = .ok (answer, final.ledger)
          ↔ ∃ fill, call = .recordFill fill)) ∧
    ∀ other : Call, other.semantic ∈ payloads → other ≠ call → ∀ read' final,
        Later observations canonicalHash payloads ⟨ledger', system.requests⟩ final →
        ∃ error, serve canonicalHash key other read' final.ledger = .error error := by
  obtain ⟨hreadSound, _⟩ := hread.sound hhash ServiceSound.start
  obtain ⟨hsound, hextends⟩ := hsystem.sound hhash hreadSound
  obtain ⟨hafter, hrecorded⟩ := serve_recorded hhash hcall hreadSound hsound hextends haccepted
  have hlater : ∀ again,
      Later observations canonicalHash payloads ⟨ledger', system.requests⟩ again →
      ServiceSound canonicalHash payloads again ∧
        Recorded canonicalHash key again.ledger call answer := by
    intro again hagain
    obtain ⟨hagainSound, hkept⟩ := hagain.sound hhash hafter
    exact ⟨hagainSound, hrecorded.kept hafter.sound.ledger hagainSound.sound.ledger hkept⟩
  constructor
  · intro again final hagain hfinal
    obtain ⟨hagainSound, hrecorded⟩ := hlater again hagain
    obtain ⟨hfinalSound, hkept⟩ := hfinal.sound hhash hagainSound
    exact hrecorded.serve_iff hagainSound.sound.ledger hfinalSound.sound.ledger hkept
  · intro other hother hne read' final hfinal
    obtain ⟨_, hrecorded⟩ := hlater final hfinal
    refine hrecorded.serve_other (fun heq => hne ?_) read'
    have hsame := hhash hother hcall heq
    cases other with
    | recordFill other =>
      cases call with
      | recordFill call => rw [Semantic.fill.inj hsame]
      | markOrderState call => cases hsame
    | markOrderState other =>
      cases call with
      | recordFill call => cases hsame
      | markOrderState call => rw [Semantic.status.inj hsame]

section Sample

def sampleFillCall : FillCall where
  tradeId := "trade"
  externalFillId := "external"
  quantity := 4
  price := 1
  fees := 0
  occurredAt := 0
  recordedAt := 0
  actor := "operator"
  reason := "fill"
  correctionOfFillId := none

def sampleStatusCall : StatusCall where
  tradeId := "trade"
  expectedVersion := 0
  state := .unknown
  actor := "operator"
  reason := "status"
  changedAt := 0

def sampleHash : Semantic Unit → String
  | .creation _ => "sha256:a76360780953db2937238adc722c87722b78897f"
      ++ "bb48f022d9160e5cb3543722"
  | .fill _ => "sha256:e8c23572607bc6d3175bad4927a246c772c7026f"
      ++ "ff251fdd2073033e1aa8babf"
  | .status _ => "sha256:6061a6720a3abbda729fc7f771574a17364eceec"
      ++ "be57493867e8b040ccbbca56"

def samplePayloads : Set (Semantic Unit) :=
  fun payload => payload = .creation () ∨ payload = .fill sampleFillCall
    ∨ payload = .status sampleStatusCall

def sampleRecorded : System :=
  next noObservations
    (.createTrade (.ok ()) sampleTrade "create" (sampleHash (.creation ()))) .start

def sampleServed (call : Call) : Except ExecutionError (Answer × Ledger) :=
  serve sampleHash "key" call sampleRecorded.ledger sampleRecorded.ledger

end Sample

/-- A status that was accepted is refused when it is repeated at once. -/
theorem mark_order_state_not_replayed : (sampleServed (.markOrderState sampleStatusCall)).isOk ∧ (do
        let (_, ledger') ← sampleServed (.markOrderState sampleStatusCall)
        serve sampleHash "key" (.markOrderState sampleStatusCall) ledger' ledger')
        = .error (.raised (.valueError "stale ManualTradeRecord version")) := by
  decide +kernel

/-- A Fill that was accepted is answered again. -/
theorem command_idempotency_fill : ∃ answer ledger',
    sampleServed (.recordFill sampleFillCall) = .ok (answer, ledger') ∧
      serve sampleHash "key" (.recordFill sampleFillCall) ledger' ledger'
        = .ok (answer, ledger') := by
  obtain ⟨⟨answer, ledger'⟩, haccepted⟩ :
      ∃ result, sampleServed (.recordFill sampleFillCall) = .ok result :=
    exists_of_isOk (by decide +kernel)
  have hhash : Set.InjOn sampleHash samplePayloads := by
    rintro a (rfl | rfl | rfl) b (rfl | rfl | rfl) heq
    all_goals first | rfl | exact absurd heq (by decide)
  have hread : Served.Reached noObservations sampleHash samplePayloads sampleRecorded :=
    .step _ (.start rfl) (.createTrade (.inl rfl))
  have hreplay := (command_idempotency noObservations sampleHash samplePayloads hhash
    "key" (.recordFill sampleFillCall) (.inr (.inl rfl)) hread (.start rfl)
    haccepted).1 _ _ (.start rfl) (.start rfl)
  exact ⟨answer, ledger', haccepted, hreplay.mpr ⟨_, rfl⟩⟩

end MarketRegimeAlpha.Execution
