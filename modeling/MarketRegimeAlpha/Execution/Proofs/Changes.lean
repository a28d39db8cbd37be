/-
What an accepted command does to the ledger.

# The four changes

A command that is not rejected replays an earlier one, creates a trade,
confirms a trade that has not moved since its creation, or advances one
trade by one version (`Change`). Everything later is derived from these
four; no other proof unfolds a command.

An advance is the common part of `append_fill` and `transition_trade`: the
row of the trade, one event and one command row, and the Fill when there is
one (`Advance`). What the new record may be differs: `Filled` and
`Transitioned`.
-/
import MarketRegimeAlpha.Execution.Ledger

namespace MarketRegimeAlpha.Execution

open Lib List
open Position (Instant TradeSide FillKind)

variable {ledger ledger' : Ledger}

-- ==== vocabulary

def eventRow (record : ManualTradeRecord) (key : String) : EventRow where
  manualTradeId := record.manualTradeId
  sequence := record.version
  state := record.state
  aggregate := record
  idempotencyKey := key

def commandRow (key commandHash : String) (record : ManualTradeRecord)
    (fill : Option Fill) : CommandRow where
  idempotencyKey := key
  commandHash := commandHash
  manualTradeId := record.manualTradeId
  fillId := fill.map (·.fillId)
  resultVersion := record.version

/-- The trade is new, and so is what identifies it. -/
structure Created (ledger : Ledger) (record : ManualTradeRecord)
    (key commandHash : String) (ledger' : Ledger) : Prop where
  newKey : ledger.command key = none
  recorded : record.state = .recorded
  version : record.version = 0
  fresh : ledger.record record.manualTradeId = none
  result : ledger' =
    { records := ledger.records ++ [tradeRow record]
      events := ledger.events ++ [eventRow record key]
      fills := ledger.fills
      commands := ledger.commands ++ [commandRow key commandHash record none] }

/-- The trade is there already, as it was created. -/
structure Confirmed (ledger : Ledger) (record : ManualTradeRecord)
    (key commandHash : String) (ledger' : Ledger) : Prop where
  newKey : ledger.command key = none
  recorded : record.state = .recorded
  version : record.version = 0
  exists_row : ∃ row, ledger.record record.manualTradeId = some row ∧
    row.aggregate.construct = .ok record
  result : ledger' =
    { ledger with
      commands := ledger.commands ++ [commandRow key commandHash record none] }

/-- One trade takes one step. -/
structure Advance (ledger : Ledger) (tradeId : String)
    (current updated : ManualTradeRecord) (fill : Option Fill)
    (key eventKey commandHash : String) (ledger' : Ledger) : Prop where
  newKey : ledger.command key = none
  loaded : ledger.loadTrade tradeId none = .ok current
  result : ledger' =
    { records := setRows (updates updated current.version)
        (updatedRow updated) ledger.records
      events := ledger.events ++ [eventRow updated eventKey]
      fills := ledger.fills ++ (fill.map fun fill => ⟨fill, key⟩).toList
      commands := ledger.commands ++
        [commandRow key commandHash updated fill] }

structure Filled (ledger : Ledger) (current updated : ManualTradeRecord)
    (fill : Fill) (key commandHash : String) (ledger' : Ledger) : Prop where
  advance : Advance ledger fill.manualTradeId current updated (some fill) key
    (key ++ ":trade") commandHash ledger'
  valid : validateFill ledger current fill = .ok ()
  fresh : ∀ row ∈ ledger.fills, row.fill.fillId ≠ fill.fillId
  updated_eq : updated = filledRecord current fill
    (effectiveQuantity (ledger.fillsForTrade fill.manualTradeId ++ [fill]))
  constructed : updated.postInit = .ok ()
  transition : validateManualTradeTransition current updated
    (current.state = .cancelled || fill.fillKind ≠ .execution) = .ok ()

/-- The step of a status. -/
structure Transitioned (ledger : Ledger) (current : ManualTradeRecord)
    (request : TransitionRequest) (ledger' : Ledger) : Prop where
  advance : Advance ledger request.record.manualTradeId current request.record
    none request.idempotencyKey request.idempotencyKey request.commandHash
    ledger'
  expected : current.version = request.expectedVersion
  transition :
    validateManualTradeTransition current request.record false = .ok ()

/-- A command that has been accepted before, and what it answers. -/
structure Replayed (ledger : Ledger) (key commandHash tradeId : String)
    (record : ManualTradeRecord) (command : CommandRow) : Prop where
  found : ledger.command key = some command
  hash : command.commandHash = commandHash
  trade : command.manualTradeId = tradeId
  loaded : ledger.loadTrade tradeId (some command.resultVersion) = .ok record

-- ==== the constructor

theorem construct_eq_ok {record result : ManualTradeRecord} :
    record.construct = .ok result ↔ record.postInit = .ok () ∧
      record = result := by
  unfold ManualTradeRecord.construct
  rw [bind_ok]
  constructor
  · rintro ⟨_, hpost, h⟩
    exact ⟨hpost, pure_ok.mp h⟩
  · rintro ⟨hpost, rfl⟩
    exact ⟨(), hpost, rfl⟩

-- ==== the writes

section Writes

variable {record : ManualTradeRecord} {key commandHash : String} {α : Type}

@[simp] theorem checked_eq_ok {x : Except Raised α} {a : α} :
    (checked x).outcome ledger = .ok (a, ledger') ↔
      x = .ok a ∧ ledger = ledger' := by
  unfold checked
  cases x <;> simp [Except.mapError]

variable {u : Unit} {expectedVersion : Nat} {fill : Option Fill}

theorem insertTrade_eq_ok (h : (insertTrade record).outcome ledger = .ok (u, ledger')) :
    { ledger with records := ledger.records ++ [tradeRow record] }
      = ledger' := by
  unfold insertTrade at h
  rw [Tx.outcome_select, Tx.outcome_bind_eq_ok] at h
  obtain ⟨_, _, hfirst, h⟩ := h
  obtain ⟨_, rfl⟩ := Tx.outcome_require_eq_ok.mp hfirst
  rw [Tx.outcome_bind_eq_ok] at h
  obtain ⟨_, _, hsecond, h⟩ := h
  obtain ⟨_, rfl⟩ := Tx.outcome_require_eq_ok.mp hsecond
  cases h
  rfl

theorem insertTradeEvent_eq_ok
    (h : (insertTradeEvent record key).outcome ledger = .ok (u, ledger')) :
    { ledger with events := ledger.events ++ [eventRow record key] }
      = ledger' := by
  unfold insertTradeEvent at h
  rw [Tx.outcome_select, Tx.outcome_bind_eq_ok] at h
  obtain ⟨_, _, hfirst, h⟩ := h
  obtain ⟨_, rfl⟩ := Tx.outcome_require_eq_ok.mp hfirst
  rw [Tx.outcome_bind_eq_ok] at h
  obtain ⟨_, _, hsecond, h⟩ := h
  obtain ⟨_, rfl⟩ := Tx.outcome_require_eq_ok.mp hsecond
  cases h
  rfl

theorem insertCommand_eq_ok
    (h : (insertCommand key commandHash record fill).outcome ledger = .ok (u, ledger')) :
    { ledger with
      commands := ledger.commands ++ [commandRow key commandHash record fill] }
      = ledger' := by
  unfold insertCommand at h
  rw [Tx.outcome_select, Tx.outcome_bind_eq_ok] at h
  obtain ⟨_, _, hfirst, h⟩ := h
  obtain ⟨_, rfl⟩ := Tx.outcome_require_eq_ok.mp hfirst
  cases h
  rfl

theorem insertFill_eq_ok {fill : Fill}
    (h : (insertFill fill key).outcome ledger = .ok (u, ledger')) :
    (∀ row ∈ ledger.fills, row.fill.fillId ≠ fill.fillId) ∧
      { ledger with fills := ledger.fills ++ [⟨fill, key⟩] } = ledger' := by
  unfold insertFill at h
  rw [Tx.outcome_select, Tx.outcome_bind_eq_ok] at h
  obtain ⟨_, _, hfirst, h⟩ := h
  obtain ⟨hfresh, rfl⟩ := Tx.outcome_require_eq_ok.mp hfirst
  simp only [Tx.outcome_bind_eq_ok, Tx.outcome_require_eq_ok] at h
  obtain ⟨_, _, ⟨_, rfl⟩, _, _, ⟨_, rfl⟩, _, _, ⟨_, rfl⟩, _, _, ⟨_, rfl⟩, h⟩ := h
  cases h
  exact ⟨hfresh, rfl⟩

theorem updateTrade_eq_ok
    (h : (updateTrade record expectedVersion).outcome ledger = .ok (u, ledger')) :
    { ledger with
      records := setRows (updates record expectedVersion)
        (updatedRow record) ledger.records } = ledger' := by
  unfold updateTrade at h
  obtain ⟨_, rfl⟩ := Tx.outcome_require_eq_ok.mp h
  rfl

theorem advance_eq_ok {value result : α}
    {eventKey : String}
    (h : (do
      updateTrade record expectedVersion
      insertTradeEvent record eventKey
      insertCommand key commandHash record fill
      pure value : LedgerTx α).outcome ledger = .ok (result, ledger')) :
    result = value ∧ ledger' = { ledger with
      records := setRows (updates record expectedVersion) (updatedRow record)
        ledger.records
      events := ledger.events ++ [eventRow record eventKey]
      commands := ledger.commands ++ [commandRow key commandHash record fill] } := by
  rw [Tx.outcome_bind_eq_ok] at h
  obtain ⟨_, _, hupdate, h⟩ := h
  obtain rfl := updateTrade_eq_ok hupdate
  rw [Tx.outcome_bind_eq_ok] at h
  obtain ⟨_, _, hevent, h⟩ := h
  obtain rfl := insertTradeEvent_eq_ok hevent
  rw [Tx.outcome_bind_eq_ok] at h
  obtain ⟨_, _, hinsert, h⟩ := h
  obtain rfl := insertCommand_eq_ok hinsert
  obtain ⟨rfl, rfl⟩ := Tx.outcome_pure_eq_ok.mp h
  exact ⟨rfl, rfl⟩

end Writes

-- ==== the commands

variable {key commandHash : String}

/-- A creation under a validator that only reads. -/
theorem createRecord_eq_ok {validator : LedgerTx Unit} {record result : ManualTradeRecord}
    (hreads : ∀ u ledger', validator.outcome ledger = .ok (u, ledger') → ledger = ledger')
    (h : (createRecord validator record key commandHash).outcome ledger = .ok (result, ledger')) :
    ledger.command key ≠ none ∧ ledger' = ledger ∨
    (∃ u, validator.outcome ledger = .ok (u, ledger)) ∧
      (Created ledger record key commandHash ledger' ∨
        Confirmed ledger record key commandHash ledger') := by
  unfold createRecord at h
  rw [Tx.outcome_bind_eq_ok] at h
  obtain ⟨_, _, hnew, h⟩ := h
  obtain ⟨⟨hstate, hversion⟩, rfl⟩ := Tx.outcome_require_eq_ok.mp hnew
  rw [Tx.outcome_select] at h
  cases hcommand : ledger.command key with
  | some command =>
    simp only [hcommand, Tx.outcome_bind_eq_ok, checked_eq_ok] at h
    obtain ⟨_, _, ⟨_, rfl⟩, _, _, hget, _, rfl⟩ := h
    cases hget
    exact Or.inl ⟨nofun, rfl⟩
  | none =>
    simp only [hcommand] at h
    rw [Tx.outcome_bind_eq_ok] at h
    obtain ⟨u, _, hvalidator, h⟩ := h
    obtain rfl := hreads u _ hvalidator
    rw [Tx.outcome_bind_eq_ok] at h
    obtain ⟨_, _, hstore, h⟩ := h
    rw [Tx.outcome_bind_eq_ok] at h
    obtain ⟨_, _, hinsert, h⟩ := h
    obtain ⟨_, rfl⟩ := Tx.outcome_pure_eq_ok.mp h
    obtain rfl := insertCommand_eq_ok hinsert
    refine Or.inr ⟨⟨u, hvalidator⟩, ?_⟩
    unfold storeRecord at hstore
    rw [Tx.outcome_select] at hstore
    cases hrow : ledger.record record.manualTradeId with
    | some row =>
      simp only [hrow, Tx.outcome_bind_eq_ok, checked_eq_ok,
        Tx.outcome_require_eq_ok] at hstore
      obtain ⟨_, _, ⟨hconstruct, rfl⟩, rfl, rfl⟩ := hstore
      exact Or.inr
        ⟨hcommand, hstate, hversion, ⟨row, hrow, hconstruct⟩, rfl⟩
    | none =>
      simp only [hrow] at hstore
      rw [Tx.outcome_bind_eq_ok] at hstore
      obtain ⟨_, _, htrade, hevent⟩ := hstore
      obtain rfl := insertTrade_eq_ok htrade
      obtain rfl := insertTradeEvent_eq_ok hevent
      exact Or.inl ⟨hcommand, hstate, hversion, hrow, rfl⟩

theorem validateCommand_eq_ok {row : CommandRow} {commandHash tradeId : String}
    {u : Unit} : validateCommand row commandHash tradeId = .ok u ↔
      row.commandHash = commandHash ∧ row.manualTradeId = tradeId := by
  exact require_ok

theorem appendFill_eq_ok {fill : Fill} {result : ManualTradeRecord × Fill}
    (h : (appendFill fill key commandHash).outcome ledger = .ok (result, ledger')) :
    (∃ command,
      Replayed ledger key commandHash fill.manualTradeId result.1 command ∧
        ledger.loadFill command.fillId = .ok result.2 ∧ ledger' = ledger) ∨
    ∃ current, Filled ledger current result.1 fill key commandHash ledger' ∧
      result.2 = fill := by
  unfold appendFill at h
  rw [Tx.outcome_select] at h
  cases hcommand : ledger.command key with
  | some command =>
    simp only [hcommand, Tx.outcome_bind_eq_ok, checked_eq_ok,
      Tx.outcome_pure_eq_ok] at h
    obtain ⟨_, _, ⟨hvalid, rfl⟩, _, _, hget, _, _, ⟨hfill, rfl⟩, _, _,
      ⟨hload, rfl⟩, rfl, rfl⟩ := h
    cases hget
    obtain ⟨hhash, htrade⟩ := validateCommand_eq_ok.mp hvalid
    exact Or.inl ⟨command, ⟨hcommand, hhash, htrade, hload⟩, hfill, rfl⟩
  | none =>
    simp only [hcommand] at h
    unfold appendNewFill at h
    rw [Tx.outcome_get, Tx.outcome_bind_eq_ok] at h
    obtain ⟨current, _, hread, h⟩ := h
    obtain ⟨hload, rfl⟩ := checked_eq_ok.mp hread
    rw [Tx.outcome_bind_eq_ok] at h
    obtain ⟨_, _, hcheck, h⟩ := h
    obtain ⟨hvalid, rfl⟩ := checked_eq_ok.mp hcheck
    rw [Tx.outcome_bind_eq_ok] at h
    obtain ⟨_, _, hfill, h⟩ := h
    obtain ⟨hfresh, rfl⟩ := insertFill_eq_ok hfill
    rw [Tx.outcome_bind_eq_ok] at h
    obtain ⟨updated, _, hupdated, h⟩ := h
    obtain ⟨hconstruct, rfl⟩ := checked_eq_ok.mp hupdated
    rw [Tx.outcome_bind_eq_ok] at h
    obtain ⟨_, _, hcheck, h⟩ := h
    obtain ⟨htransition, rfl⟩ := checked_eq_ok.mp hcheck
    obtain ⟨rfl, rfl⟩ := advance_eq_ok h
    obtain ⟨hpost, rfl⟩ := construct_eq_ok.mp hconstruct
    exact Or.inr ⟨current, ⟨⟨hcommand, hload, rfl⟩, hvalid, hfresh, rfl,
      hpost, htransition⟩, rfl⟩

theorem transitionTrade_eq_ok {request : TransitionRequest} {result : ManualTradeRecord}
    (h : (transitionTrade request).outcome ledger = .ok (result, ledger')) :
    (∃ command, Replayed ledger request.idempotencyKey request.commandHash
        request.record.manualTradeId result command ∧ ledger' = ledger) ∨
    ∃ current, Transitioned ledger current request ledger' ∧
      result = request.record := by
  unfold transitionTrade at h
  rw [Tx.outcome_select] at h
  cases hcommand : ledger.command request.idempotencyKey with
  | some command =>
    simp only [hcommand, Tx.outcome_bind_eq_ok, checked_eq_ok] at h
    obtain ⟨_, _, ⟨hvalid, rfl⟩, _, _, hget, hload, rfl⟩ := h
    cases hget
    obtain ⟨hhash, htrade⟩ := validateCommand_eq_ok.mp hvalid
    exact Or.inl ⟨command, ⟨hcommand, hhash, htrade, hload⟩, rfl⟩
  | none =>
    simp only [hcommand] at h
    rw [Tx.outcome_get, Tx.outcome_bind_eq_ok] at h
    obtain ⟨current, _, hread, h⟩ := h
    obtain ⟨hload, rfl⟩ := checked_eq_ok.mp hread
    rw [Tx.outcome_bind_eq_ok] at h
    obtain ⟨_, _, hcheck, h⟩ := h
    obtain ⟨hexpected, rfl⟩ := Tx.outcome_require_eq_ok.mp hcheck
    rw [Tx.outcome_bind_eq_ok] at h
    obtain ⟨_, _, hcheck, h⟩ := h
    obtain ⟨htransition, rfl⟩ := checked_eq_ok.mp hcheck
    obtain ⟨rfl, rfl⟩ := advance_eq_ok h
    refine Or.inr
      ⟨current, ⟨⟨hcommand, hload, ?_⟩, hexpected, htransition⟩, rfl⟩
    simp [hexpected]

-- ==== the system

/-- The command asks for the creation of a record. -/
inductive Creates (record : ManualTradeRecord) (key commandHash : String) :
    Command → Prop
  | increasing {authority : Except Raised Unit} :
      Creates record key commandHash
        (.createTrade authority record key commandHash)
  | strategy {evidence : StrategyEvidence} :
      Creates record key commandHash
        (.createStrategyTrade evidence record key commandHash)

/-- The command asks for the creation of a record, and has the authority for
it. -/
inductive Issued (observations : Observations) (ledger : Ledger)
    (record : ManualTradeRecord) (key commandHash : String) : Command → Prop
  | increasing {authority : Except Raised Unit} :
      record.authority.route = .increasing →
      Issued observations ledger record key commandHash
        (.createTrade authority record key commandHash)
  | strategy {evidence : StrategyEvidence} :
      record.authority.route = .strategy →
      validateStrategyAuthority observations evidence ledger record
        = .ok () →
      Issued observations ledger record key commandHash
        (.createStrategyTrade evidence record key commandHash)

/-- What an accepted command makes of the system. -/
inductive Change (observations : Observations) (system : System) :
    Command → System → Prop
  | replayedCreation {command : Command} {record : ManualTradeRecord}
      {key commandHash : String}
      (hcreates : Creates record key commandHash command)
      (hkey : system.ledger.command key ≠ none) :
      Change observations system command system
  | created {command : Command} {record : ManualTradeRecord}
      {key commandHash : String} {ledger' : Ledger}
      (hissued : Issued observations system.ledger record key commandHash
        command)
      (hpost : record.postInit = .ok ())
      (h : Created system.ledger record key commandHash ledger') :
      Change observations system command ⟨ledger', system.requests⟩
  | confirmed {command : Command} {record : ManualTradeRecord}
      {key commandHash : String} {ledger' : Ledger}
      (hissued : Issued observations system.ledger record key commandHash
        command)
      (h : Confirmed system.ledger record key commandHash ledger') :
      Change observations system command ⟨ledger', system.requests⟩
  | replayedFill {fill : Fill} {key commandHash : String}
      (hkey : system.ledger.command key ≠ none) :
      Change observations system (.appendFill fill key commandHash) system
  | filled {fill : Fill} {key commandHash : String}
      {current updated : ManualTradeRecord} {ledger' : Ledger}
      (h : Filled system.ledger current updated fill key commandHash
        ledger') :
      Change observations system (.appendFill fill key commandHash)
        ⟨ledger', system.requests⟩
  | requested {tradeId : String} {expectedVersion : Nat}
      {state : ManualOrderState} {actor reason : String}
      {changedAt : Instant} {key commandHash : String}
      {request : TransitionRequest}
      (h : markOrderState system.ledger tradeId expectedVersion state actor
        reason changedAt key commandHash = .ok request) :
      Change observations system
        (.markOrderState tradeId expectedVersion state actor reason changedAt
          key commandHash)
        ⟨system.ledger, system.requests ++ [request]⟩
  | replayedTransition {request : TransitionRequest}
      (hkey : system.ledger.command request.idempotencyKey ≠ none) :
      Change observations system (.transitionTrade request) system
  | transitioned {request : TransitionRequest} {current : ManualTradeRecord}
      {ledger' : Ledger} (hmem : request ∈ system.requests)
      (h : Transitioned system.ledger current request ledger') :
      Change observations system (.transitionTrade request)
        ⟨ledger', system.requests⟩

-- ==== acceptance

variable {observations : Observations} {system system' : System} {command : Command}

theorem commit_eq_ok {α : Type} {transaction : LedgerTx α} :
    system.commit transaction = .ok system' ↔
      ∃ a, transaction.outcome system.ledger = .ok (a, system'.ledger) ∧
        system'.requests = system.requests := by
  unfold System.commit
  cases houtcome : transaction.outcome system.ledger with
  | error e =>
    constructor
    · intro h
      exact absurd h nofun
    · rintro ⟨_, h, _⟩
      exact absurd h nofun
  | ok result =>
    obtain ⟨a, ledger'⟩ := result
    constructor
    · intro h
      cases h
      exact ⟨a, rfl, rfl⟩
    · rintro ⟨a', h, hrequests⟩
      cases system' with
      | mk ledger requests =>
        cases h
        cases hrequests
        rfl

theorem mapError_eq_ok {α ε ε' : Type} {f : ε → ε'} {x : Except ε α} {a : α} :
    x.mapError f = .ok a ↔ x = .ok a := by
  cases x <;> simp [Except.mapError]

theorem change_of_createRecord
    {record : ManualTradeRecord}
    (hcreates : Creates record key commandHash command)
    (hpost : record.postInit = .ok ())
    (hrequests : system'.requests = system.requests)
    (h : system.ledger.command key ≠ none ∧ system'.ledger = system.ledger ∨
      Issued observations system.ledger record key commandHash command ∧
        (Created system.ledger record key commandHash system'.ledger ∨
          Confirmed system.ledger record key commandHash system'.ledger)) :
    Change observations system command system' := by
  cases system' with
  | mk ledger requests =>
    obtain rfl : requests = system.requests := hrequests
    cases h with
    | inl hreplay =>
      obtain ⟨hkey, hledger⟩ := hreplay
      obtain rfl : ledger = system.ledger := hledger
      exact .replayedCreation hcreates hkey
    | inr hnew =>
      obtain ⟨hissued, hstored⟩ := hnew
      cases hstored with
      | inl hcreated => exact .created hissued hpost hcreated
      | inr hconfirmed => exact .confirmed hissued hconfirmed

/-- An accepted command is one of the changes. -/
theorem execute_eq_ok (h : execute observations system command = .ok system') :
    Change observations system command system' := by
  cases command with
  | createTrade authority record key commandHash =>
    obtain ⟨record', hconstruct, hcommit⟩ := bind_ok.mp h
    obtain ⟨hpost, rfl⟩ := construct_eq_ok.mp (mapError_eq_ok.mp hconstruct)
    obtain ⟨_, houtcome, hrequests⟩ := commit_eq_ok.mp hcommit
    unfold createTrade at houtcome
    rw [Tx.outcome_bind_eq_ok] at houtcome
    obtain ⟨_, _, hauthority, houtcome⟩ := houtcome
    obtain ⟨_, rfl⟩ := checked_eq_ok.mp hauthority
    rw [Tx.outcome_bind_eq_ok] at houtcome
    obtain ⟨_, _, hrequire, houtcome⟩ := houtcome
    obtain ⟨hroute, rfl⟩ := Tx.outcome_require_eq_ok.mp hrequire
    have hcreate := createRecord_eq_ok
      (fun _ _ hpure => (Tx.outcome_pure_eq_ok.mp hpure).2) houtcome
    exact change_of_createRecord .increasing hpost hrequests
      (hcreate.imp_right fun hnew => ⟨.increasing hroute, hnew.2⟩)
  | createStrategyTrade evidence record key commandHash =>
    obtain ⟨record', hconstruct, hcommit⟩ := bind_ok.mp h
    obtain ⟨hpost, rfl⟩ := construct_eq_ok.mp (mapError_eq_ok.mp hconstruct)
    obtain ⟨_, houtcome, hrequests⟩ := commit_eq_ok.mp hcommit
    unfold createStrategyTrade at houtcome
    rw [Tx.outcome_bind_eq_ok] at houtcome
    obtain ⟨_, _, hrequire, houtcome⟩ := houtcome
    obtain ⟨hroute, rfl⟩ := Tx.outcome_require_eq_ok.mp hrequire
    have hreads : ∀ u ledger', (do
          let ledger ← Tx.get
          checked (validateStrategyAuthority observations evidence ledger
            record) : LedgerTx Unit).outcome system.ledger
              = .ok (u, ledger') →
        validateStrategyAuthority observations evidence system.ledger record
          = .ok u ∧ system.ledger = ledger' := by
      intro u ledger' hread
      rw [Tx.outcome_get] at hread
      exact checked_eq_ok.mp hread
    have hcreate := createRecord_eq_ok
      (fun u ledger' hread => (hreads u ledger' hread).2) houtcome
    refine change_of_createRecord .strategy hpost hrequests
      (hcreate.imp_right ?_)
    rintro ⟨⟨u, hread⟩, hnew⟩
    exact ⟨.strategy hroute (hreads u _ hread).1, hnew⟩
  | appendFill fill key commandHash =>
    obtain ⟨_, houtcome, hrequests⟩ := commit_eq_ok.mp h
    cases system' with
    | mk ledger requests =>
      obtain rfl : requests = system.requests := hrequests
      cases appendFill_eq_ok houtcome with
      | inl hreplay =>
        obtain ⟨command, hreplayed, _, hledger⟩ := hreplay
        obtain rfl : ledger = system.ledger := hledger
        exact .replayedFill (hreplayed.found ▸ nofun)
      | inr hfilled =>
        obtain ⟨current, hfilled, _⟩ := hfilled
        exact .filled hfilled
  | markOrderState tradeId expectedVersion state actor reason changedAt key
      commandHash =>
      obtain ⟨request, hmark, hresult⟩ := bind_ok.mp h
      obtain rfl := pure_ok.mp hresult
      exact .requested (mapError_eq_ok.mp hmark)
  | transitionTrade request =>
    obtain ⟨_, hsent, hcommit⟩ := bind_ok.mp h
    have hsent := require_ok.mp hsent
    obtain ⟨_, houtcome, hrequests⟩ := commit_eq_ok.mp hcommit
    cases system' with
    | mk ledger requests =>
      obtain rfl : requests = system.requests := hrequests
      cases transitionTrade_eq_ok houtcome with
      | inl hreplay =>
        obtain ⟨command, hreplayed, hledger⟩ := hreplay
        obtain rfl : ledger = system.ledger := hledger
        exact .replayedTransition (hreplayed.found ▸ nofun)
      | inr htransitioned =>
        obtain ⟨current, htransitioned, _⟩ := htransitioned
        exact .transitioned hsent htransitioned

theorem Change.prefixes (h : Change observations system command system') :
    system.ledger.commands <+: system'.ledger.commands ∧
      system.ledger.fills <+: system'.ledger.fills := by
  cases h with
  | replayedCreation _ _ => exact ⟨prefix_rfl, prefix_rfl⟩
  | created _ _ hcreated =>
    rw [hcreated.result]
    exact ⟨prefix_append _ _, prefix_rfl⟩
  | confirmed _ hconfirmed =>
    rw [hconfirmed.result]
    exact ⟨prefix_append _ _, prefix_rfl⟩
  | replayedFill _ => exact ⟨prefix_rfl, prefix_rfl⟩
  | filled hfilled =>
    rw [hfilled.advance.result]
    exact ⟨prefix_append _ _, prefix_append _ _⟩
  | requested _ => exact ⟨prefix_rfl, prefix_rfl⟩
  | replayedTransition _ => exact ⟨prefix_rfl, prefix_rfl⟩
  | transitioned _ htransitioned =>
    rw [htransitioned.advance.result]
    exact ⟨prefix_append _ _, prefix_append _ _⟩

end MarketRegimeAlpha.Execution
