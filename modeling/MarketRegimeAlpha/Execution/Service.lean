/-
The application service of manual execution: `record_fill` and
`mark_order_state`, as callers see them.

# Two transactions

A call reads the trade in one transaction and sends what it has built to the
repository in another; between the two any other command may run. So a call is
served on two ledgers, the one it read and the one it writes (`serve`). What it
sends carries the hash of its arguments, under the idempotency key.

# The hash

`canonical_hash` is a parameter: of a dictionary only its content counts. The
services that create trades hash dictionaries with keys of their own; what is in
them is the parameter `κ`. A digest has a prefix that ends at a colon.
-/
import MarketRegimeAlpha.Execution.Ledger

namespace MarketRegimeAlpha.Execution

open Lib
open Position (Instant TradeSide FillKind)

-- ==== the calls

/-- The arguments of `record_fill`, without the key. -/
structure FillCall where
  (tradeId externalFillId : String)
  quantity : Int
  (price fees : ℚ)
  (occurredAt recordedAt : Instant)
  (actor reason : String)
  correctionOfFillId : Option String

/-- The arguments of `mark_order_state`, without the key. -/
structure StatusCall where
  tradeId : String
  expectedVersion : Nat
  state : ManualOrderState
  (actor reason : String)
  changedAt : Instant

/-- What a command hash is the hash of: of the creation of a trade, `semantic` of
`record_fill`, and `command` of `mark_order_state`. -/
inductive Semantic (κ : Type) where
  | creation (payload : κ)
  | fill (call : FillCall)
  | status (call : StatusCall)

inductive Call where
  | recordFill (call : FillCall)
  | markOrderState (call : StatusCall)

def Call.semantic {κ : Type} : Call → Semantic κ
  | .recordFill call => .fill call
  | .markOrderState call => .status call

def Call.tradeId : Call → String
  | .recordFill call => call.tradeId
  | .markOrderState call => call.tradeId

-- ==== the requests

/-- `f"fill-{digest[:24]}"`. -/
def fillIdOf (commandHash : String) : String :=
  "fill-" ++ String.ofList
    (((commandHash.toList.dropWhile (· ≠ ':')).drop 1).take 24)

def FillCall.fillKind (call : FillCall) : FillKind :=
  match call.correctionOfFillId with
  | none => .execution
  | some fillId => .correction fillId

/-- `Fill.__post_init__`, on the Fill that `record_fill` builds. -/
def FillCall.fill (call : FillCall) (trade : ManualTradeRecord) (fillId : String) :
    Except Raised Fill := do
  text "account_id" trade.accountId
  text "symbol" trade.symbol
  text "actor" call.actor
  text "reason" call.reason
  text "external_fill_id" call.externalFillId
  if hamount : 0 < call.quantity ∧ 0 < call.price then
    if hfees : 0 ≤ call.fees then
      if hrecorded : call.occurredAt ≤ call.recordedAt then
        if hself : call.fillKind ≠ .correction fillId then
          return {
            fillId
            manualTradeId := call.tradeId
            accountId := trade.accountId
            symbol := trade.symbol
            side := trade.side
            quantity := call.quantity.toNat
            price := call.price
            fees := call.fees
            occurredAt := call.occurredAt
            recordedAt := call.recordedAt
            fillKind := call.fillKind
            quantity_positive := by omega
            price_positive := hamount.2
            fees_nonneg := hfees
            recorded_after := hrecorded
            not_self := hself
            externalFillId := call.externalFillId
            actor := call.actor
            reason := call.reason }
        else .error (.valueError "Fill cannot correct itself")
      else .error (.valueError "Fill cannot be recorded before occurrence")
    else .error (.valueError "Fill fees must be non-negative and finite")
  else .error (.valueError "Fill quantity and price must be positive")

section Service

variable {κ : Type} (canonicalHash : Semantic κ → String)

def recordFill (ledger : Ledger) (call : FillCall) : Except Raised Fill := do
  let trade ← ledger.loadTrade call.tradeId none
  call.fill trade (fillIdOf (canonicalHash (.fill call)))

/-- What a call returns: a version of the trade, and the Fill. -/
structure Answer where
  record : ManualTradeRecord
  fill : Option Fill
  deriving DecidableEq

/-- A call that reads one ledger and writes another. -/
def serve (key : String) (call : Call) (read ledger : Ledger) :
    Except ExecutionError (Answer × Ledger) :=
  match call with
  | .recordFill call => do
      let fill ← (recordFill canonicalHash read call).mapError .raised
      let ((record, stored), ledger) ←
        (appendFill fill key (canonicalHash (.fill call))).outcome ledger
      return (⟨record, some stored⟩, ledger)
  | .markOrderState call => do
      let request ← (markOrderState read call.tradeId call.expectedVersion
        call.state call.actor call.reason call.changedAt key
        (canonicalHash (.status call))).mapError .raised
      let (record, ledger) ← (transitionTrade request).outcome ledger
      return (⟨record, none⟩, ledger)

/-- A command as the services send it: with the hash of what it is about, one of
the dictionaries that are ever hashed. -/
inductive Served (payloads : Set (Semantic κ)) : Command → Prop
  | createTrade {authority : Except Raised Unit} {record : ManualTradeRecord}
      {key : String} {payload : κ} (hpayload : .creation payload ∈ payloads) :
      Served payloads (.createTrade authority record key
        (canonicalHash (.creation payload)))
  | createStrategyTrade {evidence : StrategyEvidence} {record : ManualTradeRecord}
      {key : String} {payload : κ} (hpayload : .creation payload ∈ payloads) :
      Served payloads (.createStrategyTrade evidence record key
        (canonicalHash (.creation payload)))
  | recordFill {read : Ledger} {call : FillCall} {fill : Fill} {key : String}
      (hpayload : .fill call ∈ payloads)
      (hfill : recordFill canonicalHash read call = .ok fill) :
      Served payloads (.appendFill fill key (canonicalHash (.fill call)))
  | markOrderState {call : StatusCall} {key : String}
      (hpayload : .status call ∈ payloads) :
      Served payloads (.markOrderState call.tradeId call.expectedVersion call.state
        call.actor call.reason call.changedAt key (canonicalHash (.status call)))
  | transitionTrade {request : TransitionRequest} :
      Served payloads (.transitionTrade request)

end Service

end MarketRegimeAlpha.Execution
