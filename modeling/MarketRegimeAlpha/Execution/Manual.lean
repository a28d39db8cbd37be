/-
Manual trades: the records of the execution ledger, their constructor and
their transitions.

# What stands for what

Times, sides and Fills are those of the Position authority; a Fill of the
ledger has in addition what only the ledger reads. Prices and amounts are
exact. The references of a record are the identifiers they hold; content
hashes are left out.

`authority` is the schema of a record, its route and the fields that go with
them in one value, so that a record with the fields of another route cannot
be built. `StrategyExecutionAuthorization` is constructed by other code, so
the checks of its constructor are its proof fields; `ManualTradeRecord` is
constructed here, and `postInit` raises.
-/
import MarketRegimeAlpha.Lib.Checked
import MarketRegimeAlpha.Position.Records

namespace MarketRegimeAlpha.Execution

open Lib
open Position (Instant TradeSide)

-- ==== the texts

/-- What `str.strip` removes. -/
def isSpace (c : Char) : Bool :=
  (0x09 ≤ c.toNat && c.toNat ≤ 0x0D) || (0x1C ≤ c.toNat && c.toNat ≤ 0x20)
    || c.toNat = 0x85 || c.toNat = 0xA0 || c.toNat = 0x1680
    || (0x2000 ≤ c.toNat && c.toNat ≤ 0x200A) || c.toNat = 0x2028
    || c.toNat = 0x2029 || c.toNat = 0x202F || c.toNat = 0x205F
    || c.toNat = 0x3000

def text (label value : String) : Except Raised Unit :=
  Lib.require (value ≠ "" ∧ (value.toList.head?.any isSpace) = false
      ∧ (value.toList.getLast?.any isSpace) = false)
    (.valueError s!"{label} must be a non-empty trimmed string")

-- ==== the routes

inductive ManualTradeAuthorityRoute where
  | increasing
  | reducing
  | strategy
  deriving DecidableEq

inductive ManualOrderState where
  | recorded
  | partiallyFilled
  | filled
  | cancelled
  | rejected
  | unknown
  | reconciliationRequired
  deriving DecidableEq

inductive StrategyAction where
  | enter
  | add
  | reduce
  | exit
  deriving DecidableEq

def StrategyAction.side : StrategyAction → TradeSide
  | .enter => .buy
  | .add => .buy
  | .reduce => .sell
  | .exit => .sell

/-- The quantity a Strategy proposal may trade, and on which observations. -/
structure StrategyExecutionAuthorization where
  (authorizationId proposalId accountObservationId accountId symbol : String)
  action : StrategyAction
  (accountNav availableCash referencePrice : ℚ)
  (currentQuantity availableQuantity recommendedQuantity intendedQuantity : Nat)
  replacementAuthority : Bool
  (decisionTime createdAt : Instant)
  nav_positive : 0 < accountNav
  cash_nonneg : 0 ≤ availableCash
  price_positive : 0 < referencePrice
  available_le : availableQuantity ≤ currentQuantity
  recommended_positive : 0 < recommendedQuantity
  intended_positive : 0 < intendedQuantity
  intended_le : intendedQuantity ≤ recommendedQuantity
  created_after : decisionTime ≤ createdAt

namespace StrategyExecutionAuthorization

def fields (a : StrategyExecutionAuthorization) :=
  ([a.authorizationId, a.proposalId, a.accountObservationId, a.accountId, a.symbol], a.action,
    [a.accountNav, a.availableCash, a.referencePrice],
    [a.currentQuantity, a.availableQuantity, a.recommendedQuantity, a.intendedQuantity],
    a.replacementAuthority, a.decisionTime, a.createdAt)

theorem fields_injective : Function.Injective fields := by
  rintro ⟨⟩ ⟨⟩ h
  simpa [fields, and_assoc] using h

set_option synthInstance.maxSize 2000 in
instance : DecidableEq StrategyExecutionAuthorization := fields_injective.decidableEq

end StrategyExecutionAuthorization

/-- `common_trace`. -/
structure BookTrace where
  (positionBookId thesisId opportunityId : String)
  deriving DecidableEq

/-- `increasing_authority`, without the snapshot that V1 has not. -/
structure IncreasingAuthority where
  (riskDecisionId portfolioDecisionId : String)
  deriving DecidableEq

structure ReducingAuthority where
  (riskReducingDecisionId riskReductionConfirmationId sourcePositionSnapshotId : String)
  (sourcePositionSnapshotVersion targetQuantity orderQuantity : Nat)
  deriving DecidableEq

/-- The schema and route of a record, with what they carry: V1, V2, the two
routes of V3, and V4. -/
inductive TradeAuthority where
  | manual (authority : IncreasingAuthority)
  | traceable (trace : BookTrace) (authority : IncreasingAuthority) (postTradeSnapshotId : String)
  | increasing (trace : BookTrace) (authority : IncreasingAuthority) (postTradeSnapshotId : String)
  | reducing (trace : BookTrace) (authority : ReducingAuthority)
  | strategy (authorization : StrategyExecutionAuthorization)
  deriving DecidableEq

def TradeAuthority.route : TradeAuthority → ManualTradeAuthorityRoute
  | .manual _ => .increasing
  | .traceable _ _ _ => .increasing
  | .increasing _ _ _ => .increasing
  | .reducing _ _ => .reducing
  | .strategy _ => .strategy

/-- `strategy_execution_authorization`. -/
def TradeAuthority.authorization : TradeAuthority → Option StrategyExecutionAuthorization
  | .strategy authorization => some authorization
  | _ => none

-- ==== the records

structure ManualTradeRecord where
  (manualTradeId accountId symbol : String)
  side : TradeSide
  intendedQuantity : Nat
  (expectedPriceLower expectedPriceUpper : ℚ)
  state : ManualOrderState
  (filledQuantity version : Nat)
  (actor reason : String)
  (createdAt updatedAt : Instant)
  (lastActor lastReason : String)
  authority : TradeAuthority
  deriving DecidableEq

namespace ManualTradeRecord

variable (record : ManualTradeRecord)

/-- The route checks of `__post_init__`: `_validate_v3_route` and
`_validate_strategy_route`. -/
def validateRoute : Except Raised Unit :=
  match record.authority with
  | .manual _ => .ok ()
  | .traceable _ _ _ => .ok ()
  | .increasing _ _ _ =>
    Lib.require (record.side = .buy) (.valueError "INCREASING route requires BUY")
  | .reducing _ authority =>
    Lib.require (0 < authority.orderQuantity ∧ record.side = .sell
        ∧ record.intendedQuantity = authority.orderQuantity)
      (.valueError "reducing ManualTradeRecord has invalid SELL order semantics")
  | .strategy authorization =>
    Lib.require (authorization.accountId = record.accountId ∧ authorization.symbol = record.symbol
        ∧ authorization.intendedQuantity = record.intendedQuantity
        ∧ record.side = authorization.action.side)
      (.valueError "STRATEGY ManualTradeRecord authorization mismatch")

def postInit : Except Raised Unit := do
  text "account_id" record.accountId
  text "symbol" record.symbol
  text "actor" record.actor
  text "reason" record.reason
  text "last_actor" record.lastActor
  text "last_reason" record.lastReason
  Lib.require (0 < record.intendedQuantity) (.valueError "manual trade quantities are invalid")
  Lib.require (0 < record.expectedPriceLower
      ∧ record.expectedPriceLower ≤ record.expectedPriceUpper)
    (.valueError "manual expected price range is invalid")
  Lib.require (record.state = .recorded → record.version = 0 ∧ record.filledQuantity = 0)
    (.valueError "RECORDED ManualTradeRecord must be initial version 0")
  Lib.require (record.state = .partiallyFilled → 0 < record.filledQuantity
        ∧ record.filledQuantity < record.intendedQuantity)
    (.valueError "PARTIALLY_FILLED quantity mismatch")
  Lib.require (record.state = .filled → record.filledQuantity = record.intendedQuantity)
    (.valueError "FILLED quantity mismatch")
  Lib.require (record.state = .reconciliationRequired →
      record.intendedQuantity < record.filledQuantity)
    (.valueError "reconciliation state requires excess effective fill")
  Lib.require (record.createdAt ≤ record.updatedAt)
    (.valueError "manual trade update cannot precede creation")
  record.validateRoute

/-- A call of the constructor: also what `replace` and `from_canonical_dict`
come to. -/
def construct : Except Raised ManualTradeRecord := do
  record.postInit
  return record

end ManualTradeRecord

structure Fill extends Position.Fill where
  (externalFillId actor reason : String)
  deriving DecidableEq

-- ==== the transitions

/-- CANCELLED or REJECTED. -/
def ManualOrderState.terminal (state : ManualOrderState) : Bool :=
  state = .cancelled || state = .rejected

def transitionManualTrade (record : ManualTradeRecord)
    (state : ManualOrderState) (filledQuantity : Nat) (actor reason : String)
    (changedAt : Instant) : Except Raised ManualTradeRecord := do
  Lib.require (record.state.terminal = false)
    (.valueError "terminal ManualTradeRecord cannot transition")
  ManualTradeRecord.construct { record with
      state, filledQuantity
      version := record.version + 1
      updatedAt := changedAt
      lastActor := actor
      lastReason := reason }

variable (before after : ManualTradeRecord)

def expectedTransition (allowTerminalFillUpdate : Bool) : Except Raised ManualTradeRecord :=
  if allowTerminalFillUpdate ∧ before.state.terminal = true ∧ after.state = before.state then
    ManualTradeRecord.construct { before with
        filledQuantity := after.filledQuantity
        version := before.version + 1
        updatedAt := after.updatedAt
        lastActor := after.lastActor
        lastReason := after.lastReason }
  else
    transitionManualTrade before after.state after.filledQuantity
      after.lastActor after.lastReason after.updatedAt

def validateManualTradeTransition (allowTerminalFillUpdate : Bool) : Except Raised Unit := do
  let expected ← expectedTransition before after allowTerminalFillUpdate
  Lib.require (expected = after) (.valueError "invalid ManualTradeRecord transition")

end MarketRegimeAlpha.Execution
