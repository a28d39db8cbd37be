/-
The sizing of a Strategy order: the authorization that a Manual trade of a Strategy
embeds, how it is made, checked, written and read back.

# What stands for what

Amounts are exact. A timestamp is an instant; `canonical_datetime` writes it to the
whole second, so what is written is a number of seconds. A canonical dictionary is a
structure with the keys as its fields; a field that holds `none` is a key that is
absent or null. References and identifiers have been checked by the constructors of
their own types, which read them back as they were.

`canonical_hash` is a parameter, on the two dictionaries that are hashed here.
-/
import Mathlib.Data.Rat.Floor
import MarketRegimeAlpha.Execution.Manual

namespace MarketRegimeAlpha.Execution.StrategyIntent

open Lib
open Position (Instant)

-- ==== the values

def legacySchema : String := "strategy-execution-authorization/v1"

/-- `STRATEGY_EXECUTION_AUTHORIZATION_SCHEMA`. -/
def currentSchema : String := "strategy-execution-authorization/v2"

def buyActions : List String := ["ENTER", "ADD"]

def sellActions : List String := ["REDUCE", "EXIT"]

structure RuntimeArtifactReference where
  (referenceKind artifactId contentHash : String)
  deriving DecidableEq

/-- The fields of an authorization but its identity: `values` of `create`. -/
structure AuthorizationValues where
  (portfolioDecisionReference strategyVersionReference proposalReference
    accountObservationReference : RuntimeArtifactReference)
  accountReconciliationReference : Option RuntimeArtifactReference
  (tradingCalendarReference priceReference : RuntimeArtifactReference)
  priceSourceReference : Option RuntimeArtifactReference
  (priceObservedAt priceAvailableAt : Option Instant)
  (accountId symbol action : String)
  (acceptedWeight accountNav availableCash referencePrice : ℚ)
  (currentQuantity availableQuantity lotSize : Int)
  authorizedNotional : ℚ
  (recommendedQuantity intendedQuantity : Int)
  residualCash : ℚ
  overrideReason : Option String
  replacementAuthority : Bool
  (decisionTime createdAt : Instant)
  schemaVersion : String
  deriving DecidableEq

structure StrategyExecutionAuthorization extends AuthorizationValues where
  (authorizationId authorizationHash : String)
  deriving DecidableEq

-- ==== the dictionaries

abbrev Second := Int

def canonicalDatetime (instant : Instant) : Second := instant / 1000000

/-- `datetime.fromisoformat`, of what `canonical_datetime` has written. -/
def fromisoformat (second : Second) : Instant := second * 1000000

structure AuthorizationPayload where
  schemaVersion : String
  (portfolioDecisionReference strategyVersionReference proposalReference
    accountObservationReference tradingCalendarReference priceReference : RuntimeArtifactReference)
  (accountId symbol action : String)
  (acceptedWeight accountNav availableCash referencePrice : ℚ)
  (currentQuantity availableQuantity lotSize : Int)
  authorizedNotional : ℚ
  (recommendedQuantity intendedQuantity : Int)
  residualCash : ℚ
  overrideReason : Option String
  (decisionTime createdAt : Second)
  (accountReconciliationReference priceSourceReference : Option RuntimeArtifactReference)
  (priceObservedAt priceAvailableAt : Option Second)
  replacementAuthority : Option Bool

def AuthorizationValues.authorizationPayload (values : AuthorizationValues) :
    AuthorizationPayload :=
  let legacy := values.schemaVersion = legacySchema
  { schemaVersion := values.schemaVersion
    portfolioDecisionReference := values.portfolioDecisionReference
    strategyVersionReference := values.strategyVersionReference
    proposalReference := values.proposalReference
    accountObservationReference := values.accountObservationReference
    tradingCalendarReference := values.tradingCalendarReference
    priceReference := values.priceReference
    accountId := values.accountId
    symbol := values.symbol
    action := values.action
    acceptedWeight := values.acceptedWeight
    accountNav := values.accountNav
    availableCash := values.availableCash
    referencePrice := values.referencePrice
    currentQuantity := values.currentQuantity
    availableQuantity := values.availableQuantity
    lotSize := values.lotSize
    authorizedNotional := values.authorizedNotional
    recommendedQuantity := values.recommendedQuantity
    intendedQuantity := values.intendedQuantity
    residualCash := values.residualCash
    overrideReason := values.overrideReason
    decisionTime := canonicalDatetime values.decisionTime
    createdAt := canonicalDatetime values.createdAt
    -- the keys that version 1 has not
    accountReconciliationReference := if legacy then none else values.accountReconciliationReference
    priceSourceReference := if legacy then none else values.priceSourceReference
    priceObservedAt := if legacy then none else values.priceObservedAt.map canonicalDatetime
    priceAvailableAt := if legacy then none else values.priceAvailableAt.map canonicalDatetime
    replacementAuthority := if legacy then none else some values.replacementAuthority }

/-- The dictionary that `_legacy_price_reference` hashes. -/
structure LegacyPricePayload where
  (proposalId accountObservationId : String)
  referencePrice : ℚ
  decisionTime : Second

inductive Hashed where
  | authorization (payload : AuthorizationPayload)
  | legacyPrice (payload : LegacyPricePayload)

def digestTail (digest : String) : String := String.ofList (digest.toList.drop 7)

def legacyPriceReference (canonicalHash : Hashed → String)
    (values : AuthorizationValues) : RuntimeArtifactReference :=
  let digest := canonicalHash (.legacyPrice
    { proposalId := values.proposalReference.artifactId
      accountObservationId := values.accountObservationReference.artifactId
      referencePrice := values.referencePrice
      decisionTime := canonicalDatetime values.decisionTime })
  ⟨"STRATEGY_REFERENCE_PRICE", "strategy-reference-price:" ++ digestTail digest, digest⟩

-- ==== the constructor

/-- `SHA256_PATTERN`, matched in full. -/
def isPrefixedSha256 (value : String) : Bool :=
  value.toList.take 7 = "sha256:".toList && isSha256 (digestTail value)

def requireSha256 (label value : String) : Except Raised Unit :=
  Lib.require (isPrefixedSha256 value)
    (.valueError s!"{label} must be a sha256-prefixed lowercase digest")

namespace AuthorizationValues

variable (values : AuthorizationValues)

/-- The checks of `__post_init__` on the account and the position. -/
def validateAccount : Except Raised Unit := do
  text "account_id" values.accountId
  text "symbol" values.symbol
  Lib.require (values.action ∈ buyActions ++ sellActions)
    (.valueError "Strategy action is not executable")
  Lib.require (¬ (values.acceptedWeight = 0 ∨ 1 < |values.acceptedWeight|)) (.valueError
      "accepted Strategy weight must be within [-1, 1] and non-zero")
  Lib.require (values.action ∈ buyActions ↔ 0 < values.acceptedWeight)
    (.valueError "accepted Strategy weight disagrees with action")
  Lib.require (¬ (values.accountNav ≤ 0 ∨ values.availableCash < 0 ∨ values.referencePrice ≤ 0))
    (.valueError "account NAV and reference price must be positive")
  Lib.require (0 ≤ min values.currentQuantity values.availableQuantity)
    (.valueError "position quantities cannot be negative")
  Lib.require (values.availableQuantity ≤ values.currentQuantity)
    (.valueError "available quantity cannot exceed current quantity")
  Lib.require (0 < values.lotSize) (.valueError "lot size must be positive")

def validateQuantities : Except Raised Unit := do
  Lib.require (0 < min values.recommendedQuantity values.intendedQuantity)
    (.valueError "NOT_EXECUTABLE_QUANTITY")
  Lib.require (values.intendedQuantity ≤ values.recommendedQuantity)
    (.valueError "operator quantity cannot exceed Strategy authorization")
  Lib.require (values.action ∈ buyActions ++ ["REDUCE"] →
      Int.fmod values.intendedQuantity values.lotSize = 0)
    (.valueError "executable quantity must use the declared lot size")
  Lib.require (¬ (values.action = "EXIT" ∧ values.intendedQuantity ≠ values.recommendedQuantity
      ∧ values.replacementAuthority = false))
    (.valueError "EXIT quantity requires existing replacement authority")
  Lib.require (values.intendedQuantity ≠ values.recommendedQuantity ↔ values.overrideReason.isSome)
    (.valueError "operator override quantity and reason must be paired")
  values.overrideReason.forM (text "override_reason")

def validateTimes : Except Raised Unit :=
  Lib.require (values.decisionTime ≤ values.createdAt)
    (.valueError "Execution Authorization cannot predate Strategy decision")

def expectedNotional : ℚ := |values.acceptedWeight| * values.accountNav

def validateNotional : Except Raised Unit :=
  Lib.require (values.authorizedNotional = values.expectedNotional)
    (.valueError "authorized notional does not match accepted weight and NAV")

def validateOwners (canonicalHash : Hashed → String) : Except Raised Unit :=
  if values.schemaVersion = legacySchema then
    Lib.require (values.accountReconciliationReference = none
        ∧ values.priceSourceReference = none ∧ values.priceObservedAt = none
        ∧ values.priceAvailableAt = none
        ∧ values.priceReference = legacyPriceReference canonicalHash values)
      (.valueError "legacy Strategy reference price identity mismatch")
  else do
    Lib.require (values.accountReconciliationReference.any
        (·.referenceKind = "ACCOUNT_RECONCILIATION"))
      (.valueError "Strategy execution requires Account Reconciliation owner")
    Lib.require (values.priceReference.referenceKind = "CANONICAL_MARKET_BAR")
      (.valueError "Strategy execution price must be owned by a Canonical Market Bar")
    Lib.require values.priceSourceReference.isSome
      (.valueError "Strategy execution price Dataset lineage is required")
    match values.priceObservedAt, values.priceAvailableAt with
    | some observedAt, some availableAt =>
      Lib.require (¬ (values.decisionTime < observedAt
          ∨ values.decisionTime < availableAt ∨ availableAt < observedAt))
        (.valueError "Strategy execution price is not decision-time eligible")
    | _, _ => .error (.valueError "Strategy execution price owner times are required")

def executableNotional : ℚ :=
  if values.action ∈ buyActions then
    min values.expectedNotional values.availableCash
  else values.expectedNotional

def validateResidual : Except Raised Unit :=
  Lib.require (values.residualCash = max 0 (values.executableNotional
        - values.intendedQuantity * values.referencePrice))
    (.valueError "residual cash does not reconcile")

end AuthorizationValues

section Hash

variable (canonicalHash : Hashed → String)

namespace StrategyExecutionAuthorization

variable (authorization : StrategyExecutionAuthorization)

def validateIdentity : Except Raised Unit :=
  let digest := canonicalHash (.authorization authorization.authorizationPayload)
  Lib.require (digest = authorization.authorizationHash ∧ authorization.authorizationId
        = "strategy-execution-authorization:" ++ digestTail digest)
    (.valueError "Strategy Execution Authorization identity mismatch")

def postInit : Except Raised Unit := do
  Lib.require (authorization.schemaVersion = legacySchema
      ∨ authorization.schemaVersion = currentSchema)
    (.valueError "unsupported Strategy Execution Authorization schema")
  requireSha256 "authorization_hash" authorization.authorizationHash
  authorization.validateAccount
  authorization.validateQuantities
  authorization.validateTimes
  authorization.validateNotional
  authorization.validateOwners canonicalHash
  authorization.validateResidual
  authorization.validateIdentity canonicalHash

def construct : Except Raised StrategyExecutionAuthorization := do
  authorization.postInit canonicalHash
  return authorization

end StrategyExecutionAuthorization

-- ==== the creation

structure CreateArguments where
  (portfolioDecisionReference strategyVersionReference proposalReference
    accountObservationReference accountReconciliationReference tradingCalendarReference
    priceReference priceSourceReference : RuntimeArtifactReference)
  (priceObservedAt priceAvailableAt : Instant)
  (accountId symbol action : String)
  (acceptedWeight accountNav availableCash referencePrice : ℚ)
  (currentQuantity availableQuantity lotSize : Int)
  operatorQuantity : Option Int
  overrideReason : Option String
  replacementAuthority : Bool
  (decisionTime createdAt : Instant)

/-- The division of two `Decimal`s. -/
def divide (x y : ℚ) : Except Raised ℚ :=
  if y ≠ 0 then .ok (x / y)
  else if x = 0 then
    .error (.arithmeticError "[<class 'decimal.DivisionUndefined'>]")
  else .error (.arithmeticError "[<class 'decimal.DivisionByZero'>]")

namespace CreateArguments

variable (arguments : CreateArguments)

def authorizedNotional : ℚ := |arguments.acceptedWeight| * arguments.accountNav

def executableNotional : ℚ :=
  if arguments.action ∈ buyActions then
    min arguments.authorizedNotional arguments.availableCash
  else arguments.authorizedNotional

def byWeight : Except Raised Int := do
  let shares ← divide arguments.executableNotional arguments.referencePrice
  let lots ← divide shares arguments.lotSize
  return ⌊lots⌋ * arguments.lotSize

def recommended : Except Raised Int := do
  let byWeight ← arguments.byWeight
  if arguments.action ∈ buyActions then
    return byWeight
  else if arguments.action = "REDUCE" then
    return min byWeight (Int.fdiv arguments.availableQuantity arguments.lotSize * arguments.lotSize)
  else if arguments.action = "EXIT" then
    return arguments.availableQuantity
  else .error (.valueError "Strategy action is not executable")

def values : Except Raised AuthorizationValues := do
  let recommended ← arguments.recommended
  let intended := arguments.operatorQuantity.getD recommended
  return {
    portfolioDecisionReference := arguments.portfolioDecisionReference
    strategyVersionReference := arguments.strategyVersionReference
    proposalReference := arguments.proposalReference
    accountObservationReference := arguments.accountObservationReference
    accountReconciliationReference := some arguments.accountReconciliationReference
    tradingCalendarReference := arguments.tradingCalendarReference
    priceReference := arguments.priceReference
    priceSourceReference := some arguments.priceSourceReference
    priceObservedAt := some arguments.priceObservedAt
    priceAvailableAt := some arguments.priceAvailableAt
    accountId := arguments.accountId
    symbol := arguments.symbol
    action := arguments.action
    acceptedWeight := arguments.acceptedWeight
    accountNav := arguments.accountNav
    availableCash := arguments.availableCash
    referencePrice := arguments.referencePrice
    currentQuantity := arguments.currentQuantity
    availableQuantity := arguments.availableQuantity
    lotSize := arguments.lotSize
    authorizedNotional := arguments.authorizedNotional
    recommendedQuantity := recommended
    intendedQuantity := intended
    residualCash := max 0 (arguments.executableNotional - intended * arguments.referencePrice)
    overrideReason := arguments.overrideReason
    replacementAuthority := arguments.replacementAuthority
    decisionTime := arguments.decisionTime
    createdAt := arguments.createdAt
    schemaVersion := currentSchema }

def create : Except Raised StrategyExecutionAuthorization := do
  let values ← arguments.values
  let digest := canonicalHash (.authorization values.authorizationPayload)
  StrategyExecutionAuthorization.construct canonicalHash { values with
      authorizationId := "strategy-execution-authorization:" ++ digestTail digest
      authorizationHash := digest }

end CreateArguments

-- ==== to and from a dict

structure CanonicalDict where
  (authorizationId authorizationHash : String)
  payload : AuthorizationPayload

def StrategyExecutionAuthorization.toCanonicalDict
    (authorization : StrategyExecutionAuthorization) : CanonicalDict where
  authorizationId := authorization.authorizationId
  authorizationHash := authorization.authorizationHash
  payload := authorization.authorizationPayload

def fromCanonicalDict (dict : CanonicalDict) :
    Except Raised StrategyExecutionAuthorization :=
  let payload := dict.payload
  StrategyExecutionAuthorization.construct canonicalHash
    { authorizationId := dict.authorizationId
      authorizationHash := dict.authorizationHash
      portfolioDecisionReference := payload.portfolioDecisionReference
      strategyVersionReference := payload.strategyVersionReference
      proposalReference := payload.proposalReference
      accountObservationReference := payload.accountObservationReference
      accountReconciliationReference := payload.accountReconciliationReference
      tradingCalendarReference := payload.tradingCalendarReference
      priceReference := payload.priceReference
      priceSourceReference := payload.priceSourceReference
      priceObservedAt := payload.priceObservedAt.map fromisoformat
      priceAvailableAt := payload.priceAvailableAt.map fromisoformat
      accountId := payload.accountId
      symbol := payload.symbol
      action := payload.action
      acceptedWeight := payload.acceptedWeight
      accountNav := payload.accountNav
      availableCash := payload.availableCash
      referencePrice := payload.referencePrice
      currentQuantity := payload.currentQuantity
      availableQuantity := payload.availableQuantity
      lotSize := payload.lotSize
      authorizedNotional := payload.authorizedNotional
      recommendedQuantity := payload.recommendedQuantity
      intendedQuantity := payload.intendedQuantity
      residualCash := payload.residualCash
      overrideReason := payload.overrideReason
      replacementAuthority := payload.replacementAuthority.getD false
      decisionTime := fromisoformat payload.decisionTime
      createdAt := fromisoformat payload.createdAt
      schemaVersion := payload.schemaVersion }

end Hash

end MarketRegimeAlpha.Execution.StrategyIntent
