/-
Adjustment factors and the policy that collects them.

A policy keeps its factors sorted by symbol and date, one for each, and
its limitations sorted. Both are checked by its constructor, and each
factor is verified there.
-/
import MarketRegimeAlpha.MarketData.Values

namespace MarketRegimeAlpha.MarketData

open Lib
open Shared (Date)

variable {platform : Platform}

-- ==== factors

/-- The fields of a factor that its content hash covers. -/
structure FactorValues (platform : Platform) where
  (schemaVersion symbol : String)
  exchange : Exchange
  effectiveDate : Date
  availableAt : UtcSecond
  factor : PlainDecimal
  sourceArtifactId : ArtifactId platform
  sourceContentHash : String

structure FactorFields (platform : Platform) extends FactorValues platform where
  factorId : ArtifactId platform
  contentHash : String

def adjustmentFactorSchemaVersion : String := "adjustment-factor-evidence-v1"

/-- `AdjustmentFactorEvidence.__post_init__`. -/
def FactorFields.check (factor : FactorFields platform) :
    Except Raised Unit := do
  require (factor.schemaVersion = adjustmentFactorSchemaVersion)
    (.valueError "unsupported Adjustment Factor Evidence schema")
  requireSha256 "content_hash" factor.contentHash
  requireCanonicalSymbol platform factor.symbol factor.exchange
  requireDecimal "factor" factor.factor true false
  requireSha256 "source_content_hash" factor.sourceContentHash

abbrev AdjustmentFactorEvidence (platform : Platform) := Sealed (@FactorFields.check platform)

/-- The fields of `semantic_payload`. -/
def FactorValues.payload (factor : FactorValues platform) : List (String × Json) :=
  [("schema_version", .str factor.schemaVersion), ("symbol", .str factor.symbol),
    ("exchange", .str (StrEnum.text factor.exchange)),
    ("effective_date", .str (dateText factor.effectiveDate)),
    ("available_at", .str factor.availableAt.text),
    ("factor", canonicalDecimal factor.factor),
    ("source_artifact_id", idText factor.sourceArtifactId),
    ("source_content_hash", .str factor.sourceContentHash)]

namespace AdjustmentFactorEvidence

variable (factor : AdjustmentFactorEvidence platform)

def verifyIdentity : Except Raised Unit :=
  verifyContent platform "Adjustment Factor Evidence" "adjustment-factor-"
    factor.val.contentHash factor.val.factorId.val (dict factor.val.payload)

def create (values : FactorValues platform) :
    Except Raised (AdjustmentFactorEvidence platform) := do
  let values := { values with schemaVersion := adjustmentFactorSchemaVersion }
  requireDecimal "canonical decimal" values.factor false false
  let contentHash := platform.canonicalHash (dict values.payload)
  let factorId ← construct (validateIdentity platform)
    ("adjustment-factor-" ++ shortDigest contentHash)
  let factor ← construct FactorFields.check { values with
      factorId := factorId
      contentHash := contentHash }
  verifyIdentity factor
  return factor

/-- The fields of `to_canonical_dict`. -/
def fields : List (String × Json) :=
  ("factor_id", idText factor.val.factorId)
    :: ("content_hash", .str factor.val.contentHash) :: factor.val.payload

def toCanonicalDict : Json := dict factor.fields

def keys : List String :=
  ["schema_version", "factor_id", "content_hash", "symbol", "exchange",
    "effective_date", "available_at", "factor", "source_artifact_id",
    "source_content_hash"]

def fromCanonicalDict (payload : List (String × Json)) :
    Except Raised (AdjustmentFactorEvidence platform) := do
  require (hasKeys payload keys = true) (.valueError "Adjustment Factor Evidence fields mismatch")
  let factor ← construct FactorFields.check
    { schemaVersion := strOf platform (← item payload "schema_version")
      factorId := ← artifactId platform (← item payload "factor_id")
      contentHash := strOf platform (← item payload "content_hash")
      symbol := strOf platform (← item payload "symbol")
      exchange := ← StrEnum.parse Exchange (strOf platform (← item payload "exchange"))
      effectiveDate := ← dateFromText (strOf platform (← item payload "effective_date"))
      availableAt := ← parseUtcSecond "available_at" (← item payload "available_at")
      factor := ← parseCanonicalDecimal "factor" (← item payload "factor")
      sourceArtifactId := ← artifactId platform (← item payload "source_artifact_id")
      sourceContentHash := strOf platform (← item payload "source_content_hash") }
  verifyIdentity factor
  return factor

/-- `(item.symbol, item.effective_date)`. -/
def key : String ×ₗ ℕ ×ₗ ℕ ×ₗ ℕ :=
  toLex (factor.val.symbol, dateKey factor.val.effectiveDate)

end AdjustmentFactorEvidence

-- ==== policy

structure PolicyValues (platform : Platform) where
  (schemaVersion policyVersion : String)
  mode : AdjustmentMode
  factors : List (AdjustmentFactorEvidence platform)
  limitations : List String

structure PolicyFields (platform : Platform) extends PolicyValues platform where
  policyId : ArtifactId platform
  policyHash : String

def adjustmentPolicySchemaVersion : String := "price-adjustment-policy-v1"

variable (policy : PolicyValues platform)

def PolicyValues.checkMode : Except Raised Unit :=
  match policy.mode with
  | .raw => require (policy.factors = [])
      (.valueError "RAW policy cannot contain adjustment factors")
  | .pitAdjusted => require (policy.factors ≠ [])
      (.valueError "PIT_ADJUSTED policy requires factor evidence")
  | .researchBackAdjusted => require
      ("RESEARCH_BACK_ADJUSTED_NOT_DECISION_RUNTIME_ELIGIBLE" ∈ policy.limitations)
      (.valueError "research back-adjusted policy must declare runtime limitation")

/-- `PriceAdjustmentPolicy.__post_init__`. -/
def PolicyFields.check (policy : PolicyFields platform) :
    Except Raised Unit := do
  require (policy.schemaVersion = adjustmentPolicySchemaVersion)
    (.valueError "unsupported Price Adjustment Policy schema")
  requireSha256 "policy_hash" policy.policyHash
  requireText platform "policy_version" policy.policyVersion
  requireUniqueText platform "limitation" policy.limitations
  require (isSorted policy.limitations = true) (.valueError "limitations must be sorted")
  let keys := policy.factors.map AdjustmentFactorEvidence.key
  require (isSorted keys = true) (.valueError "adjustment factors must be sorted")
  require keys.Nodup (.valueError "adjustment factors must be unique by symbol/effective date")
  policy.factors.forM AdjustmentFactorEvidence.verifyIdentity
  policy.checkMode

abbrev PriceAdjustmentPolicy (platform : Platform) := Sealed (@PolicyFields.check platform)

/-- The fields of `semantic_payload`. -/
def PolicyValues.payload : List (String × Json) :=
  [("schema_version", .str policy.schemaVersion), ("policy_version", .str policy.policyVersion),
    ("mode", .str (StrEnum.text policy.mode)),
    ("factors", .arr (policy.factors.map (·.toCanonicalDict))),
    ("limitations", .arr (policy.limitations.map .str))]

namespace PriceAdjustmentPolicy

variable (policy : PriceAdjustmentPolicy platform)

def verifyIdentity : Except Raised Unit :=
  verifyContent platform "Price Adjustment Policy" "price-adjustment-policy-"
    policy.val.policyHash policy.val.policyId.val (dict policy.val.payload)

def create (policyVersion : String) (mode : AdjustmentMode)
    (factors : List (AdjustmentFactorEvidence platform)) (limitations : List String) :
    Except Raised (PriceAdjustmentPolicy platform) := do
  let values : PolicyValues platform :=
    { schemaVersion := adjustmentPolicySchemaVersion
      policyVersion := policyVersion
      mode := mode
      factors := sortBy AdjustmentFactorEvidence.key factors
      limitations := sortBy id limitations }
  let policyHash := platform.canonicalHash (dict values.payload)
  let policyId ← construct (validateIdentity platform)
    ("price-adjustment-policy-" ++ shortDigest policyHash)
  let policy ← construct PolicyFields.check { values with
      policyId := policyId
      policyHash := policyHash }
  verifyIdentity policy
  return policy

/-- `factor_for`: the latest factor of the symbol that is in effect, among
those known by the decision. -/
def factorFor (symbol : String) (marketDate : Date) (decisionTime : UtcSecond) :
    Except Raised (AdjustmentFactorEvidence platform) := do
  let candidates := policy.val.factors.filter fun factor =>
    factor.val.symbol = symbol ∧ dateKey factor.val.effectiveDate ≤ dateKey marketDate
  require (candidates ≠ []) (.valueError "adjustment factor is not established for symbol/date")
  let available := candidates.filter fun factor =>
    factor.val.availableAt.seconds ≤ decisionTime.seconds
  orRaise (available.argmax fun factor => dateKey factor.val.effectiveDate)
    (.valueError "adjustment factor became available after DecisionTime")

/-- The fields of `to_canonical_dict`. -/
def fields : List (String × Json) :=
  ("policy_id", idText policy.val.policyId)
    :: ("policy_hash", .str policy.val.policyHash) :: policy.val.payload

def toCanonicalDict : Json := dict policy.fields

def keys : List String :=
  ["schema_version", "policy_id", "policy_hash", "policy_version", "mode", "factors", "limitations"]

def fromCanonicalDict (payload : List (String × Json)) :
    Except Raised (PriceAdjustmentPolicy platform) := do
  require (hasKeys payload keys = true) (.valueError "Price Adjustment Policy fields mismatch")
  let rawFactors ← dictItems (← item payload "factors")
    (.valueError "factors must be an array of objects")
  let rawLimitations ← textItems (← item payload "limitations")
    (.valueError "limitations must be an array of strings")
  let policy ← construct PolicyFields.check
    { schemaVersion := strOf platform (← item payload "schema_version")
      policyId := ← artifactId platform (← item payload "policy_id")
      policyHash := strOf platform (← item payload "policy_hash")
      policyVersion := strOf platform (← item payload "policy_version")
      mode := ← StrEnum.parse AdjustmentMode (strOf platform (← item payload "mode"))
      factors := ← rawFactors.mapM AdjustmentFactorEvidence.fromCanonicalDict
      limitations := rawLimitations }
  verifyIdentity policy
  return policy

end PriceAdjustmentPolicy

end MarketRegimeAlpha.MarketData
