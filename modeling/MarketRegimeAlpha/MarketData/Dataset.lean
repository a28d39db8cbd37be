/-
Datasets of market data: their partitions, their coverage, and the
artifact that collects both.

# Creation

`create` sorts the bars, groups them by symbol and timeframe, and makes a
partition of each group and the coverage of all. Hashes are made of what
is sorted, so the order of the bars given does not matter.

# Reading

A partition is read by creating it again from its bars, and the coverage
by building it again from those of all partitions; both are compared with
what was stored.
-/
import MarketRegimeAlpha.Lib.Dict
import MarketRegimeAlpha.MarketData.Adjustment
import MarketRegimeAlpha.MarketData.Bar

namespace MarketRegimeAlpha.MarketData

open Lib
open Shared (Date)

variable {platform : Platform}

/-- `values == tuple(sorted(set(values), key=key))`. -/
def isSortedSet {α β : Type} [DecidableEq α] [LinearOrder β] (key : α → β)
    (values : List α) : Bool :=
  values = sortBy key values.dedup

-- ==== coverage

structure CoverageFields where
  state : DatasetCoverageState
  (expectedSymbols observedSymbols : List String)
  (expectedTimeframes observedTimeframes : List Timeframe)
  missingSymbolTimeframes : List String
  missingFieldCounts : List (String × Nat)
  deriving DecidableEq

def requireTexts (platform : Platform) (label : String) (values : List String) :
    Except Raised Unit := do
  requireUniqueText platform label values
  require (isSorted values = true) (.valueError (label ++ " must be sorted"))

def requireTimeframes (label : String) (values : List Timeframe) :
    Except Raised Unit :=
  require (isSortedSet StrEnum.text values = true)
    (.valueError (label ++ " must be unique and sorted"))

def coverageState (missing : List String) : DatasetCoverageState :=
  if missing = [] then .complete else .partiallyCovered

/-- `MarketDataCoverage.__post_init__`. -/
def CoverageFields.check (platform : Platform) (coverage : CoverageFields) :
    Except Raised Unit := do
  requireTexts platform "expected_symbols" coverage.expectedSymbols
  requireTexts platform "observed_symbols" coverage.observedSymbols
  requireTexts platform "missing_symbol_timeframes" coverage.missingSymbolTimeframes
  requireTimeframes "expected_timeframes" coverage.expectedTimeframes
  requireTimeframes "observed_timeframes" coverage.observedTimeframes
  require (coverage.expectedSymbols ≠ [] ∧ coverage.expectedTimeframes ≠ [])
    (.valueError "coverage expectations must not be empty")
  require (coverage.observedSymbols ⊆ coverage.expectedSymbols)
    (.valueError "observed symbols exceed declared coverage scope")
  require (coverage.observedTimeframes ⊆ coverage.expectedTimeframes)
    (.valueError "observed timeframes exceed declared coverage scope")
  require (isSortedSet id (coverage.missingFieldCounts.map (·.1)) = true)
    (.valueError "missing field counts must be unique and sorted")
  require (∀ entry ∈ coverage.missingFieldCounts, 0 < entry.2)
    (.valueError "missing field counts must be positive")
  require (coverage.state = coverageState coverage.missingSymbolTimeframes)
    (.valueError "coverage state does not match missing combinations")

abbrev MarketDataCoverage (platform : Platform) := Sealed (CoverageFields.check platform)

def buildCoverage (bars : List (CanonicalMarketBar platform))
    (expectedSymbols : List String) (expectedTimeframes : List Timeframe) :
    Except Raised (MarketDataCoverage platform) :=
  let observed := bars.map fun bar => (bar.val.symbol, bar.val.timeframe)
  let missing := sortBy id (expectedSymbols.flatMap fun symbol =>
    (expectedTimeframes.filter fun timeframe =>
      (symbol, timeframe) ∉ observed).map fun timeframe => symbol ++ "|" ++ StrEnum.text timeframe)
  let missingFields :=
    [("amount", bars.countP fun bar => bar.val.amount.isNone),
      ("previous_close", bars.countP fun bar => bar.val.previousClose.isNone),
      ("turnover_rate", bars.countP fun bar => bar.val.turnoverRate.isNone)]
  construct (CoverageFields.check platform)
    { state := coverageState missing
      expectedSymbols := expectedSymbols
      observedSymbols := sortBy id (bars.map (·.val.symbol)).dedup
      expectedTimeframes := expectedTimeframes
      observedTimeframes := sortBy StrEnum.text (bars.map (·.val.timeframe)).dedup
      missingSymbolTimeframes := missing
      missingFieldCounts := (sortBy (·.1) missingFields).filter (·.2 ≠ 0) }

def timeframesJson (values : List Timeframe) : Json :=
  .arr (values.map fun timeframe => .str (StrEnum.text timeframe))

namespace MarketDataCoverage

variable (coverage : MarketDataCoverage platform)

/-- The fields of `to_canonical_dict`. -/
def fields : List (String × Json) :=
  [("state", .str (StrEnum.text coverage.val.state)),
    ("expected_symbols", .arr (coverage.val.expectedSymbols.map .str)),
    ("observed_symbols", .arr (coverage.val.observedSymbols.map .str)),
    ("expected_timeframes", timeframesJson coverage.val.expectedTimeframes),
    ("observed_timeframes", timeframesJson coverage.val.observedTimeframes),
    ("missing_symbol_timeframes", .arr (coverage.val.missingSymbolTimeframes.map .str)),
    ("missing_field_counts", .arr (coverage.val.missingFieldCounts.map fun entry =>
        dict [("field", .str entry.1), ("count", .int entry.2)]))]

def toCanonicalDict : Json := dict coverage.fields

def keys : List String :=
  ["state", "expected_symbols", "observed_symbols", "expected_timeframes",
    "observed_timeframes", "missing_symbol_timeframes",
    "missing_field_counts"]

def stringTuple (label : String) (value : Json) : Except Raised (List String) :=
  textItems value (.valueError (label ++ " must be an array of strings"))

def fromCanonicalDict (payload : List (String × Json)) :
    Except Raised (MarketDataCoverage platform) := do
  require (hasKeys payload keys = true) (.valueError "Market Data Coverage fields mismatch")
  let notCanonical := Raised.valueError "missing_field_counts must be canonical objects"
  let rawMissing ← dictItems (← item payload "missing_field_counts") notCanonical
  require (rawMissing.all (hasKeys · ["field", "count"]) = true) notCanonical
  construct (CoverageFields.check platform)
    { state := ← StrEnum.parse DatasetCoverageState
        (strOf platform (← item payload "state"))
      expectedSymbols := ← stringTuple "expected_symbols" (← item payload "expected_symbols")
      observedSymbols := ← stringTuple "observed_symbols" (← item payload "observed_symbols")
      expectedTimeframes := ← (← stringTuple "expected_timeframes"
        (← item payload "expected_timeframes")).mapM (StrEnum.parse Timeframe)
      observedTimeframes := ← (← stringTuple "observed_timeframes"
        (← item payload "observed_timeframes")).mapM (StrEnum.parse Timeframe)
      missingSymbolTimeframes := ← stringTuple "missing_symbol_timeframes"
        (← item payload "missing_symbol_timeframes")
      missingFieldCounts := ← rawMissing.mapM fun entry => do
        return (strOf platform (← item entry "field"),
          ← positiveInt "missing count" (← item entry "count")) }

end MarketDataCoverage

-- ==== partitions

structure PartitionFields (platform : Platform) where
  schemaVersion : String
  partitionId : ArtifactId platform
  (contentHash symbol : String)
  timeframe : Timeframe
  (firstMarketDate lastMarketDate : Date)
  barCount : Nat
  relativePath : String
  bars : List (CanonicalMarketBar platform)

def marketDataPartitionSchema : String := "canonical-market-data-partition-v1"

/-- `(item.event_start, str(item.bar_id))`. -/
def CanonicalMarketBar.eventKey (bar : CanonicalMarketBar platform) : ℕ ×ₗ String :=
  toLex (bar.val.eventStart.seconds, bar.val.barId.val)

def partitionPath (symbol : String) (timeframe : Timeframe) : String :=
  "partitions/" ++ symbol ++ "/" ++ StrEnum.text timeframe ++ ".json"

/-- `MarketDataPartition.__post_init__`. -/
def PartitionFields.check (part : PartitionFields platform) :
    Except Raised Unit := do
  require (part.schemaVersion = marketDataPartitionSchema)
    (.valueError "unsupported Market Data Partition schema")
  requireSha256 "content_hash" part.contentHash
  require (part.barCount = part.bars.length ∧ 0 < part.barCount)
    (.valueError "partition bar_count mismatch")
  require (part.relativePath = partitionPath part.symbol part.timeframe)
    (.valueError "partition relative path mismatch")
  require (isSorted (part.bars.map CanonicalMarketBar.eventKey) = true)
    (.valueError "partition bars must be sorted")
  require (∀ bar ∈ part.bars, bar.val.symbol = part.symbol ∧ bar.val.timeframe = part.timeframe)
    (.valueError "partition scope mismatch")
  require (part.bars.head?.map (·.val.marketDate) = some part.firstMarketDate)
    (.valueError "partition first market date mismatch")
  require (part.bars.getLast?.map (·.val.marketDate) = some part.lastMarketDate)
    (.valueError "partition last market date mismatch")
  part.bars.forM CanonicalMarketBar.verifyIdentity

abbrev MarketDataPartition (platform : Platform) := Sealed (@PartitionFields.check platform)

/-- The fields of `semantic_payload`. -/
def partitionPayload (symbol : String) (timeframe : Timeframe)
    (bars : List (CanonicalMarketBar platform)) : List (String × Json) :=
  [("schema_version", .str marketDataPartitionSchema), ("symbol", .str symbol),
    ("timeframe", .str (StrEnum.text timeframe)),
    ("bars", .arr (bars.map (·.toCanonicalDict)))]

namespace MarketDataPartition

variable (part : MarketDataPartition platform)

/-- The fields of `semantic_payload`. -/
def payload : List (String × Json) :=
  partitionPayload part.val.symbol part.val.timeframe part.val.bars

def verifyIdentity : Except Raised Unit :=
  verifyContent platform "Market Data Partition" "market-data-partition-"
    part.val.contentHash part.val.partitionId.val (dict part.payload)

def create (symbol : String) (timeframe : Timeframe) (bars : List (CanonicalMarketBar platform)) :
    Except Raised (MarketDataPartition platform) := do
  let ordered := sortBy CanonicalMarketBar.eventKey bars
  let noBars := Raised.valueError "Market Data Partition requires bars"
  let first ← orRaise ordered.head? noBars
  let last ← orRaise ordered.getLast? noBars
  let contentHash := platform.canonicalHash (dict (partitionPayload symbol timeframe ordered))
  let partitionId ← construct (validateIdentity platform)
    ("market-data-partition-" ++ shortDigest contentHash)
  let part ← construct PartitionFields.check
    { schemaVersion := marketDataPartitionSchema
      partitionId := partitionId
      contentHash := contentHash
      symbol := symbol
      timeframe := timeframe
      firstMarketDate := first.val.marketDate
      lastMarketDate := last.val.marketDate
      barCount := ordered.length
      relativePath := partitionPath symbol timeframe
      bars := ordered }
  verifyIdentity part
  return part

/-- The fields of `reference_dict`. -/
def reference : List (String × Json) :=
  [("partition_id", idText part.val.partitionId), ("content_hash", .str part.val.contentHash),
    ("symbol", .str part.val.symbol),
    ("timeframe", .str (StrEnum.text part.val.timeframe)),
    ("first_market_date", .str (dateText part.val.firstMarketDate)),
    ("last_market_date", .str (dateText part.val.lastMarketDate)),
    ("bar_count", .int part.val.barCount),
    ("relative_path", .str part.val.relativePath)]

def referenceDict : Json := dict part.reference

/-- The fields of `to_canonical_dict`. -/
def fields : List (String × Json) :=
  ("partition_id", idText part.val.partitionId)
    :: ("content_hash", .str part.val.contentHash) :: part.payload

def toCanonicalDict : Json := dict part.fields

def keys : List String :=
  ["partition_id", "content_hash", "schema_version", "symbol", "timeframe", "bars"]

def fromCanonicalDict (payload : List (String × Json)) :
    Except Raised (MarketDataPartition platform) := do
  require (hasKeys payload keys = true) (.valueError "Market Data Partition fields mismatch")
  let rawBars ← dictItems (← item payload "bars")
    (.valueError "partition bars must be an array of objects")
  let part ← create (strOf platform (← item payload "symbol"))
    (← StrEnum.parse Timeframe (strOf platform (← item payload "timeframe")))
    (← rawBars.mapM CanonicalMarketBar.fromCanonicalDict)
  require (part.val.partitionId.val = strOf platform (← item payload "partition_id")
      ∧ part.val.contentHash = strOf platform (← item payload "content_hash"))
    (.valueError "Market Data Partition stored identity mismatch")
  return part

end MarketDataPartition

-- ==== dataset

/-- The fields of a dataset that its content hash covers. -/
structure DatasetValues (platform : Platform) where
  (decisionTime createdAt : UtcSecond)
  partitions : List (MarketDataPartition platform)
  barCount : Nat
  (firstMarketDate lastMarketDate : Date)
  adjustmentPolicy : PriceAdjustmentPolicy platform
  sourceManifestReferences : List (ArtifactId platform × String)
  dataEligibility : DataEligibility
  formalPitStatus : FormalPitStatus
  coverage : MarketDataCoverage platform
  limitations : List String

structure DatasetFields (platform : Platform) extends DatasetValues platform where
  schemaVersion : String
  /-- `DatasetId`. -/
  datasetId : ArtifactId platform
  contentHash : String

def marketDataDatasetSchema : String := "canonical-market-data-dataset-v1"

variable (values : DatasetValues platform)

/-- `iter_bars`. -/
def DatasetValues.bars : List (CanonicalMarketBar platform) :=
  values.partitions.flatMap (·.val.bars)

def DatasetValues.checkFactor (bar : CanonicalMarketBar platform) : Except Raised Unit := do
  let factor ← values.adjustmentPolicy.factorFor bar.val.symbol
    bar.val.marketDate values.decisionTime
  require (bar.val.adjustmentFactorId = some factor.val.factorId
      ∧ bar.val.adjustmentFactorHash = some factor.val.contentHash
      ∧ bar.val.adjustmentFactor = factor.val.factor)
    (.valueError "adjusted market bar does not bind the applicable factor evidence")

def DatasetValues.checkFactors : Except Raised Unit :=
  match values.adjustmentPolicy.val.mode with
  | .raw => .ok ()
  | _ => values.bars.forM values.checkFactor

/-- `(str(item_id), item_hash)`. -/
def referenceKey (reference : ArtifactId platform × String) : String ×ₗ String :=
  toLex (reference.1.val, reference.2)

/-- A dataset made before its decision says that its evidence was
frozen. -/
def frozenEvidence : List String :=
  ["PRE_DECISION_MINUTE_EVIDENCE_FROZEN", "PRE_DECISION_STATIC_EVIDENCE_FROZEN"]

/-- `MarketDataDatasetArtifact.__post_init__`. -/
def DatasetFields.check (dataset : DatasetFields platform) :
    Except Raised Unit := do
  require (dataset.schemaVersion = marketDataDatasetSchema)
    (.valueError "unsupported Market Data Dataset schema")
  requireSha256 "content_hash" dataset.contentHash
  require (dataset.partitions ≠ [])
    (.valueError "Market Data Dataset requires at least one partition")
  require (isSortedSet id (dataset.partitions.map fun part =>
      (toLex (part.val.symbol, StrEnum.text part.val.timeframe) : String ×ₗ String)) = true)
    (.valueError "dataset partitions must be unique and sorted")
  require (dataset.barCount = (dataset.partitions.map (·.val.barCount)).sum)
    (.valueError "dataset bar_count mismatch")
  let bars := dataset.bars
  require (maxOr 0 (bars.map (·.val.availableAt.seconds)) ≤ dataset.createdAt.seconds)
    (.valueError "Market Data Dataset predates consumed bars")
  require (¬ (dataset.createdAt.seconds < dataset.decisionTime.seconds
      ∧ ∀ limitation ∈ dataset.limitations, limitation ∉ frozenEvidence))
    (.valueError "pre-Decision datasets require an explicit frozen-evidence contract")
  require ((bars.map (·.val.marketDate)).argmin dateKey = some dataset.firstMarketDate)
    (.valueError "dataset first market date mismatch")
  require ((bars.map (·.val.marketDate)).argmax dateKey = some dataset.lastMarketDate)
    (.valueError "dataset last market date mismatch")
  require (∀ bar ∈ bars, bar.val.availableAt.seconds ≤ dataset.decisionTime.seconds)
    (.valueError "market bar became available after DecisionTime")
  dataset.adjustmentPolicy.verifyIdentity
  require (∀ bar ∈ bars, bar.val.adjustmentMode = dataset.adjustmentPolicy.val.mode)
    (.valueError "market bar adjustment mode differs from dataset policy")
  dataset.checkFactors
  let references := dataset.sourceManifestReferences.map referenceKey
  require (references ≠ []) (.valueError "Market Data Dataset requires source manifest authority")
  require (isSortedSet id references = true)
    (.valueError "source manifest references must be unique and sorted")
  dataset.sourceManifestReferences.forM fun reference =>
    requireSha256 "source_manifest_hash" reference.2
  requireUniqueText platform "limitation" dataset.limitations
  require (isSorted dataset.limitations = true) (.valueError "limitations must be sorted")
  require (dataset.adjustmentPolicy.val.mode = .researchBackAdjusted →
      dataset.formalPitStatus = .formalPitNotEstablished)
    (.valueError "research back-adjusted data cannot establish formal PIT")
  require (dataset.dataEligibility = .formalResearch →
      dataset.formalPitStatus = .pitCorrectForDeclaredScope)
    (.valueError "FORMAL_RESEARCH market data requires PIT evidence")

abbrev MarketDataDatasetArtifact (platform : Platform) := Sealed (@DatasetFields.check platform)

def DatasetValues.payload : List (String × Json) :=
  [("schema_version", .str marketDataDatasetSchema),
    ("decision_time", .str values.decisionTime.text),
    ("created_at", .str values.createdAt.text),
    ("partitions", .arr (values.partitions.map (·.referenceDict))),
    ("bar_count", .int values.barCount),
    ("first_market_date", .str (dateText values.firstMarketDate)),
    ("last_market_date", .str (dateText values.lastMarketDate)),
    ("adjustment_policy_id", idText values.adjustmentPolicy.val.policyId),
    ("adjustment_policy_hash", .str values.adjustmentPolicy.val.policyHash),
    ("source_manifest_references", .arr (values.sourceManifestReferences.map fun reference =>
        dict [("artifact_id", idText reference.1), ("content_hash", .str reference.2)])),
    ("data_eligibility", .str (StrEnum.text values.dataEligibility)),
    ("formal_pit_status", .str (StrEnum.text values.formalPitStatus)),
    ("coverage", values.coverage.toCanonicalDict),
    ("limitations", .arr (values.limitations.map .str))]

/-- `(item.symbol, item.timeframe.value, item.event_start,
str(item.bar_id))`. -/
def CanonicalMarketBar.datasetKey (bar : CanonicalMarketBar platform) :
    String ×ₗ String ×ₗ ℕ ×ₗ String :=
  toLex (bar.val.symbol, toLex (StrEnum.text bar.val.timeframe, bar.eventKey))

def groupBars (bars : List (CanonicalMarketBar platform)) :
    List ((String × Timeframe) × List (CanonicalMarketBar platform)) :=
  groupBy (fun bar => (bar.val.symbol, bar.val.timeframe)) bars

namespace MarketDataDatasetArtifact

variable (dataset : MarketDataDatasetArtifact platform)

def verifyIdentity : Except Raised Unit := do
  dataset.val.partitions.forM MarketDataPartition.verifyIdentity
  verifyContent platform "Market Data Dataset" "market-data-dataset-"
    dataset.val.contentHash dataset.val.datasetId.val
    (dict dataset.val.payload)

def create (decisionTime createdAt : UtcSecond) (bars : List (CanonicalMarketBar platform))
    (expectedSymbols : List String) (expectedTimeframes : List Timeframe)
    (adjustmentPolicy : PriceAdjustmentPolicy platform)
    (sourceManifestReferences : List (ArtifactId platform × String))
    (dataEligibility : DataEligibility) (formalPitStatus : FormalPitStatus)
    (limitations : List String) :
    Except Raised (MarketDataDatasetArtifact platform) := do
  let orderedBars := sortBy CanonicalMarketBar.datasetKey bars
  require (orderedBars ≠ []) (.valueError "Market Data Dataset requires bars")
  require ((orderedBars.map fun bar =>
      (bar.val.symbol, bar.val.timeframe, bar.val.eventStart)).Nodup)
    (.valueError "duplicate market bar for symbol/timeframe/event time")
  let grouped := sortBy (fun group =>
    (toLex (group.1.1, StrEnum.text group.1.2) : String ×ₗ String))
    (groupBars orderedBars)
  let partitions ← grouped.mapM fun group => MarketDataPartition.create group.1.1 group.1.2 group.2
  let coverage ← buildCoverage orderedBars (sortBy id expectedSymbols)
    (sortBy StrEnum.text expectedTimeframes)
  let noBars := Raised.valueError "Market Data Dataset requires bars"
  let dates := orderedBars.map (·.val.marketDate)
  let values : DatasetValues platform :=
    { decisionTime := decisionTime
      createdAt := createdAt
      partitions := partitions
      barCount := orderedBars.length
      firstMarketDate := ← orRaise (dates.argmin dateKey) noBars
      lastMarketDate := ← orRaise (dates.argmax dateKey) noBars
      adjustmentPolicy := adjustmentPolicy
      sourceManifestReferences := sortBy referenceKey sourceManifestReferences
      dataEligibility := dataEligibility
      formalPitStatus := formalPitStatus
      coverage := coverage
      limitations := sortBy id limitations }
  let contentHash := platform.canonicalHash (dict values.payload)
  let datasetId ← construct (validateIdentity platform)
    ("market-data-dataset-" ++ shortDigest contentHash)
  let dataset ← construct DatasetFields.check
    { values with
      schemaVersion := marketDataDatasetSchema
      datasetId := datasetId
      contentHash := contentHash }
  verifyIdentity dataset
  return dataset

/-- The fields of `to_canonical_dict`. -/
def fields : List (String × Json) :=
  ("dataset_id", idText dataset.val.datasetId)
    :: ("content_hash", .str dataset.val.contentHash) :: dataset.val.payload

def toCanonicalDict : Json := dict dataset.fields

def keys : List String :=
  ["dataset_id", "content_hash", "schema_version", "decision_time",
    "created_at", "partitions", "bar_count", "first_market_date",
    "last_market_date", "adjustment_policy_id", "adjustment_policy_hash",
    "source_manifest_references", "data_eligibility", "formal_pit_status",
    "coverage", "limitations"]

def fromCanonicalDict (payload : List (String × Json))
    (partitions : List (MarketDataPartition platform))
    (adjustmentPolicy : PriceAdjustmentPolicy platform) :
    Except Raised (MarketDataDatasetArtifact platform) := do
  require (hasKeys payload keys = true) (.valueError "Market Data Dataset fields mismatch")
  let notCanonical := Raised.valueError "source manifest references must be canonical objects"
  let rawReferences ← dictItems (← item payload "source_manifest_references") notCanonical
  require (rawReferences.all (hasKeys · ["artifact_id", "content_hash"]) = true) notCanonical
  let rawPartitions ← item payload "partitions"
  let rawPartitionRefs ← dictItems rawPartitions
    (.valueError "partition references must be canonical objects")
  require (partitions.map (·.referenceDict) = rawPartitionRefs.map Json.obj)
    (.valueError "Market Data Dataset partition projection mismatch")
  require (idText adjustmentPolicy.val.policyId = (← item payload "adjustment_policy_id")
      ∧ Json.str adjustmentPolicy.val.policyHash = (← item payload "adjustment_policy_hash"))
    (.valueError "Market Data Dataset adjustment policy mismatch")
  let rawCoverage ← orRaise (← item payload "coverage").fields?
    (.valueError "coverage must be an object")
  let coverage ← MarketDataCoverage.fromCanonicalDict rawCoverage
  let reconstructedCoverage ← buildCoverage (partitions.flatMap (·.val.bars))
    coverage.val.expectedSymbols coverage.val.expectedTimeframes
  require (coverage.val = reconstructedCoverage.val)
    (.valueError "Market Data Dataset coverage projection mismatch")
  let rawLimitations ← textItems (← item payload "limitations")
    (.valueError "limitations must be an array of strings")
  let dataset ← construct DatasetFields.check
    { schemaVersion := strOf platform (← item payload "schema_version")
      datasetId := ← artifactId platform (← item payload "dataset_id")
      contentHash := strOf platform (← item payload "content_hash")
      decisionTime := ← parseUtcSecond "decision_time" (← item payload "decision_time")
      createdAt := ← parseUtcSecond "created_at" (← item payload "created_at")
      partitions := partitions
      barCount := ← positiveInt "bar_count" (← item payload "bar_count")
      firstMarketDate := ← dateFromText (strOf platform (← item payload "first_market_date"))
      lastMarketDate := ← dateFromText (strOf platform (← item payload "last_market_date"))
      adjustmentPolicy := adjustmentPolicy
      sourceManifestReferences := ← rawReferences.mapM fun entry => do
        return (← artifactId platform (← item entry "artifact_id"),
          strOf platform (← item entry "content_hash"))
      dataEligibility := ← StrEnum.parse DataEligibility
        (strOf platform (← item payload "data_eligibility"))
      formalPitStatus := ← StrEnum.parse FormalPitStatus
        (strOf platform (← item payload "formal_pit_status"))
      coverage := coverage
      limitations := rawLimitations }
  verifyIdentity dataset
  return dataset

end MarketDataDatasetArtifact

end MarketRegimeAlpha.MarketData
