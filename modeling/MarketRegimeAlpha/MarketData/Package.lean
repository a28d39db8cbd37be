/-
Packages: the files of a published dataset, in the JSON encoding V1 and
in the columnar encoding V2.

# Files

A package is its files by their paths below its directory, and a root its
packages by the names of their directories. What is staged is seen by
nobody before it is installed, so a publication changes the root when it
returns and not when it raises.

# Encodings

V1 keeps each partition as its dictionary. V2 keeps each partition as a
table with a row for each bar, and an index of the partitions with the
files that hold them, so that some can be read without the others.
-/
import MarketRegimeAlpha.MarketData.Dataset

namespace MarketRegimeAlpha.MarketData

open Lib

variable {platform : Platform}

abbrev Package := List (String × ByteArray)

abbrev Root := List (String × Package)

-- ==== files

variable (files : Package)

/-- `path.open("xb")`, and what is written. -/
def createFile (path : String) (content : ByteArray) : Except Raised Package := do
  require (files.lookup path = none) (.osError ("File exists: " ++ path))
  return files ++ [(path, content)]

def writeJson (path : String) (payload : Json) : Except Raised Package :=
  createFile files path (jsonFile payload)

/-- `path.read_bytes()`. -/
def readFile (path : String) : Except Raised ByteArray :=
  orRaise (files.lookup path) (.osError ("No such file or directory: " ++ path))

/-- `_read_object` of the reader with these texts. -/
def readObjectFile (platform : Platform) (invalid notAnObject : String)
    (files : Package) (path : String) :
    Except Raised (List (String × Json)) := do
  let content ← orRaise (files.lookup path) (.valueError invalid)
  let text ← orRaise (String.fromUTF8? content) (.valueError invalid)
  let payload ← orRaise (platform.loads text) (.valueError invalid)
  orRaise payload.fields? (.valueError notAnObject)

def checksumsOf (platform : Platform) (files : Package) (names : List String) :
    Except Raised (List (String × String)) :=
  (sortedDistinct names).mapM fun name => do
    return (name, platform.fileHash (← readFile files name))

def checksumsJson (checksums : List (String × String)) : Json :=
  dict (checksums.map fun entry => (entry.1, .str entry.2))

def readChecksums (raw : List (String × Json)) (e : Raised) :
    Except Raised (List (String × String)) :=
  raw.mapM fun entry => do return (entry.1, ← orRaise entry.2.text? e)

def verifyChecksum (platform : Platform) (files : Package) (encoding : String)
    (entry : String × String) : Except Raised Unit := do
  let content ← readFile files entry.1
  require (platform.fileHash content = entry.2)
    (.valueError (encoding ++ " checksum mismatch: " ++ entry.1))

/-- `set(values) == set(values')`. -/
def sameNames (names names' : List String) : Bool :=
  names.all (· ∈ names') && names'.all (· ∈ names)

-- ==== reading

structure VerifiedMarketDataDataset (platform : Platform) where
  /-- The name of the directory. -/
  root : String
  artifact : MarketDataDatasetArtifact platform
  bars : List (CanonicalMarketBar platform)
  checksumsHash : String

variable (artifact : MarketDataDatasetArtifact platform)

def MarketDataDatasetArtifact.iterBars : List (CanonicalMarketBar platform) :=
  artifact.val.bars

def jsonPaths : List String :=
  ["artifact.json", "adjustment-policy.json"] ++ artifact.val.partitions.map (·.val.relativePath)

namespace JsonV1

def readObject (platform : Platform) (files : Package) (path : String) :
    Except Raised (List (String × Json)) :=
  readObjectFile platform ("invalid Market Data Dataset JSON: " ++ path)
    ("Market Data Dataset JSON must be an object: " ++ path) files path

def referencedPath (reference : List (String × Json)) (e : Raised) :
    Except Raised String :=
  orRaise ((reference.lookup "relative_path").bind (·.text?)) e

/-- `_load_verified_market_data_dataset`, of a directory with this name;
`enforceDirectoryIdentity` compares the name. -/
def load (platform : Platform) (name : String) (files : Package) (enforceDirectoryIdentity : Bool) :
    Except Raised (VerifiedMarketDataDataset platform) := do
  let fileSet := Raised.valueError "Market Data Dataset exact file set mismatch"
  let index := Raised.valueError "Market Data Dataset checksum index mismatch"
  let actualFiles := files.map (·.1)
  require ("SHA256SUMS.json" ∈ actualFiles) fileSet
  let rawChecksums ← readObject platform files "SHA256SUMS.json"
  let checksums ← readChecksums rawChecksums index
  require (sameNames actualFiles ("SHA256SUMS.json" :: checksums.map (·.1)) = true) fileSet
  checksums.forM (verifyChecksum platform files "Market Data Dataset")
  let rawPolicy ← readObject platform files "adjustment-policy.json"
  let policy ← PriceAdjustmentPolicy.fromCanonicalDict rawPolicy
  let rawArtifact ← readObject platform files "artifact.json"
  let partitionIndex := Raised.valueError "Market Data Dataset partition index mismatch"
  let rawRefs ← dictItems ((rawArtifact.lookup "partitions").getD .null) partitionIndex
  let paths ← rawRefs.mapM (referencedPath · partitionIndex)
  let partitions ← paths.mapM fun path => do
    MarketDataPartition.fromCanonicalDict (← readObject platform files path)
  let artifact ← MarketDataDatasetArtifact.fromCanonicalDict rawArtifact partitions policy
  require (sameNames (checksums.map (·.1)) (jsonPaths artifact) = true) index
  require (enforceDirectoryIdentity = true → name = artifact.val.datasetId.val)
    (.valueError "Market Data Dataset directory identity mismatch")
  return {
    root := name
    artifact := artifact
    bars := artifact.iterBars
    checksumsHash := platform.canonicalHash (checksumsJson checksums) }

/-- The files that `_publish_market_data_dataset_json_v1` stages. -/
def stage (artifact : MarketDataDatasetArtifact platform) :
    Except Raised Package := do
  let files ← writeJson [] "artifact.json" artifact.toCanonicalDict
  let files ← writeJson files "adjustment-policy.json" artifact.val.adjustmentPolicy.toCanonicalDict
  let files ← artifact.val.partitions.foldlM (fun files part =>
    writeJson files part.val.relativePath part.toCanonicalDict) files
  let checksums ← checksumsOf platform files (jsonPaths artifact)
  writeJson files "SHA256SUMS.json" (checksumsJson checksums)

end JsonV1

-- ==== encoding V2

def marketDataPackageEncodingV2 : String := "market-data-package-encoding-v2"

def marketDataParquetSchemaV2 : String := "canonical-market-bar-parquet-v2"

structure MarketDataSelectionV2 (platform : Platform) where
  (root datasetId datasetHash : String)
  bars : List (CanonicalMarketBar platform)
  selectedPartitionCount : Nat
  physicalChecksumsHash : String

/-- `fields.get(key)`. -/
def get (fields : List (String × Json)) (key : String) : Json := (fields.lookup key).getD .null

variable (part : MarketDataPartition platform)

def physicalPath : String :=
  "partitions/" ++ part.val.symbol ++ "/" ++ StrEnum.text part.val.timeframe
    ++ "/" ++ dateText part.val.firstMarketDate ++ "_"
    ++ dateText part.val.lastMarketDate ++ ".parquet"

/-- The row of a bar: `isoformat()` of its start ends in `+00:00`. -/
def parquetRow (bar : CanonicalMarketBar platform) : ParquetRow :=
  { schemaVersion := marketDataParquetSchemaV2
    symbol := part.val.symbol
    timeframe := StrEnum.text part.val.timeframe
    marketDate := dateText bar.val.marketDate
    eventStart := String.ofList (Shared.isoDate bar.val.eventStart.date
      ++ 'T' :: (Shared.isoTime bar.val.eventStart.time ++ "+00:00".toList))
    barId := bar.val.barId.val
    barHash := bar.val.contentHash
    barJson := canonicalJson bar.toCanonicalDict }

def partitionTable : ByteArray :=
  platform.writeTable (part.val.bars.map (parquetRow part))

def indexEntry : List (String × Json) :=
  part.reference ++ [("physical_path", .str (physicalPath part)),
      ("physical_format", .str "PARQUET"),
      ("physical_schema", .str marketDataParquetSchemaV2),
      ("physical_checksum", .str (platform.fileHash (partitionTable part)))]

/-- The content of `encoding.json`. -/
def encodingFields (artifact : MarketDataDatasetArtifact platform) : List (String × Json) :=
  [("encoding_version", .str marketDataPackageEncodingV2),
    ("logical_dataset_id", idText artifact.val.datasetId),
    ("logical_dataset_hash", .str artifact.val.contentHash),
    ("logical_hash_basis", .str "CANONICAL_LOGICAL_PAYLOAD"),
    ("physical_hash_basis", .str "FILE_SHA256")]

namespace ColumnarV2

def readObject (platform : Platform) (files : Package) (path : String) :
    Except Raised (List (String × Json)) :=
  readObjectFile platform ("invalid Market Data Encoding V2 JSON: " ++ path)
    "Market Data Encoding V2 JSON must be an object" files path

/-- What `_read_package_index` returns, but for the directory. -/
structure PackageIndex (platform : Platform) where
  checksums : List (String × String)
  artifactPayload : List (String × Json)
  policy : PriceAdjustmentPolicy platform
  entries : List (List (String × Json))

/-- `(str(item.get("symbol")), str(item.get("timeframe")))`. -/
def scopeKey (platform : Platform) (entry : List (String × Json)) : String ×ₗ String :=
  toLex (strOf platform (get entry "symbol"), strOf platform (get entry "timeframe"))

/-- `str(item.get("physical_path"))`. -/
def entryPath (platform : Platform) (entry : List (String × Json)) : String :=
  strOf platform (get entry "physical_path")

def readPackageIndex (platform : Platform) (files : Package) :
    Except Raised (PackageIndex platform) := do
  let actual := files.map (·.1)
  let checksumsRaw ← readObject platform files "SHA256SUMS.json"
  let checksums ← readChecksums checksumsRaw
    (.valueError "Market Data Encoding V2 checksum index mismatch")
  require (sameNames actual ("SHA256SUMS.json" :: checksums.map (·.1)) = true)
    (.valueError "Market Data Encoding V2 exact file set mismatch")
  let encoding ← readObject platform files "encoding.json"
  require (get encoding "encoding_version" = .str marketDataPackageEncodingV2)
    (.valueError "unsupported Market Data package encoding")
  let index ← readObject platform files "partition-index.json"
  let entries ← dictItems (get index "partitions")
    (.valueError "Market Data Encoding V2 partition index mismatch")
  require (isSortedSet id (entries.map (scopeKey platform)) = true)
    (.valueError "Market Data Encoding V2 partition scope mismatch")
  require ((entries.map (entryPath platform)).all
      (· ∈ checksums.map (·.1)) = true)
    (.valueError "Market Data Encoding V2 partition file missing")
  let artifactPayload ← readObject platform files "artifact.json"
  let policy ← PriceAdjustmentPolicy.fromCanonicalDict
    (← readObject platform files "adjustment-policy.json")
  return ⟨checksums, artifactPayload, policy, entries⟩

def jsonObject (platform : Platform) (value : String) : Except Raised (List (String × Json)) := do
  let payload ← orRaise (platform.loads value) (.valueError "Expecting value")
  orRaise payload.fields? (.valueError "Market Data Encoding V2 bar payload is invalid")

def projectionKeys : List String :=
  ["partition_id", "content_hash", "symbol", "timeframe",
    "first_market_date", "last_market_date", "bar_count", "relative_path"]

def readPartition (platform : Platform) (files : Package) (entry : List (String × Json)) :
    Except Raised (MarketDataPartition platform) := do
  let table ← readFile files (entryPath platform entry)
  let column ← orRaise (platform.readBarJson table)
    (.osError "not a Parquet file with a bar_json column")
  let bars ← column.mapM fun value => do
    CanonicalMarketBar.fromCanonicalDict (← jsonObject platform value)
  let part ← MarketDataPartition.create (strOf platform (← item entry "symbol"))
    (← StrEnum.parse Timeframe (strOf platform (← item entry "timeframe")))
    bars
  let projection ← projectionKeys.mapM fun key => do
    return (key, ← item entry key)
  require (part.referenceDict = dict projection)
    (.valueError "Market Data Encoding V2 partition projection mismatch")
  return part

/-- `_load_verified_market_data_dataset_v2`. -/
def load (platform : Platform) (name : String) (files : Package) (enforceDirectoryIdentity : Bool) :
    Except Raised (VerifiedMarketDataDataset platform) := do
  let index ← readPackageIndex platform files
  index.checksums.forM (verifyChecksum platform files "Market Data Encoding V2")
  let partitions ← index.entries.mapM (readPartition platform files)
  let artifact ← MarketDataDatasetArtifact.fromCanonicalDict
    index.artifactPayload partitions index.policy
  let encoding ← readObject platform files "encoding.json"
  require (get encoding "logical_dataset_id" = idText artifact.val.datasetId
      ∧ get encoding "logical_dataset_hash" = .str artifact.val.contentHash)
    (.valueError "Market Data Encoding V2 logical identity mismatch")
  require (enforceDirectoryIdentity = true → name = artifact.val.datasetId.val)
    (.valueError "Market Data Encoding V2 directory identity mismatch")
  return {
    root := name
    artifact := artifact
    bars := artifact.iterBars
    checksumsHash := platform.canonicalHash (checksumsJson index.checksums) }

def selectsSymbol (platform : Platform) (entry : List (String × Json)) :
    Option (List String) → Except Raised Bool
  | none => .ok true
  | some symbols => do
      return strOf platform (← item entry "symbol") ∈ symbols

def selectsTimeframe (platform : Platform) (entry : List (String × Json)) :
    Option (List Timeframe) → Except Raised Bool
  | none => .ok true
  | some timeframes => do
      return (← StrEnum.parse Timeframe (strOf platform (← item entry "timeframe"))) ∈ timeframes

def selectedEntries (platform : Platform) (symbols : Option (List String))
    (timeframes : Option (List Timeframe)) :
    List (List (String × Json)) → Except Raised (List (List (String × Json)))
  | [] => .ok []
  | entry :: entries => do
      let bySymbol ← selectsSymbol platform entry symbols
      -- the second filter is asked only when the first lets the entry pass
      let selected ←
        if bySymbol then selectsTimeframe platform entry timeframes
        else .ok false
      let others ← selectedEntries platform symbols timeframes entries
      return if selected then entry :: others else others

/-- The files that a selection always verifies. -/
def indexPaths : List String :=
  ["artifact.json", "adjustment-policy.json", "encoding.json", "partition-index.json"]

/-- `read_market_data_selection_v2`, of the files of a package. -/
def readSelection (platform : Platform) (name : String) (files : Package)
    (symbols : Option (List String)) (timeframes : Option (List Timeframe)) :
    Except Raised (MarketDataSelectionV2 platform) := do
  let index ← readPackageIndex platform files
  let selected ← selectedEntries platform symbols timeframes index.entries
  let verifiedNames := sortedDistinct (indexPaths ++ selected.map (entryPath platform))
  let verified ← verifiedNames.mapM fun path => do
    let expected ← orRaise (index.checksums.lookup path)
      (.valueError ("Market Data Encoding V2 checksum mismatch: " ++ path))
    verifyChecksum platform files "Market Data Encoding V2" (path, expected)
    return (path, expected)
  let partitions ← selected.mapM (readPartition platform files)
  let encoding ← readObject platform files "encoding.json"
  let datasetId := get index.artifactPayload "dataset_id"
  let datasetHash := get index.artifactPayload "content_hash"
  require (get encoding "logical_dataset_id" = datasetId
      ∧ get encoding "logical_dataset_hash" = datasetHash)
    (.valueError "Market Data Encoding V2 logical identity mismatch")
  return {
    root := name
    datasetId := strOf platform datasetId
    datasetHash := strOf platform datasetHash
    bars := partitions.flatMap (·.val.bars)
    selectedPartitionCount := selected.length
    physicalChecksumsHash := platform.canonicalHash (checksumsJson verified) }

/-- The files that `publish_market_data_dataset_v2` stages. -/
def stage (artifact : MarketDataDatasetArtifact platform) :
    Except Raised Package := do
  let files ← writeJson [] "artifact.json" artifact.toCanonicalDict
  let files ← writeJson files "adjustment-policy.json" artifact.val.adjustmentPolicy.toCanonicalDict
  -- a table takes the place of a file that is there
  let files := artifact.val.partitions.foldl (fun files part =>
    setItem files (physicalPath part) (partitionTable part)) files
  let files ← writeJson files "encoding.json" (dict (encodingFields artifact))
  let files ← writeJson files "partition-index.json" (dict [("partitions",
      .arr (artifact.val.partitions.map fun part => dict (indexEntry part)))])
  let checksums ← checksumsOf platform files (files.map (·.1))
  writeJson files "SHA256SUMS.json" (checksumsJson checksums)

end ColumnarV2

-- ==== publication

variable (root : Root)

def packageAt (path notADirectory : String) : Except Raised Package :=
  orRaise (root.lookup path) (.valueError notADirectory)

def loadVerifiedMarketDataDatasetV2 (platform : Platform) (root : Root)
    (path : String) : Except Raised (VerifiedMarketDataDataset platform) := do
  let files ← packageAt root path "Market Data Encoding V2 path is not a directory"
  ColumnarV2.load platform path files true

def loadVerifiedMarketDataDataset (platform : Platform) (root : Root) (path : String)
    (symbols : Option (List String)) (timeframes : Option (List Timeframe)) :
    Except Raised (VerifiedMarketDataDataset platform) := do
  let files ← packageAt root path "Market Data Dataset package path is not a directory"
  let verified ←
    if (files.lookup "encoding.json").isSome then
      ColumnarV2.load platform path files true
    else JsonV1.load platform path files true
  return { verified with
    bars := verified.bars.filter fun bar =>
      symbols.all (bar.val.symbol ∈ ·) && timeframes.all (bar.val.timeframe ∈ ·) }

def readMarketDataSelectionV2 (platform : Platform) (root : Root) (path : String)
    (symbols : Option (List String)) (timeframes : Option (List Timeframe)) :
    Except Raised (MarketDataSelectionV2 platform) := do
  let files ← packageAt root path "Market Data Encoding V2 path is not a directory"
  ColumnarV2.readSelection platform path files symbols timeframes

/-- What is there already is the artifact; else it conflicts. -/
def requireExisting (artifact : MarketDataDatasetArtifact platform)
    (existing : VerifiedMarketDataDataset platform) (conflict : String) :
    Except Raised Unit :=
  require (existing.artifact.toCanonicalDict = artifact.toCanonicalDict) (.osError conflict)

/-- `_publish_market_data_dataset_json_v1`: the root afterwards and the
path. -/
def publishMarketDataDatasetJsonV1 (artifact : MarketDataDatasetArtifact platform) :
    Except Raised (Root × String) := do
  artifact.verifyIdentity
  let final := artifact.val.datasetId.val
  match root.lookup final with
  | some _ => do
      let existing ← loadVerifiedMarketDataDataset platform root final none none
      requireExisting artifact existing ("conflicting Market Data Dataset exists: " ++ final)
      return (root, final)
  | none => do
      let files ← JsonV1.stage artifact
      let _ ← JsonV1.load platform final files false
      return ((final, files) :: root, final)

def publishMarketDataDatasetV2 (artifact : MarketDataDatasetArtifact platform) :
    Except Raised (Root × String) := do
  artifact.verifyIdentity
  let final := artifact.val.datasetId.val
  match root.lookup final with
  | some _ => do
      let existing ← loadVerifiedMarketDataDatasetV2 platform root final
      requireExisting artifact existing ("conflicting Market Data Encoding V2 exists: " ++ final)
      return (root, final)
  | none => do
      let files ← ColumnarV2.stage artifact
      let _ ← ColumnarV2.load platform final files false
      return ((final, files) :: root, final)

def publishMarketDataDataset (artifact : MarketDataDatasetArtifact platform)
    (encodingVersion : String) :
    Except Raised (Root × String) :=
  if encodingVersion = marketDataPackageEncodingV2 then
    publishMarketDataDatasetV2 root artifact
  else if encodingVersion = "market-data-package-json-v1" then
    publishMarketDataDatasetJsonV1 root artifact
  else .error (.valueError "unsupported Market Data physical encoding")

/-- `migrate_market_data_package_v1_to_v2`: the target root afterwards and
the path. -/
def migrateMarketDataPackageV1ToV2 (platform : Platform) (source : Root)
    (sourcePath : String) (target : Root) : Except Raised (Root × String) := do
  let files ← packageAt source sourcePath "Market Data Dataset package path is not a directory"
  require (files.lookup "encoding.json" = none)
    (.valueError "Market Data migration source must use JSON V1 encoding")
  let verified ← JsonV1.load platform sourcePath files true
  let (target', migrated) ← publishMarketDataDatasetV2 target verified.artifact
  let reloaded ← loadVerifiedMarketDataDataset platform target' migrated none none
  require (reloaded.artifact.toCanonicalDict = verified.artifact.toCanonicalDict)
    (.valueError "Market Data V1 to V2 migration changed logical identity")
  return (target', migrated)

end MarketRegimeAlpha.MarketData
