/-
The canonical market bar: its fields, what its constructor checks, and
its dictionary.

# Identity

The content hash covers every field but the hash itself and the id made
of it (`BarValues`). The constructor does not compare the two;
`verifyIdentity` does, and a bar that is read is verified.
-/
import MarketRegimeAlpha.MarketData.Values

namespace MarketRegimeAlpha.MarketData

open Lib
open Shared (Date)

variable {platform : Platform}

-- ==== the fields

/-- The fields of a bar that its content hash covers. -/
structure BarValues (platform : Platform) where
  symbol : String
  exchange : Exchange
  assetType : AssetType
  timeframe : Timeframe
  marketDate : Date
  (eventStart eventEnd availableAt : UtcSecond)
  /-- `open`. -/
  (openPrice high low close : PlainDecimal)
  previousClose : Option PlainDecimal
  volume : PlainDecimal
  volumeUnit : VolumeUnit
  (amount turnoverRate : Option PlainDecimal)
  adjustmentMode : AdjustmentMode
  adjustmentFactor : PlainDecimal
  adjustmentFactorId : Option (ArtifactId platform)
  adjustmentFactorHash : Option String
  tradingStatus : TradingStatus
  priceLimitState : PriceLimitState
  sourceArtifactId : ArtifactId platform
  sourceContentHash : String

structure BarFields (platform : Platform) extends BarValues platform where
  schemaVersion : String
  barId : ArtifactId platform
  contentHash : String

def marketBarSchemaVersion : String := "canonical-market-bar-v1"

variable (bar : BarValues platform)

def BarValues.checkAdjustment : Except Raised Unit :=
  match bar.adjustmentMode with
  | .raw => do
      require (bar.adjustmentFactor = PlainDecimal.one)
        (.valueError "RAW adjustment factor must equal one")
      require (bar.adjustmentFactorId = none ∧ bar.adjustmentFactorHash = none)
        (.valueError "RAW bars cannot bind adjustment factor evidence")
  | _ =>
    require (bar.adjustmentFactorId.isSome ∧ bar.adjustmentFactorHash.isSome)
      (.valueError "adjusted bars require adjustment factor evidence")

/-- `CanonicalMarketBar.__post_init__`. -/
def BarFields.check (bar : BarFields platform) : Except Raised Unit := do
  require (bar.schemaVersion = marketBarSchemaVersion)
    (.valueError "unsupported Canonical Market Bar schema")
  requireSha256 "content_hash" bar.contentHash
  requireCanonicalSymbol platform bar.symbol bar.exchange
  require (bar.eventStart.seconds < bar.eventEnd.seconds)
    (.valueError "event_start must precede event_end")
  require (bar.eventEnd.seconds ≤ bar.availableAt.seconds)
    (.valueError "available_at cannot precede event_end")
  require (platform.shanghaiDate bar.eventStart = bar.marketDate)
    (.valueError "market_date must match event_start in Asia/Shanghai")
  require (∀ duration ∈ bar.timeframe.duration,
      bar.eventEnd.seconds - bar.eventStart.seconds = duration)
    (.valueError "event interval does not match timeframe duration")
  requireDecimal "open" bar.openPrice true false
  requireDecimal "high" bar.high true false
  requireDecimal "low" bar.low true false
  requireDecimal "close" bar.close true false
  bar.previousClose.forM (requireDecimal "previous_close" · true false)
  require (max (max bar.openPrice.value bar.low.value) bar.close.value ≤ bar.high.value)
    (.valueError "high is below another OHLC value")
  require (bar.low.value ≤ min (min bar.openPrice.value bar.high.value) bar.close.value)
    (.valueError "low exceeds another OHLC value")
  requireDecimal "volume" bar.volume false true
  bar.amount.forM (requireDecimal "amount" · false true)
  bar.turnoverRate.forM (requireDecimal "turnover_rate" · false true)
  requireDecimal "adjustment_factor" bar.adjustmentFactor true false
  bar.checkAdjustment
  require (bar.adjustmentFactorId.isNone = bar.adjustmentFactorHash.isNone)
    (.valueError "adjustment factor identity and hash must be paired")
  bar.adjustmentFactorHash.forM (requireSha256 "adjustment_factor_hash")
  requireSha256 "source_content_hash" bar.sourceContentHash

abbrev CanonicalMarketBar (platform : Platform) := Sealed (@BarFields.check platform)

-- ==== the dictionary

/-- The fields of `_payload`. -/
def BarValues.payload : List (String × Json) :=
  [("schema_version", .str marketBarSchemaVersion), ("symbol", .str bar.symbol),
    ("exchange", .str (StrEnum.text bar.exchange)),
    ("asset_type", .str (StrEnum.text bar.assetType)),
    ("timeframe", .str (StrEnum.text bar.timeframe)),
    ("market_date", .str (dateText bar.marketDate)),
    ("event_start", .str bar.eventStart.text),
    ("event_end", .str bar.eventEnd.text),
    ("available_at", .str bar.availableAt.text),
    ("open", canonicalDecimal bar.openPrice),
    ("high", canonicalDecimal bar.high),
    ("low", canonicalDecimal bar.low),
    ("close", canonicalDecimal bar.close),
    ("previous_close", orNull canonicalDecimal bar.previousClose),
    ("volume", canonicalDecimal bar.volume),
    ("volume_unit", .str (StrEnum.text bar.volumeUnit)),
    ("amount", orNull canonicalDecimal bar.amount),
    ("turnover_rate", orNull canonicalDecimal bar.turnoverRate),
    ("adjustment_mode", .str (StrEnum.text bar.adjustmentMode)),
    ("adjustment_factor", canonicalDecimal bar.adjustmentFactor),
    ("adjustment_factor_id", orNull idText bar.adjustmentFactorId),
    ("adjustment_factor_hash", orNull .str bar.adjustmentFactorHash),
    ("trading_status", .str (StrEnum.text bar.tradingStatus)),
    ("price_limit_state", .str (StrEnum.text bar.priceLimitState)),
    ("source_artifact_id", idText bar.sourceArtifactId),
    ("source_content_hash", .str bar.sourceContentHash)]

def BarValues.semanticPayload : Json := dict bar.payload

def CanonicalMarketBar.verifyIdentity (bar : CanonicalMarketBar platform) :
    Except Raised Unit :=
  verifyContent platform "Canonical Market Bar" "market-bar-"
    bar.val.contentHash bar.val.barId.val bar.val.semanticPayload

/-- `_payload` refuses a number that is not finite, before anything else
is checked. -/
def BarValues.checkFinite : Except Raised Unit := do
  requireDecimal "open" bar.openPrice false false
  requireDecimal "high" bar.high false false
  requireDecimal "low" bar.low false false
  requireDecimal "close" bar.close false false
  bar.previousClose.forM (requireDecimal "previous_close" · false false)
  requireDecimal "volume" bar.volume false false
  bar.amount.forM (requireDecimal "amount" · false false)
  bar.turnoverRate.forM (requireDecimal "turnover_rate" · false false)
  requireDecimal "adjustment_factor" bar.adjustmentFactor false false

def CanonicalMarketBar.create (values : BarValues platform) :
    Except Raised (CanonicalMarketBar platform) := do
  values.checkFinite
  let contentHash := platform.canonicalHash values.semanticPayload
  let barId ← construct (validateIdentity platform) ("market-bar-" ++ shortDigest contentHash)
  let bar ← construct BarFields.check { values with
      schemaVersion := marketBarSchemaVersion
      barId := barId
      contentHash := contentHash }
  CanonicalMarketBar.verifyIdentity bar
  return bar

def CanonicalMarketBar.fields (bar : CanonicalMarketBar platform) : List (String × Json) :=
  ("bar_id", idText bar.val.barId) :: ("content_hash", .str bar.val.contentHash) :: bar.val.payload

def CanonicalMarketBar.toCanonicalDict (bar : CanonicalMarketBar platform) :
    Json :=
  dict bar.fields

def barKeys : List String :=
  ["bar_id", "content_hash", "schema_version", "symbol", "exchange",
    "asset_type", "timeframe", "market_date", "event_start", "event_end",
    "available_at", "open", "high", "low", "close", "previous_close", "volume",
    "volume_unit", "amount", "turnover_rate", "adjustment_mode",
    "adjustment_factor", "adjustment_factor_id", "adjustment_factor_hash",
    "trading_status", "price_limit_state", "source_artifact_id",
    "source_content_hash"]

def CanonicalMarketBar.fromCanonicalDict (payload : List (String × Json)) :
    Except Raised (CanonicalMarketBar platform) := do
  require (hasKeys payload barKeys = true) (.valueError "Canonical Market Bar fields mismatch")
  let bar ← construct BarFields.check
    { schemaVersion := strOf platform (← item payload "schema_version")
      barId := ← artifactId platform (← item payload "bar_id")
      contentHash := strOf platform (← item payload "content_hash")
      symbol := strOf platform (← item payload "symbol")
      exchange := ← StrEnum.parse Exchange (strOf platform (← item payload "exchange"))
      assetType := ← StrEnum.parse AssetType (strOf platform (← item payload "asset_type"))
      timeframe := ← StrEnum.parse Timeframe (strOf platform (← item payload "timeframe"))
      marketDate := ← dateFromText (strOf platform (← item payload "market_date"))
      eventStart := ← parseUtcSecond "event_start" (← item payload "event_start")
      eventEnd := ← parseUtcSecond "event_end" (← item payload "event_end")
      availableAt := ← parseUtcSecond "available_at" (← item payload "available_at")
      openPrice := ← parseCanonicalDecimal "open" (← item payload "open")
      high := ← parseCanonicalDecimal "high" (← item payload "high")
      low := ← parseCanonicalDecimal "low" (← item payload "low")
      close := ← parseCanonicalDecimal "close" (← item payload "close")
      previousClose := ← unlessNull (parseCanonicalDecimal "previous_close")
        (← item payload "previous_close")
      volume := ← parseCanonicalDecimal "volume" (← item payload "volume")
      volumeUnit := ← StrEnum.parse VolumeUnit (strOf platform (← item payload "volume_unit"))
      amount := ← unlessNull (parseCanonicalDecimal "amount") (← item payload "amount")
      turnoverRate := ← unlessNull (parseCanonicalDecimal "turnover_rate")
        (← item payload "turnover_rate")
      adjustmentMode := ← StrEnum.parse AdjustmentMode
        (strOf platform (← item payload "adjustment_mode"))
      adjustmentFactor := ← parseCanonicalDecimal "adjustment_factor"
        (← item payload "adjustment_factor")
      adjustmentFactorId := ← unlessNull (artifactId platform)
        (← item payload "adjustment_factor_id")
      adjustmentFactorHash := ← unlessNull (fun value => .ok (strOf platform value))
        (← item payload "adjustment_factor_hash")
      tradingStatus := ← StrEnum.parse TradingStatus
        (strOf platform (← item payload "trading_status"))
      priceLimitState := ← StrEnum.parse PriceLimitState
        (strOf platform (← item payload "price_limit_state"))
      sourceArtifactId := ← artifactId platform (← item payload "source_artifact_id")
      sourceContentHash := strOf platform (← item payload "source_content_hash") }
  CanonicalMarketBar.verifyIdentity bar
  return bar

end MarketRegimeAlpha.MarketData
