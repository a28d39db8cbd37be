/-
The values of market data and their canonical spellings.

# What stands for what

A `Decimal` is the number it stands for, as the one triple that has no
trailing zeros (`PlainDecimal`): two that compare equal are one. A
`datetime` that has passed `require_utc_second` is a date and a time of
UTC without a fraction (`UtcSecond`). A hash is its text, a dictionary
its fields sorted by key.

A reader of a spelling accepts exactly the spellings the writer writes:
what it reads, it writes again and compares.

What lies outside is a parameter (`Platform`): the Unicode classes behind
`str.isdigit` and `str.strip`, the time zone of Shanghai, SHA-256, and how
JSON and Parquet are laid out in bytes.
-/
import MarketRegimeAlpha.Lib.Record
import MarketRegimeAlpha.Shared.Proofs.Scalars
import Mathlib.Data.Prod.Lex

namespace MarketRegimeAlpha.MarketData

open Lib
open Shared (Date Time isoDate isoTime formatFixed daysInMonth)

-- ==== numbers

/-- A finite decimal number, without trailing zeros. -/
@[ext] structure PlainDecimal where
  negative : Bool
  coefficient : Nat
  exponent : Int
  zero_plain : coefficient = 0 → negative = false ∧ exponent = 0
  no_trailing_zero : coefficient ≠ 0 → coefficient % 10 ≠ 0
  deriving DecidableEq

namespace PlainDecimal

/-- The triple behind it. -/
def toDecimal (d : PlainDecimal) : Decimal := ⟨d.negative, d.coefficient, d.exponent⟩

/-- The number it stands for. -/
def value (d : PlainDecimal) : ℚ := d.toDecimal.value

def zero : PlainDecimal := ⟨false, 0, 0, fun _ => ⟨rfl, rfl⟩, fun h => absurd rfl h⟩

def one : PlainDecimal := ⟨false, 1, 0, fun h => absurd h (by decide), fun _ => by decide⟩

end PlainDecimal

theorem stripZeros_plain {k c : Nat} (hc : c ≠ 0) (hlt : c < 10 ^ k) :
    (Decimal.stripZeros k c).1 ≠ 0 ∧ (Decimal.stripZeros k c).1 % 10 ≠ 0 := by
  induction k generalizing c with
  | zero => omega
  | succ k ih =>
    unfold Decimal.stripZeros
    by_cases hzero : c % 10 = 0
    · rw [if_pos hzero]
      apply ih
      · omega
      · rw [pow_succ] at hlt
        omega
    · rw [if_neg hzero]
      exact ⟨hc, hzero⟩

def Decimal.plain (d : Decimal) : PlainDecimal :=
  if h : d.coefficient = 0 then PlainDecimal.zero
  else
    let stripped := Decimal.stripZeros d.coefficient d.coefficient
    have hplain := stripZeros_plain h (Nat.lt_pow_self (by decide : 1 < 10))
    ⟨d.negative, stripped.1, d.exponent + stripped.2,
      fun hzero => absurd hzero hplain.1, fun _ => hplain.2⟩

/-- From `2 ** 1024 - 2 ** 970` on a number rounds to an infinite
`float`. -/
def floatOverflow : ℚ := 2 ^ 1024 - 2 ^ 970

def requireDecimal (label : String) (value : PlainDecimal)
    (positive nonNegative : Bool) : Except Raised Unit := do
  require (|value.value| < floatOverflow) (.valueError (label ++ " must be finite"))
  require (¬ (positive ∧ value.value ≤ 0)) (.valueError (label ++ " must be positive"))
  require (¬ (nonNegative ∧ value.value < 0)) (.valueError (label ++ " must be non-negative"))

/-- `text.rstrip(c)`. -/
def rstrip (c : Char) (text : List Char) : List Char := (text.reverse.dropWhile (· = c)).reverse

/-- The spelling of `canonical_decimal`. -/
def decimalText (value : PlainDecimal) : String :=
  if value.coefficient = 0 then "0"
  else
    let rendered := formatFixed value.toDecimal
    String.ofList (if '.' ∈ rendered then rstrip '.' (rstrip '0' rendered)
      else rendered)

/-- The number a text of digits with a point spells, if it is one. -/
def readDecimal (text : String) : PlainDecimal :=
  let chars := text.toList
  let negative := chars.head? = some '-'
  let unsigned := if negative then chars.drop 1 else chars
  let whole := unsigned.takeWhile Char.isDigit
  let places := (unsigned.dropWhile Char.isDigit).drop 1
  Decimal.plain ⟨negative, Nat.ofDigitChars 10 (whole ++ places) 0, -places.length⟩

def parseCanonicalDecimal (label : String) (value : Json) :
    Except Raised PlainDecimal := do
  let text ← orRaise value.text? (.valueError (label ++ " must be a canonical decimal string"))
  let parsed := readDecimal text
  require (decimalText parsed = text) (.valueError (label ++ " must be a canonical decimal string"))
  requireDecimal "canonical decimal" parsed false false
  return parsed

def canonicalDecimal (value : PlainDecimal) : Json := .str (decimalText value)

/-- What is written as `null` when it is missing. -/
def orNull {α : Type} (write : α → Json) : Option α → Json
  | some a => write a
  | none => .null

/-- What is missing when it is `null`, as of `_optional_decimal`. -/
def unlessNull {α : Type} (read : Json → Except Raised α) : Json → Except Raised (Option α)
  | .null => .ok none
  | value => some <$> read value

def positiveInt (label : String) (value : Json) : Except Raised Nat :=
  match value with
  | .int n =>
    if 0 < n then .ok n.toNat
    else .error (.valueError (label ++ " must be a positive integer"))
  | _ => .error (.valueError (label ++ " must be a positive integer"))

def dictItems (value : Json) (e : Raised) : Except Raised (List (List (String × Json))) := do
  let items ← orRaise value.items? e
  items.mapM fun entry => orRaise entry.fields? e

def textItems (value : Json) (e : Raised) : Except Raised (List String) := do
  let items ← orRaise value.items? e
  items.mapM fun entry => orRaise entry.text? e

-- ==== dates and times

def readNumber (text : List Char) : Nat := Nat.ofDigitChars 10 text 0

/-- The date these characters spell, as `isoformat()` spells it. -/
def readDate (text : List Char) : Option Date :=
  let year := readNumber (text.take 4)
  let month := readNumber ((text.drop 5).take 2)
  let day := readNumber ((text.drop 8).take 2)
  if h : (1 ≤ year ∧ year ≤ 9999) ∧ (1 ≤ month ∧ month ≤ 12)
      ∧ 1 ≤ day ∧ day ≤ daysInMonth year month then
    let date : Date := ⟨year, month, day, h.1, h.2.1, h.2.2⟩
    if isoDate date = text then some date else none
  else none

/-- `date.isoformat()`, as a JSON value. -/
def dateText (date : Date) : String := String.ofList (isoDate date)

def dateFromText (text : String) : Except Raised Date :=
  orRaise (readDate text.toList) (.valueError ("Invalid isoformat string: '" ++ text ++ "'"))

/-- The time these characters spell, without a fraction. -/
def readTime (text : List Char) : Option Time :=
  let hour := readNumber (text.take 2)
  let minute := readNumber ((text.drop 3).take 2)
  let second := readNumber ((text.drop 6).take 2)
  if h : hour < 24 ∧ minute < 60 ∧ second < 60 then
    let time : Time := ⟨hour, minute, second, 0, h.1, h.2.1, h.2.2, Time.zero_microsecond⟩
    if isoTime time = text then some time else none
  else none

/-- A `datetime` in UTC at whole seconds. -/
structure UtcSecond where
  date : Date
  time : Time
  whole_second : time.microsecond = 0
  deriving DecidableEq

namespace UtcSecond

def seconds (t : UtcSecond) : Nat :=
  t.date.toOrdinal * 86400 + (t.time.hour * 60 + t.time.minute) * 60 + t.time.second

/-- `canonical_datetime`. -/
def text (t : UtcSecond) : String :=
  String.ofList (isoDate t.date ++ 'T' :: (isoTime t.time ++ ['Z']))

/-- The instant a text spells as `canonical_datetime` does. -/
def ofText (text : String) : Option UtcSecond :=
  match readDate (text.toList.take 10), readTime ((text.toList.drop 11).take 8) with
  | some date, some time =>
    if h : time.microsecond = 0 then
      if (UtcSecond.mk date time h).text = text then some ⟨date, time, h⟩
      else none
    else none
  | _, _ => none

end UtcSecond

/-- `parse_utc_second`: a text that `fromisoformat` reads but
`canonical_datetime` spells otherwise is refused like one it does not
read. -/
def parseUtcSecond (label : String) (value : Json) :
    Except Raised UtcSecond := do
  let text ← orRaise value.text? (.valueError (label ++ " must be canonical UTC RFC3339"))
  orRaise (UtcSecond.ofText text) (.valueError (label ++ " must be canonical UTC RFC3339"))

def dateKey (date : Date) : ℕ ×ₗ ℕ ×ₗ ℕ := toLex (date.year, toLex (date.month, date.day))

-- ==== enumerations

inductive Exchange where
  | sh
  | sz
  | bj
  deriving DecidableEq

inductive AssetType where
  | aShare
  | etf
  | index
  deriving DecidableEq

inductive Timeframe where
  | daily
  | minute1
  | minute5
  | minute15
  | minute30
  | minute60
  deriving DecidableEq

inductive AdjustmentMode where
  | raw
  | pitAdjusted
  | researchBackAdjusted
  deriving DecidableEq

inductive TradingStatus where
  | trading
  | suspended
  | unknown
  deriving DecidableEq

inductive PriceLimitState where
  | normal
  | limitUp
  | limitDown
  | unknown
  deriving DecidableEq

inductive VolumeUnit where
  | shares
  | lots
  deriving DecidableEq

inductive DataEligibility where
  | unqualified
  | exploratory
  | rehearsal
  | formalResearch
  deriving DecidableEq

inductive FormalPitStatus where
  | formalPitNotEstablished
  | pitCorrectForDeclaredScope
  deriving DecidableEq

inductive DatasetCoverageState where
  | complete
  | partiallyCovered
  deriving DecidableEq

/-- `duration`, in seconds. -/
def Timeframe.duration : Timeframe → Option Nat
  | .daily => none
  | .minute1 => some 60
  | .minute5 => some 300
  | .minute15 => some 900
  | .minute30 => some 1800
  | .minute60 => some 3600

instance : StrEnum Exchange where
  name := "Exchange"
  members := [.sh, .sz, .bj]
  text
    | .sh => "SH"
    | .sz => "SZ"
    | .bj => "BJ"
  find_text a := by cases a <;> rfl

instance : StrEnum AssetType where
  name := "AssetType"
  members := [.aShare, .etf, .index]
  text
    | .aShare => "A_SHARE"
    | .etf => "ETF"
    | .index => "INDEX"
  find_text a := by cases a <;> rfl

instance : StrEnum Timeframe where
  name := "Timeframe"
  members := [.daily, .minute1, .minute5, .minute15, .minute30, .minute60]
  text
    | .daily => "DAILY"
    | .minute1 => "MINUTE_1"
    | .minute5 => "MINUTE_5"
    | .minute15 => "MINUTE_15"
    | .minute30 => "MINUTE_30"
    | .minute60 => "MINUTE_60"
  find_text a := by cases a <;> rfl

instance : StrEnum AdjustmentMode where
  name := "AdjustmentMode"
  members := [.raw, .pitAdjusted, .researchBackAdjusted]
  text
    | .raw => "RAW"
    | .pitAdjusted => "PIT_ADJUSTED"
    | .researchBackAdjusted => "RESEARCH_BACK_ADJUSTED"
  find_text a := by cases a <;> rfl

instance : StrEnum TradingStatus where
  name := "TradingStatus"
  members := [.trading, .suspended, .unknown]
  text
    | .trading => "TRADING"
    | .suspended => "SUSPENDED"
    | .unknown => "UNKNOWN"
  find_text a := by cases a <;> rfl

instance : StrEnum PriceLimitState where
  name := "PriceLimitState"
  members := [.normal, .limitUp, .limitDown, .unknown]
  text
    | .normal => "NORMAL"
    | .limitUp => "LIMIT_UP"
    | .limitDown => "LIMIT_DOWN"
    | .unknown => "UNKNOWN"
  find_text a := by cases a <;> rfl

instance : StrEnum VolumeUnit where
  name := "VolumeUnit"
  members := [.shares, .lots]
  text
    | .shares => "SHARES"
    | .lots => "LOTS"
  find_text a := by cases a <;> rfl

instance : StrEnum DataEligibility where
  name := "DataEligibility"
  members := [.unqualified, .exploratory, .rehearsal, .formalResearch]
  text
    | .unqualified => "UNQUALIFIED"
    | .exploratory => "EXPLORATORY"
    | .rehearsal => "REHEARSAL"
    | .formalResearch => "FORMAL_RESEARCH"
  find_text a := by cases a <;> rfl

instance : StrEnum FormalPitStatus where
  name := "FormalPitStatus"
  members := [.formalPitNotEstablished, .pitCorrectForDeclaredScope]
  text
    | .formalPitNotEstablished => "FORMAL_PIT_NOT_ESTABLISHED"
    | .pitCorrectForDeclaredScope => "PIT_CORRECT_FOR_DECLARED_SCOPE"
  find_text a := by cases a <;> rfl

instance : StrEnum DatasetCoverageState where
  name := "DatasetCoverageState"
  members := [.complete, .partiallyCovered]
  text
    | .complete => "COMPLETE"
    | .partiallyCovered => "PARTIAL"
  find_text a := by cases a <;> rfl

-- ==== outside

structure ParquetRow where
  schemaVersion : String
  symbol : String
  timeframe : String
  marketDate : String
  eventStart : String
  barId : String
  barHash : String
  barJson : String

/-- What is not market data. -/
structure Platform where
  /-- `str.isdigit` of one character. -/
  isDigit : Char → Bool
  /-- `value == value.strip()`. -/
  isStripped : String → Bool
  /-- `str(value)` of a list or a dictionary. -/
  containerText : Json → String
  /-- `astimezone(_SHANGHAI).date()`. -/
  shanghaiDate : UtcSecond → Date
  /-- `sha256(content).hexdigest()`. -/
  sha256 : ByteArray → String
  /-- `json.loads`. -/
  loads : String → Option Json
  /-- `pq.write_table`. -/
  writeTable : List ParquetRow → ByteArray
  /-- `pq.read_table`, the column `bar_json`. -/
  readBarJson : ByteArray → Option (List String)

def canonicalJson (payload : Json) : String := payload.dumps ⟨false, true⟩

/-- The content of a file that `_write_json` writes. -/
def jsonFile (payload : Json) : ByteArray := (canonicalJson payload ++ "\n").toUTF8

namespace Platform

def fileHash (platform : Platform) (content : ByteArray) : String :=
  "sha256:" ++ platform.sha256 content

def canonicalHash (platform : Platform) (payload : Json) : String :=
  platform.fileHash (canonicalJson payload).toUTF8

/-- JSON and Parquet are read back as what was written. -/
structure Lossless (platform : Platform) : Prop where
  loads_canonicalJson : ∀ payload : Json, payload.Canonical →
    platform.loads (canonicalJson payload) = some payload
  /-- A line break at the end is no part of the value. -/
  loads_line : ∀ payload : Json, payload.Canonical →
    platform.loads (canonicalJson payload ++ "\n") = some payload
  readBarJson_writeTable : ∀ rows, platform.readBarJson (platform.writeTable rows)
      = some (rows.map (·.barJson))

end Platform

-- ==== plain checks

/-- `^sha256:[0-9a-f]{64}$`. -/
def isSha256Text (value : String) : Bool :=
  let chars := value.toList
  chars.take 7 = ['s', 'h', 'a', '2', '5', '6', ':'] && (chars.drop 7).length = 64
    && (chars.drop 7).all fun c => Lib.isDigit c || ('a' ≤ c && c ≤ 'f')

def requireSha256 (label value : String) : Except Raised Unit :=
  require (isSha256Text value = true)
    (.valueError (label ++ " must be a sha256-prefixed lowercase digest"))

def requireCanonicalSymbol (platform : Platform) (symbol : String)
    (exchange : Exchange) : Except Raised Unit := do
  let chars := symbol.toList
  require (chars.length = 9 ∧ (chars.drop 6).head? = some '.'
      ∧ (chars.take 6).all platform.isDigit = true)
    (.valueError "symbol must use canonical six-digit EXCHANGE suffix form")
  require (chars.drop 7 = (StrEnum.text exchange).toList)
    (.valueError "symbol exchange suffix does not match exchange")

def requireText (platform : Platform) (label value : String) :
    Except Raised Unit :=
  require (value ≠ "" ∧ platform.isStripped value = true)
    (.valueError (label ++ " must be a non-empty trimmed string"))

def requireUniqueText (platform : Platform) (label : String)
    (values : List String) : Except Raised Unit := do
  values.forM (requireText platform label)
  require values.Nodup (.valueError (label ++ " values must be unique"))

def isSorted {α : Type} [LinearOrder α] (values : List α) : Bool := values = sortBy id values

def validateIdentity (platform : Platform) (value : String) :
    Except Raised Unit := do
  require (value ≠ "") (.valueError "identity value must not be empty")
  require (platform.isStripped value = true) (.valueError
    "identity value must not contain leading or trailing whitespace")
  require ((value.toList.all fun c => 32 ≤ c.toNat && c.toNat ≠ 127) = true)
    (.valueError "identity value must not contain control characters")

/-- `ArtifactId`, and `DatasetId`. -/
abbrev ArtifactId (platform : Platform) := Sealed (validateIdentity platform)

def strOf (platform : Platform) : Json → String
  | .null => "None"
  | .bool true => "True"
  | .bool false => "False"
  | .int n => String.ofList (if n < 0 then '-' :: digits n.natAbs
      else digits n.natAbs)
  | .str s => s
  | value => platform.containerText value

def artifactId (platform : Platform) (value : Json) : Except Raised (ArtifactId platform) :=
  construct (validateIdentity platform) (strOf platform value)

def idText {platform : Platform} (id : ArtifactId platform) : Json := .str id.val

/-- `content_hash.split(":", 1)[1][:24]`. -/
def shortDigest (contentHash : String) : String :=
  String.ofList ((contentHash.toList.drop 7).take 24)

/-- `verify_identity` of an object with this name, whose id begins with
`head`: its hash is that of its payload, and its id is made of the hash. -/
def verifyContent (platform : Platform) (name head contentHash id : String)
    (payload : Json) : Except Raised Unit := do
  let expectedHash := platform.canonicalHash payload
  require (contentHash = expectedHash) (.valueError (name ++ " payload hash mismatch"))
  require (id = head ++ shortDigest expectedHash) (.valueError (name ++ " identity mismatch"))

end MarketRegimeAlpha.MarketData
