/-
Canonical content hashing: the normalization of a value to JSON and the
hash of its text.

# What stands for what

A `Value` is a Python value as `_normalize` sees it, with one constructor
for each kind of value that it tells apart. A member of an enumeration
is the value it has, a mapping its items in insertion order, with keys
that are texts, and a set its members in iteration order. A text has no
lone surrogates, and a `Decimal` is finite. A UUID is its number, and a
`datetime` its wall time and its offset from UTC, if it has one. The hash
of a text is a parameter: what SHA-256 makes of its UTF-8 bytes.
-/
import MarketRegimeAlpha.Lib.Decimal
import MarketRegimeAlpha.Lib.Json

namespace MarketRegimeAlpha.Shared

open Lib

-- ==== the calendar

def isLeap (year : Nat) : Bool := year % 4 = 0 && (year % 100 ≠ 0 || year % 400 = 0)

def daysInMonth (year month : Nat) : Nat :=
  if month = 2 then if isLeap year then 29 else 28
  else if month ∈ [4, 6, 9, 11] then 30 else 31

@[ext] structure Date where
  (year month day : Nat)
  year_bounds : 1 ≤ year ∧ year ≤ 9999
  month_bounds : 1 ≤ month ∧ month ≤ 12
  day_bounds : 1 ≤ day ∧ day ≤ daysInMonth year month
  deriving DecidableEq

/-- A naive `time`. -/
@[ext] structure Time where
  (hour minute second microsecond : Nat)
  hour_lt : hour < 24
  minute_lt : minute < 60
  second_lt : second < 60
  microsecond_lt : microsecond < 1000000
  deriving DecidableEq

theorem Time.zero_minute : 0 < 60 := by
  decide

theorem Time.zero_microsecond : 0 < 1000000 := by
  decide

/-- The date of the samples. -/
def Date.sample : Date := ⟨2024, 1, 2, by decide, (by decide : 0 < 1 ∧ 1 ≤ 12), by decide⟩

@[ext] structure UtcOffset where
  microseconds : Int
  lt_day : microseconds.natAbs < 86400000000
  deriving DecidableEq

structure DateTime where
  date : Date
  time : Time
  utcoffset : Option UtcOffset

@[ext] structure TimeDelta where
  days : Int
  (seconds microseconds : Nat)
  seconds_lt : seconds < 86400
  microseconds_lt : microseconds < 1000000

/-- `date.toordinal()`. -/
def Date.toOrdinal (d : Date) : Nat :=
  let before := d.year - 1
  before * 365 + before / 4 - before / 100 + before / 400
    + ((List.range (d.month - 1)).map fun m => daysInMonth d.year (m + 1)).sum
    + d.day

def Time.ofDay (t : Time) : Nat :=
  ((t.hour * 60 + t.minute) * 60 + t.second) * 1000000 + t.microsecond

/-- The instant of an aware `datetime`, in microseconds of UTC. -/
def DateTime.instant (d : DateTime) (offset : UtcOffset) : Int :=
  d.date.toOrdinal * 86400000000 + d.time.ofDay - offset.microseconds

-- ==== the texts

/-- `date.isoformat()`. -/
def isoDate (d : Date) : List Char := pad 4 d.year ++ '-' :: (pad 2 d.month ++ '-' :: pad 2 d.day)

/-- The microseconds, when there are any. -/
def isoFraction (microsecond : Nat) : List Char :=
  if microsecond = 0 then [] else '.' :: pad 6 microsecond

/-- `time.isoformat()` of a naive time. -/
def isoTime (t : Time) : List Char :=
  pad 2 t.hour ++ ':' :: (pad 2 t.minute ++ ':' :: (pad 2 t.second ++ isoFraction t.microsecond))

/-- The offset at the end of an `isoformat()`. -/
def isoOffset (offset : UtcOffset) : List Char :=
  let sign := if offset.microseconds < 0 then '-' else '+'
  let all := offset.microseconds.natAbs
  let seconds := all / 1000000 % 60
  let microseconds := all % 1000000
  sign :: (pad 2 (all / 3600000000) ++ ':' :: (pad 2 (all / 60000000 % 60)
    ++ if seconds = 0 ∧ microseconds = 0 then []
      else ':' :: (pad 2 seconds ++ isoFraction microseconds)))

/-- `format(value, "f")`. -/
def formatFixed (d : Decimal) : List Char :=
  let sign := if d.negative then ['-'] else []
  let coefficient := digits d.coefficient
  if 0 ≤ d.exponent then
    -- a zero has no further zeros
    if d.coefficient = 0 then sign ++ coefficient
    else sign ++ (coefficient ++ List.replicate d.exponent.toNat '0')
  else
    let places := d.exponent.natAbs
    if coefficient.length ≤ places then
      sign ++ '0' :: '.' :: (List.replicate (places - coefficient.length) '0' ++ coefficient)
    else
      let whole := coefficient.length - places
      sign ++ (coefficient.take whole ++ '.' :: coefficient.drop whole)

/-- `timedelta` in microseconds. -/
def TimeDelta.total (t : TimeDelta) : Int :=
  t.days * 86400000000 + t.seconds * 1000000 + t.microseconds

-- ==== the values

inductive Value where
  | none
  | str (s : String)
  | int (n : Int)
  | bool (b : Bool)
  | float
  | decimal (d : Decimal)
  | uuid (id : Fin (2 ^ 128))
  | enum (value : Value)
  | datetime (d : DateTime)
  | date (d : Date)
  | time (t : Time) (utcoffset : Option UtcOffset)
  | timedelta (t : TimeDelta)
  | mapping (items : List (String × Value))
  | set (items : List Value)
  | list (items : List Value)
  | tuple (items : List Value)
  | dataclass (fields : List (String × Value))
  | other (typeName : String)

/-- The style of the sort key of a set: the defaults of `json.dumps`. -/
def keyStyle : JsonStyle := ⟨true, true⟩

/-- The style of the hashed text: `separators=(",", ":")` and
`ensure_ascii=False`. -/
def textStyle : JsonStyle := ⟨false, false⟩

mutual

def normalize : Value → Except Raised Json
  | .none => .ok .null
  | .str s => .ok (.str s)
  | .int n => .ok (.int n)
  | .bool b => .ok (.bool b)
  | .float => .error (.typeError "floats are not canonical request values")
  | .decimal d => .ok (.str (String.ofList (formatFixed d)))
  | .uuid id => .ok (.str (uuidText id))
  | .enum value => normalize value
  | .datetime d =>
    match d.utcoffset with
    | .none => .error (.valueError "canonical datetimes must be timezone-aware")
    | some offset => .ok (.str (String.ofList
        (isoDate d.date ++ 'T' :: (isoTime d.time ++ isoOffset offset))))
  | .date d => .ok (.str (String.ofList (isoDate d)))
  | .time t utcoffset => .ok (.str (String.ofList
      (isoTime t ++ (utcoffset.map isoOffset).getD [])))
  | .timedelta t => .ok (.int t.total)
  | .mapping items => do return .obj (← normalizeFields items)
  | .set items => do
      return .arr (sortBy (Json.dumps keyStyle) (← normalizeItems items))
  | .list items => do return .arr (← normalizeItems items)
  | .tuple items => do return .arr (← normalizeItems items)
  | .dataclass fields => do return .obj (← normalizeFields fields)
  | .other typeName => .error
      (.typeError ("unsupported canonical request value: " ++ typeName))

def normalizeItems : List Value → Except Raised (List Json)
  | [] => .ok []
  | item :: items => do
      return (← normalize item) :: (← normalizeItems items)

def normalizeFields : List (String × Value) → Except Raised (List (String × Json))
  | [] => .ok []
  | (key, value) :: fields => do
      return (key, ← normalize value) :: (← normalizeFields fields)

end

def canonicalJson (value : Value) : Except Raised String := do
  return Json.dumps textStyle (← normalize value)

/-- `canonical_json_sha256`, where `sha256` is what `sha256_bytes` makes of
the UTF-8 bytes of a text. -/
def canonicalJsonSha256 (sha256 : String → String) (value : Value) :
    Except Raised String := do
  return sha256 (← canonicalJson value)

end MarketRegimeAlpha.Shared
