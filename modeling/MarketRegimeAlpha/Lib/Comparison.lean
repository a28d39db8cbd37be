/-
The comparisons of Python's values: `Decimal`s, integers, texts and truth
values.

# What compares with what

Numbers of all three types compare with each other, a truth value as 0 or
1, and texts compare with texts. A number equals no text, and to order one
against a text is a `TypeError`. A `Decimal` that is not a number equals
nothing and cannot be ordered against a number; a signaling one cannot
even be compared for equality with one. `equal_isOk` and `ordered_isOk`
say so of the two functions.
-/
import MarketRegimeAlpha.Lib.Checked
import Mathlib.Algebra.Order.Field.Rat

namespace MarketRegimeAlpha.Lib

-- ==== the values

inductive DecimalValue where
  | finite (value : ℚ)
  | infinite (negative : Bool)
  | nan (signaling : Bool)

/-- A value that a `Decimal`, an `int`, a `str` or a `bool` holds. -/
inductive Scalar where
  | decimal (value : DecimalValue)
  | integer (value : Int)
  | text (value : String)
  | boolean (value : Bool)

/-- The numbers with an infinity on either side. -/
abbrev Extended : Type := WithBot (WithTop ℚ)

/-- What a value is to a comparison. -/
inductive Operand where
  | number (value : Extended)
  | notANumber (signaling : Bool)
  | text (value : String)

namespace Scalar

def operand : Scalar → Operand
  | .decimal (.finite value) => .number ((value : WithTop ℚ) : Extended)
  | .decimal (.infinite negative) => .number (if negative then ⊥ else ⊤)
  | .decimal (.nan signaling) => .notANumber signaling
  | .integer value => .number (((value : ℚ) : WithTop ℚ) : Extended)
  | .text value => .text value
  | .boolean value => .number (((if value then 1 else 0 : ℚ) : WithTop ℚ) : Extended)

def typeName : Scalar → String
  | .decimal _ => "decimal.Decimal"
  | .integer _ => "int"
  | .text _ => "str"
  | .boolean _ => "bool"

def IsText (x : Scalar) : Prop := ∃ value, x = .text value

/-- The value is not a number, signaling or quiet. -/
def IsNan (x : Scalar) : Prop := ∃ signaling, x = .decimal (.nan signaling)

end Scalar

-- ==== the comparisons

/-- `decimal.InvalidOperation`. -/
def invalidOperation : Raised := .arithmeticError "[<class 'decimal.InvalidOperation'>]"

/-- `a == b`. -/
def equal (a b : Scalar) : Except Raised Bool :=
  match a.operand, b.operand with
  | .text x, .text y => return x = y
  | .text _, _ => return false
  | _, .text _ => return false
  | .number x, .number y => return x = y
  | .notANumber true, _ => .error invalidOperation
  | _, .notANumber true => .error invalidOperation
  | _, _ => return false

/-- `a <= b` or `a >= b`, by its symbol and what it says of texts and of
numbers. -/
def ordered (symbol : String) (texts : String → String → Bool)
    (numbers : Extended → Extended → Bool) (a b : Scalar) :
    Except Raised Bool :=
  match a.operand, b.operand with
  | .text x, .text y => return texts x y
  | .text _, _ => .error (unsupported a b)
  | _, .text _ => .error (unsupported a b)
  | .number x, .number y => return numbers x y
  | _, _ => .error invalidOperation
where
  /-- The `TypeError` of two types without an order. -/
  unsupported (a b : Scalar) : Raised :=
    .typeError ("'" ++ symbol ++ "' not supported between instances of '"
      ++ a.typeName ++ "' and '" ++ b.typeName ++ "'")

/-- `a <= b`. -/
def atMost : Scalar → Scalar → Except Raised Bool := ordered "<=" (· ≤ ·) (· ≤ ·)

/-- `a >= b`. -/
def atLeast : Scalar → Scalar → Except Raised Bool := ordered ">=" (· ≥ ·) (· ≥ ·)

variable {a b : Scalar}

-- ==== success

namespace Scalar

theorem isText_iff : a.IsText ↔ ∃ value, a.operand = .text value := by
  rcases a with (_ | _ | _) | _ | _ | _ <;> simp [IsText, operand]

theorem isNan_iff : a.IsNan ↔ ∃ signaling, a.operand = .notANumber signaling := by
  rcases a with (_ | _ | _) | _ | _ | _ <;> simp [IsNan, operand]

theorem signals_iff : a = .decimal (.nan true) ↔ a.operand = .notANumber true := by
  rcases a with (_ | _ | _) | _ | _ | _ <;> simp [operand]

end Scalar

variable {α ε : Type _}

@[simp] theorem ok_isOk {x : α} : (Except.ok x : Except ε α).isOk = true := rfl

@[simp] theorem pure_isOk {x : α} : (pure x : Except ε α).isOk = true := rfl

@[simp] theorem error_isOk {e : ε} : (Except.error e : Except ε α).isOk = false := rfl

theorem equal_isOk : (equal a b).isOk ↔ a.IsText ∨ b.IsText ∨ a ≠ .decimal (.nan true)
      ∧ b ≠ .decimal (.nan true) := by
  unfold equal
  rw [Scalar.isText_iff, Scalar.isText_iff, ne_eq, ne_eq, Scalar.signals_iff, Scalar.signals_iff]
  cases a.operand with
  | number => cases b.operand with
      | number => simp
      | notANumber signaling => cases signaling <;> simp
      | text => simp
  | notANumber signaling => cases b.operand with
      | number => cases signaling <;> simp
      | notANumber other => cases signaling <;> cases other <;> simp
      | text => simp
  | text => cases b.operand <;> simp

theorem ordered_isOk {symbol : String} {texts : String → String → Bool}
    {numbers : Extended → Extended → Bool} :
    (ordered symbol texts numbers a b).isOk ↔ (a.IsText ↔ b.IsText) ∧ ¬ a.IsNan ∧ ¬ b.IsNan := by
  unfold ordered
  rw [Scalar.isText_iff, Scalar.isText_iff, Scalar.isNan_iff, Scalar.isNan_iff]
  cases a.operand with
  | number => cases b.operand <;> simp
  | notANumber => cases b.operand <;> simp
  | text => cases b.operand <;> simp

end MarketRegimeAlpha.Lib
