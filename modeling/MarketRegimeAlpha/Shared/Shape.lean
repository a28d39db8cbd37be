/-
The values of one shape, when two of them are equal, and when they differ
in the order of their items only.

# Shapes

A shape fixes the kind of every position: the scalar kind of a leaf, the
members of an enumeration, the fields of a dataclass, what a mapping has
under each key, and the one shape of the items of a tuple, a list or a
set.

# Equality

`PyEq` is Python's `==`: of decimals by their number, of aware datetimes
by their instant, of mappings and sets up to the order of their items.
-/
import MarketRegimeAlpha.Shared.Hashing

namespace MarketRegimeAlpha.Shared

open Lib

-- ==== equality

/-- `v == w`. -/
inductive PyEq : Value → Value → Prop where
  | none : PyEq .none .none
  | str (s : String) : PyEq (.str s) (.str s)
  | int (n : Int) : PyEq (.int n) (.int n)
  | bool (b : Bool) : PyEq (.bool b) (.bool b)
  | decimal {d d' : Decimal} (h : d.value = d'.value) : PyEq (.decimal d) (.decimal d')
  | uuid (id : Fin (2 ^ 128)) : PyEq (.uuid id) (.uuid id)
  | enum {v w : Value} (h : PyEq v w) : PyEq (.enum v) (.enum w)
  | datetime {d d' : DateTime} {o o' : UtcOffset}
      (ho : d.utcoffset = some o) (ho' : d'.utcoffset = some o')
      (h : d.instant o = d'.instant o') : PyEq (.datetime d) (.datetime d')
  | date (d : Date) : PyEq (.date d) (.date d)
  | time (t : Time) : PyEq (.time t .none) (.time t .none)
  | timedelta (t : TimeDelta) : PyEq (.timedelta t) (.timedelta t)
  | mapping {items items' order : List (String × Value)} (hperm : order.Perm items')
      (hkeys : items.map (·.1) = order.map (·.1))
      (h : ∀ p q, (p, q) ∈ items.zip order → PyEq p.2 q.2) :
      PyEq (.mapping items) (.mapping items')
  | set {items items' order : List Value} (hperm : order.Perm items')
      (hlength : items.length = order.length)
      (h : ∀ v w, (v, w) ∈ items.zip order → PyEq v w) :
      PyEq (.set items) (.set items')
  | list {items items' : List Value} (hlength : items.length = items'.length)
      (h : ∀ v w, (v, w) ∈ items.zip items' → PyEq v w) :
      PyEq (.list items) (.list items')
  | tuple {items items' : List Value} (hlength : items.length = items'.length)
      (h : ∀ v w, (v, w) ∈ items.zip items' → PyEq v w) :
      PyEq (.tuple items) (.tuple items')
  | dataclass {fields fields' : List (String × Value)}
      (hnames : fields.map (·.1) = fields'.map (·.1))
      (h : ∀ p q, (p, q) ∈ fields.zip fields' → PyEq p.2 q.2) :
      PyEq (.dataclass fields) (.dataclass fields')

-- ==== order

/-- The values are the same but for the insertion order of mappings and the
iteration order of sets, at any depth. -/
inductive Reordered : Value → Value → Prop where
  | refl (v : Value) : Reordered v v
  | enum {v w : Value} (h : Reordered v w) : Reordered (.enum v) (.enum w)
  | mapping {items items' order : List (String × Value)}
      (hnodup : (items.map (·.1)).Nodup) (hperm : order.Perm items')
      (hkeys : items.map (·.1) = order.map (·.1))
      (h : ∀ p q, (p, q) ∈ items.zip order → Reordered p.2 q.2) :
      Reordered (.mapping items) (.mapping items')
  | set {items items' order : List Value} (hperm : order.Perm items')
      (hlength : items.length = order.length)
      (h : ∀ v w, (v, w) ∈ items.zip order → Reordered v w) :
      Reordered (.set items) (.set items')
  | list {items items' : List Value} (hlength : items.length = items'.length)
      (h : ∀ v w, (v, w) ∈ items.zip items' → Reordered v w) :
      Reordered (.list items) (.list items')
  | tuple {items items' : List Value} (hlength : items.length = items'.length)
      (h : ∀ v w, (v, w) ∈ items.zip items' → Reordered v w) :
      Reordered (.tuple items) (.tuple items')
  | dataclass {fields fields' : List (String × Value)}
      (hnames : fields.map (·.1) = fields'.map (·.1))
      (h : ∀ p q, (p, q) ∈ fields.zip fields' → Reordered p.2 q.2) :
      Reordered (.dataclass fields) (.dataclass fields')

/-- The values are built alike over leaves of a relation, up to the insertion
order of mappings and the iteration order of sets. -/
inductive Matched (leaf : Value → Value → Prop) : Value → Value → Prop where
  | leaf {v w : Value} (h : leaf v w) : Matched leaf v w
  | enum {v w : Value} (h : Matched leaf v w) : Matched leaf (.enum v) (.enum w)
  | mapping {items items' order : List (String × Value)}
      (hnodup : (items.map (·.1)).Nodup) (hperm : order.Perm items')
      (hkeys : items.map (·.1) = order.map (·.1))
      (h : ∀ p q, (p, q) ∈ items.zip order → Matched leaf p.2 q.2) :
      Matched leaf (.mapping items) (.mapping items')
  | set {items items' order : List Value} (hperm : order.Perm items')
      (hlength : items.length = order.length)
      (h : ∀ v w, (v, w) ∈ items.zip order → Matched leaf v w) :
      Matched leaf (.set items) (.set items')
  | list {items items' : List Value} (hlength : items.length = items'.length)
      (h : ∀ v w, (v, w) ∈ items.zip items' → Matched leaf v w) :
      Matched leaf (.list items) (.list items')
  | tuple {items items' : List Value} (hlength : items.length = items'.length)
      (h : ∀ v w, (v, w) ∈ items.zip items' → Matched leaf v w) :
      Matched leaf (.tuple items) (.tuple items')
  | dataclass {fields fields' : List (String × Value)}
      (hnames : fields.map (·.1) = fields'.map (·.1))
      (h : ∀ p q, (p, q) ∈ fields.zip fields' → Matched leaf p.2 q.2) :
      Matched leaf (.dataclass fields) (.dataclass fields')

variable {v w : Value}

theorem Reordered.matched (h : Reordered v w) : Matched Eq v w := by
  induction h with
  | refl v => exact .leaf rfl
  | enum _ ih => exact .enum ih
  | mapping hnodup hperm hkeys _ ih => exact .mapping hnodup hperm hkeys ih
  | set hperm hlength _ ih => exact .set hperm hlength ih
  | list hlength _ ih => exact .list hlength ih
  | tuple hlength _ ih => exact .tuple hlength ih
  | dataclass hnames _ ih => exact .dataclass hnames ih

theorem Matched.pyEq (h : Matched PyEq v w) : PyEq v w := by
  induction h with
  | leaf h => exact h
  | enum _ ih => exact .enum ih
  | mapping _ hperm hkeys _ ih => exact .mapping hperm hkeys ih
  | set hperm hlength _ ih => exact .set hperm hlength ih
  | list hlength _ ih => exact .list hlength ih
  | tuple hlength _ ih => exact .tuple hlength ih
  | dataclass hnames _ ih => exact .dataclass hnames ih

-- ==== shapes

inductive Scalar where
  | none
  | str
  | int
  | bool
  | decimal
  | uuid
  | datetime
  | date
  | time
  | timedelta
  deriving DecidableEq

/-- The kind of position a value can stand in. An enumeration is the values
of its members. -/
inductive Shape where
  | scalar (kind : Scalar)
  | enum (values : List Value)
  | mapping (item : String → Shape)
  | dataclass (names : List String) (field : String → Shape)
  | list (item : Shape)
  | tuple (item : Shape)
  | set (item : Shape)

/-- The value is of the scalar kind; a `datetime` is aware and a `time`
naive. -/
inductive HasScalar : Scalar → Value → Prop where
  | none : HasScalar .none .none
  | str (s : String) : HasScalar .str (.str s)
  | int (n : Int) : HasScalar .int (.int n)
  | bool (b : Bool) : HasScalar .bool (.bool b)
  | decimal (d : Decimal) : HasScalar .decimal (.decimal d)
  | uuid (id : Fin (2 ^ 128)) : HasScalar .uuid (.uuid id)
  | datetime (d : DateTime) (h : d.utcoffset.isSome) : HasScalar .datetime (.datetime d)
  | date (d : Date) : HasScalar .date (.date d)
  | time (t : Time) : HasScalar .time (.time t .none)
  | timedelta (t : TimeDelta) : HasScalar .timedelta (.timedelta t)

def HasShape : Shape → Value → Prop
  | .scalar kind, v => HasScalar kind v
  | .enum values, .enum v => v ∈ values
  | .mapping item, .mapping items => (items.map (·.1)).Nodup
      ∧ ∀ p ∈ items, HasShape (item p.1) p.2
  | .dataclass names field, .dataclass fields => fields.map (·.1) = names
      ∧ names.Nodup ∧ ∀ p ∈ fields, HasShape (field p.1) p.2
  | .list item, .list items => ∀ v ∈ items, HasShape item v
  | .tuple item, .tuple items => ∀ v ∈ items, HasShape item v
  | .set item, .set items => ∀ v ∈ items, HasShape item v
  | _, _ => False

variable {v : Value}

theorem hasShape_enum {values : List Value} (h : HasShape (.enum values) v) :
    ∃ w, v = .enum w ∧ w ∈ values := by
  cases v with
  | enum x => exact ⟨x, rfl, h⟩
  | _ => cases h

theorem hasShape_mapping {item : String → Shape} (h : HasShape (.mapping item) v) :
    ∃ items, v = .mapping items ∧ (items.map (·.1)).Nodup
      ∧ ∀ p ∈ items, HasShape (item p.1) p.2 := by
  cases v with
  | mapping x => exact ⟨x, rfl, h⟩
  | _ => cases h

variable {item : Shape}

theorem hasShape_list (h : HasShape (.list item) v) :
    ∃ items, v = .list items ∧ ∀ w ∈ items, HasShape item w := by
  cases v with
  | list x => exact ⟨x, rfl, h⟩
  | _ => cases h

theorem hasShape_tuple (h : HasShape (.tuple item) v) :
    ∃ items, v = .tuple items ∧ ∀ w ∈ items, HasShape item w := by
  cases v with
  | tuple x => exact ⟨x, rfl, h⟩
  | _ => cases h

theorem hasShape_set (h : HasShape (.set item) v) :
    ∃ items, v = .set items ∧ ∀ w ∈ items, HasShape item w := by
  cases v with
  | set x => exact ⟨x, rfl, h⟩
  | _ => cases h

theorem hasShape_dataclass {names : List String} {field : String → Shape}
    (h : HasShape (.dataclass names field) v) :
    ∃ fields, v = .dataclass fields ∧ fields.map (·.1) = names
      ∧ names.Nodup ∧ ∀ p ∈ fields, HasShape (field p.1) p.2 := by
  cases v with
  | dataclass x => exact ⟨x, rfl, h⟩
  | _ => cases h

/-- Every enumeration in the shape has members whose values are of one
shape. -/
inductive Shape.Uniform : Shape → Prop where
  | scalar (kind : Scalar) : Uniform (.scalar kind)
  | enum {values : List Value} {value : Shape} (hvalue : Uniform value)
      (h : ∀ v ∈ values, HasShape value v) : Uniform (.enum values)
  | mapping {item : String → Shape} (h : ∀ key, Uniform (item key)) : Uniform (.mapping item)
  | dataclass {names : List String} {field : String → Shape}
      (h : ∀ name, Uniform (field name)) : Uniform (.dataclass names field)
  | list {item : Shape} (h : Uniform item) : Uniform (.list item)
  | tuple {item : Shape} (h : Uniform item) : Uniform (.tuple item)
  | set {item : Shape} (h : Uniform item) : Uniform (.set item)

end MarketRegimeAlpha.Shared
