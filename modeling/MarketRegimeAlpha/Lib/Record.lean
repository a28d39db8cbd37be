/-
Records written as dictionaries and read back with every check made
again.

# Dictionaries

A Python dictionary with texts as keys is its fields sorted by key
(`dict`), so that two which compare equal are one. A reader asks whether
it has exactly the keys it expects (`hasKeys`) and takes its fields one
by one (`item`); neither depends on the order they were written in.

A dictionary has each key once, and so have those inside it
(`Json.Canonical`): this is what a JSON text can give back.

# Enumerations and objects

A member of a text enumeration is written as its value and read back as
the member with that value (`StrEnum.parse`). An object whose constructor
checks its fields is the fields with a proof that they pass (`Sealed`);
building it runs the check (`construct`), and passes on the fields of an
object that exists.
-/
import MarketRegimeAlpha.Lib.Json

namespace MarketRegimeAlpha.Lib

open List

-- ==== dictionaries

/-- `dict`, with these fields. -/
def dict (fields : List (String × Json)) : Json := .obj (sortBy (·.1) fields)

/-- `set(payload) == expected`. -/
def hasKeys (fields : List (String × Json)) (expected : List String) : Bool :=
  fields.all (·.1 ∈ expected) && expected.all (· ∈ fields.map (·.1))

section Dictionaries

variable {fields : List (String × Json)} {key : String} {value : Json} {expected : List String}

theorem keys_sorted : ((sortBy (·.1) fields).map (·.1)).Perm (fields.map (·.1)) :=
  (sortBy_perm _ _).map _

theorem item_cons (name : String) (value : Json) (fields : List (String × Json)) (key : String) :
    item ((name, value) :: fields) key = if key = name then .ok value else item fields key := by
  unfold item
  rw [lookup_cons]
  by_cases h : key = name
  · rw [if_pos h, beq_iff_eq.mpr h]
  · rw [if_neg h, beq_eq_false_iff_ne.mpr h]

theorem item_sorted (hkeys : (fields.map (·.1)).Nodup) (key : String) :
    item (sortBy (·.1) fields) key = item fields key := by
  have hsorted := keys_sorted.nodup_iff.mpr hkeys
  have hmem : ∀ {value}, (key, value) ∈ sortBy (·.1) fields
      ↔ (key, value) ∈ fields := (sortBy_perm _ _).mem_iff
  cases hfound : item fields key with
  | ok value => exact item_of_mem hsorted (hmem.mpr (mem_of_item hfound))
  | error e =>
    cases hagain : item (sortBy (·.1) fields) key with
    | ok value =>
      rw [item_of_mem hkeys (hmem.mp (mem_of_item hagain))] at hfound
      cases hfound
    | error e' =>
      -- there is one error only
      unfold item at hfound hagain
      split at hfound
      next => cases hfound
      next =>
        split at hagain
        next => cases hagain
        next => rw [← hfound, ← hagain]

theorem hasKeys_sorted (h : (fields.map (·.1)).Perm expected) :
    hasKeys (sortBy (·.1) fields) expected = true := by
  unfold hasKeys
  rw [Bool.and_eq_true, all_eq_true, all_eq_true]
  constructor
  · intro field hfield
    have hmem := (sortBy_perm _ _).mem_iff.mp hfield
    exact decide_eq_true (h.mem_iff.mp (mem_map_of_mem hmem))
  · intro name hname
    exact decide_eq_true (keys_sorted.mem_iff.mpr (h.mem_iff.mpr hname))

end Dictionaries

/-- Every dictionary in it has its keys sorted, and each once. -/
inductive Json.Canonical : Json → Prop
  | null : Canonical .null
  | bool (b : Bool) : Canonical (.bool b)
  | int (n : Int) : Canonical (.int n)
  | str (s : String) : Canonical (.str s)
  | arr {items : List Json} (h : ∀ item ∈ items, Canonical item) : Canonical (.arr items)
  | obj {fields : List (String × Json)} (hkeys : (fields.map (·.1)).Pairwise (· < ·))
      (h : ∀ field ∈ fields, Canonical field.2) : Canonical (.obj fields)

attribute [simp] Json.Canonical.null Json.Canonical.bool Json.Canonical.int Json.Canonical.str

theorem canonical_dict {fields : List (String × Json)} (hkeys : (fields.map (·.1)).Nodup)
    (h : ∀ field ∈ fields, Json.Canonical field.2) :
    Json.Canonical (dict fields) := by
  apply Json.Canonical.obj
  · have hsorted := sortBy_pairwise (·.1) fields
    have hdistinct := keys_sorted.nodup_iff.mpr hkeys
    rw [List.Nodup, pairwise_map] at hdistinct
    rw [pairwise_map]
    exact (hsorted.and hdistinct).imp fun hab => lt_of_le_of_ne hab.1 hab.2
  · intro field hfield
    exact h field ((sortBy_perm _ _).mem_iff.mp hfield)

-- ==== reading values

/-- `isinstance(value, dict)`, its fields. -/
def Json.fields? : Json → Option (List (String × Json))
  | .obj fields => some fields
  | _ => none

/-- `isinstance(value, list)`, its items. -/
def Json.items? : Json → Option (List Json)
  | .arr items => some items
  | _ => none

/-- `isinstance(value, str)`, the text. -/
def Json.text? : Json → Option String
  | .str text => some text
  | _ => none

/-- The value, or `e` where there is none. -/
def orRaise {α : Type _} (x : Option α) (e : Raised) : Except Raised α :=
  match x with
  | some a => .ok a
  | none => .error e

@[simp] theorem orRaise_some {α : Type _} (a : α) (e : Raised) : orRaise (some a) e = .ok a := rfl

theorem orRaise_ok {α : Type _} {x : Option α} {e : Raised} {a : α} :
    orRaise x e = .ok a ↔ x = some a := by
  cases x <;> simp [orRaise]

theorem mapM_map_ok {α β γ : Type _} {write : α → β} {read : β → Except Raised γ} {k : α → γ}
    {l : List α} (h : ∀ a ∈ l, read (write a) = .ok (k a)) :
    (l.map write).mapM read = .ok (l.map k) := by
  induction l with
  | nil => rfl
  | cons a l ih =>
    rw [map_cons, mapM_cons, h a mem_cons_self,
      ih fun b hb => h b (mem_cons_of_mem a hb)]
    rfl

theorem mapM_written {α β : Type _} {write : α → β} {read : β → Except Raised α} {l : List α}
    (h : ∀ a ∈ l, read (write a) = .ok a) :
    (l.map write).mapM read = .ok l := by
  have hread := mapM_map_ok (k := id) h
  rwa [map_id] at hread

@[simp] theorem fields?_dict (fields : List (String × Json)) :
    (dict fields).fields? = some (sortBy (·.1) fields) := rfl

-- ==== enumerations

/-- An enumeration whose members have texts as their values. -/
class StrEnum (α : Type) where
  name : String
  members : List α
  text : α → String
  find_text : ∀ a, members.find? (fun b => text b = text a) = some a

/-- `Enumeration(value)`. -/
def StrEnum.parse (α : Type) [StrEnum α] (value : String) : Except Raised α :=
  orRaise ((StrEnum.members : List α).find? fun b => text b = value)
    (.valueError (value ++ " is not a valid " ++ StrEnum.name α))

@[simp] theorem StrEnum.parse_text {α : Type} [StrEnum α] (a : α) :
    StrEnum.parse α (text a) = .ok a := by
  unfold parse
  rw [find_text]
  rfl

theorem StrEnum.text_inj {α : Type} [StrEnum α] {a b : α} (h : text a = text b) : a = b := by
  have hparse := parse_text a
  rw [h, parse_text] at hparse
  injection hparse with hba
  exact hba.symm

-- ==== objects

/-- The fields of an object that its constructor has accepted. -/
structure Sealed {α : Type _} (check : α → Except Raised Unit) where
  val : α
  property : check val = .ok ()
  deriving DecidableEq

/-- The constructor: it checks the fields. -/
def construct {α : Type _} (check : α → Except Raised Unit) (a : α) :
    Except Raised (Sealed check) :=
  match h : check a with
  | .ok () => .ok ⟨a, h⟩
  | .error e => .error e

section Objects

variable {α : Type _} {check : α → Except Raised Unit} {a : α} {c : Sealed check}

theorem val_of_construct (h : construct check a = .ok c) : c.val = a := by
  unfold construct at h
  split at h
  · injection h with h
    rw [← h]
  · cases h

theorem construct_val (c : Sealed check) : construct check c.val = .ok c := by
  unfold construct
  split
  · rfl
  · next e he =>
      rw [c.property] at he
      cases he

theorem construct_eq (h : a = c.val) : construct check a = .ok c := by
  rw [h]
  exact construct_val c

end Objects

end MarketRegimeAlpha.Lib
