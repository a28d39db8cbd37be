/-
JSON texts, as `json.dumps` writes them, and their injectivity.

# The text

`render` writes a value with or without a blank after its separators and
with or without escapes for what is not ASCII. `dumps` sorts the keys of
every object first (`sort_keys=True`).

# Reading back

A text is told apart before whatever may follow a value inside another
(`render_append_inj`): the first character gives the kind of the value
(`kind_render`), a string ends at its quote, a number where its digits
end, and an item at a separator or a bracket. So `render` is injective,
and `dumps` is up to the order of the keys (`dumps_inj`).
-/
import Mathlib.Data.String.Basic
import MarketRegimeAlpha.Lib.Checked
import MarketRegimeAlpha.Lib.OrderStat
import MarketRegimeAlpha.Lib.Text

namespace MarketRegimeAlpha.Lib

open List

/-- What `json.dumps` writes here. -/
inductive Json where
  | null
  | bool (b : Bool)
  | int (n : Int)
  | str (s : String)
  | arr (items : List Json)
  | obj (fields : List (String × Json))

/-- The options of `json.dumps`: a blank after each separator, and
`ensure_ascii`. -/
structure JsonStyle where
  (spaced ascii : Bool)

namespace Json

-- ==== strings

/-- `\uXXXX`. -/
def unicodeEscape (n : Nat) : List Char :=
  ['\\', 'u', hexDigit (n / 4096 % 16), hexDigit (n / 256 % 16),
    hexDigit (n / 16 % 16), hexDigit (n % 16)]

/-- A character of a string. -/
def escape (ascii : Bool) (c : Char) : List Char :=
  if c = '"' then ['\\', '"']
  else if c = '\\' then ['\\', '\\']
  else if c = '\n' then ['\\', 'n']
  else if c = '\r' then ['\\', 'r']
  else if c = '\t' then ['\\', 't']
  else if c = '\x0c' then ['\\', 'f']
  else if c = '\x08' then ['\\', 'b']
  else if c.toNat < 32 ∨ (ascii ∧ 126 < c.toNat) then
    if c.toNat < 65536 then unicodeEscape c.toNat
    else
      -- a surrogate pair
      unicodeEscape (55296 + (c.toNat - 65536) / 1024)
        ++ unicodeEscape (56320 + (c.toNat - 65536) % 1024)
  else [c]

/-- The inside of a string, with the quote that ends it. -/
def strBody (ascii : Bool) : List Char → List Char
  | [] => ['"']
  | c :: cs => escape ascii c ++ strBody ascii cs

-- ==== values

def separator (style : JsonStyle) (c : Char) : List Char := if style.spaced then [c, ' '] else [c]

mutual

/-- The text of a value. -/
def render (style : JsonStyle) : Json → List Char
  | .null => ['n', 'u', 'l', 'l']
  | .bool true => ['t', 'r', 'u', 'e']
  | .bool false => ['f', 'a', 'l', 's', 'e']
  | .int n => if n < 0 then '-' :: digits n.natAbs else digits n.natAbs
  | .str s => '"' :: strBody style.ascii s.toList
  | .arr [] => ['[', ']']
  | .arr (item :: items) => '[' :: (render style item ++ renderItems style items)
  | .obj [] => ['{', '}']
  | .obj (field :: fields) => '{' :: (renderField style field ++ renderFields style fields)

/-- The items after the first, with the bracket. -/
def renderItems (style : JsonStyle) : List Json → List Char
  | [] => [']']
  | item :: items => separator style ',' ++ (render style item ++ renderItems style items)

/-- A key and its value. -/
def renderField (style : JsonStyle) : String × Json → List Char
  | (key, value) =>
    '"' :: (strBody style.ascii key.toList ++ (separator style ':' ++ render style value))

/-- The fields after the first, with the brace. -/
def renderFields (style : JsonStyle) : List (String × Json) → List Char
  | [] => ['}']
  | field :: fields => separator style ',' ++ (renderField style field ++ renderFields style fields)

end

mutual

def sortKeys : Json → Json
  | .null => .null
  | .bool b => .bool b
  | .int n => .int n
  | .str s => .str s
  | .arr items => .arr (sortKeysItems items)
  | .obj fields => .obj (sortBy (·.1) (sortKeysFields fields))

def sortKeysItems : List Json → List Json
  | [] => []
  | item :: items => sortKeys item :: sortKeysItems items

def sortKeysFields : List (String × Json) → List (String × Json)
  | [] => []
  | (key, value) :: fields => (key, sortKeys value) :: sortKeysFields fields

end

theorem sortKeysItems_eq (items : List Json) : sortKeysItems items = items.map sortKeys := by
  induction items with
  | nil => rfl
  | cons item items ih => rw [sortKeysItems, ih, map_cons]

variable (fields : List (String × Json))

theorem sortKeysFields_eq : sortKeysFields fields = fields.map fun field =>
      (field.1, sortKeys field.2) := by
  induction fields with
  | nil => rfl
  | cons field fields ih =>
    rw [sortKeysFields, ih, map_cons]

/-- `json.dumps(value, sort_keys=True)`. -/
def dumps (style : JsonStyle) (value : Json) : String :=
  String.ofList (render style (sortKeys value))

-- ==== reading characters

/-- The value of a hexadecimal digit. -/
def hexValue (c : Char) : Nat := if c.isDigit then c.toNat - 48 else c.toNat - 87

variable {n : Nat}

theorem hexValue_hexDigit (hn : n < 16) : hexValue (hexDigit n) = n := by
  have hall : ∀ n < 16, hexValue (hexDigit n) = n := by decide
  exact hall n hn

/-- The number of four hexadecimal digits. -/
def hexNumber (a b c d : Char) : Nat :=
  hexValue a * 4096 + hexValue b * 256 + hexValue c * 16 + hexValue d

theorem hexNumber_escape (hn : n < 65536) :
    hexNumber (hexDigit (n / 4096 % 16)) (hexDigit (n / 256 % 16))
      (hexDigit (n / 16 % 16)) (hexDigit (n % 16)) = n := by
  unfold hexNumber
  rw [hexValue_hexDigit (by omega), hexValue_hexDigit (by omega),
    hexValue_hexDigit (by omega), hexValue_hexDigit (by omega)]
  omega

/-- The first character of the inside of a string, and what follows
it. -/
def unescape : List Char → Option (Char × List Char)
  | '\\' :: 'u' :: a :: b :: c :: d :: rest =>
    let n := hexNumber a b c d
    if 55296 ≤ n ∧ n < 56320 then
      match rest with
      | '\\' :: 'u' :: a' :: b' :: c' :: d' :: rest =>
        some (Char.ofNat (65536 + (n - 55296) * 1024 + (hexNumber a' b' c' d' - 56320)), rest)
      | _ => none
    else some (Char.ofNat n, rest)
  | '\\' :: 'n' :: rest => some ('\n', rest)
  | '\\' :: 'r' :: rest => some ('\r', rest)
  | '\\' :: 't' :: rest => some ('\t', rest)
  | '\\' :: 'f' :: rest => some ('\x0c', rest)
  | '\\' :: 'b' :: rest => some ('\x08', rest)
  | '\\' :: c :: rest => some (c, rest)
  | c :: rest => some (c, rest)
  | [] => none

theorem unescape_unicodeEscape (hn : n < 65536)
    (hnot : ¬ (55296 ≤ n ∧ n < 56320)) (rest : List Char) :
    unescape (unicodeEscape n ++ rest) = some (Char.ofNat n, rest) := by
  have hnumber := hexNumber_escape hn
  simp only [unicodeEscape, cons_append, nil_append, unescape, hnumber]
  rw [if_neg hnot]

theorem unescape_surrogates {m : Nat} (hm : m < 1048576) (rest : List Char) :
    unescape (unicodeEscape (55296 + m / 1024) ++ unicodeEscape (56320 + m % 1024) ++ rest)
      = some (Char.ofNat (65536 + m), rest) := by
  have hhigh := hexNumber_escape (n := 55296 + m / 1024) (by omega)
  have hlow := hexNumber_escape (n := 56320 + m % 1024) (by omega)
  simp only [unicodeEscape, cons_append, nil_append, unescape, hhigh, hlow]
  have hpair : 65536 + (55296 + m / 1024 - 55296) * 1024
      + (56320 + m % 1024 - 56320) = 65536 + m := by omega
  rw [if_pos (by omega), hpair]

/-- A character is read back from its escape. -/
theorem unescape_escape (ascii : Bool) (c : Char) (rest : List Char) :
    unescape (escape ascii c ++ rest) = some (c, rest) := by
  unfold escape
  split
  next h =>
    subst h
    rfl
  split
  next h =>
    subst h
    rfl
  split
  next h =>
    subst h
    rfl
  split
  next h =>
    subst h
    rfl
  split
  next h =>
    subst h
    rfl
  split
  next h =>
    subst h
    rfl
  split
  next h =>
    subst h
    rfl
  split
  next =>
    have hvalid : c.toNat < 55296 ∨ 57343 < c.toNat ∧ c.toNat < 1114112 := c.valid
    split
    next hsmall => rw [unescape_unicodeEscape hsmall (by omega), Char.ofNat_toNat]
    next hlarge =>
      rw [unescape_surrogates (by omega)]
      rw [show 65536 + (c.toNat - 65536) = c.toNat by omega, Char.ofNat_toNat]
  next hquote hbackslash _ _ _ _ _ _ =>
    unfold unescape
    split <;> simp_all

variable {ascii : Bool} {rest rest' : List Char}

theorem escape_append_inj {c c' : Char} (h : escape ascii c ++ rest = escape ascii c' ++ rest') :
    c = c' ∧ rest = rest' := by
  have hread := congrArg unescape h
  rw [unescape_escape, unescape_escape] at hread
  simpa using hread

variable {c : Char}

theorem quote_ne_escape : '"' :: rest ≠ escape ascii c ++ rest' := by
  intro h
  have hread := congrArg unescape h
  rw [unescape_escape] at hread
  have hquote : '"' = c := congrArg Prod.fst (Option.some.inj hread)
  rw [← hquote] at h
  cases h

theorem strBody_append_inj {s s' rest rest' : List Char}
    (h : strBody ascii s ++ rest = strBody ascii s' ++ rest') :
    s = s' ∧ rest = rest' := by
  induction s generalizing s' with
  | nil =>
    cases s' with
    | nil => exact ⟨rfl, append_cancel_left h⟩
    | cons c cs =>
      rw [strBody, strBody, append_assoc] at h
      exact absurd h quote_ne_escape
  | cons c cs ih =>
    cases s' with
    | nil =>
      rw [strBody, strBody, append_assoc] at h
      exact absurd h.symm quote_ne_escape
    | cons c' cs' =>
      rw [strBody, strBody, append_assoc, append_assoc] at h
      obtain ⟨rfl, htail⟩ := escape_append_inj h
      obtain ⟨rfl, hrest⟩ := ih htail
      exact ⟨rfl, hrest⟩

-- ==== reading values

def kind : Json → Nat
  | .null => 0
  | .bool _ => 1
  | .int _ => 2
  | .str _ => 3
  | .arr _ => 4
  | .obj _ => 5

/-- The kind of the values that a character begins. -/
def kindOf (c : Char) : Nat :=
  if c = 'n' then 0
  else if c = 't' ∨ c = 'f' then 1
  else if c = '-' ∨ c.isDigit then 2
  else if c = '"' then 3
  else if c = '[' then 4
  else if c = '{' then 5
  else 6

theorem kindOf_digit (hc : c.isDigit = true) : kindOf c = 2 := by
  have hn : c ≠ 'n' := by rintro rfl; cases hc
  have ht : c ≠ 't' := by rintro rfl; cases hc
  have hf : c ≠ 'f' := by rintro rfl; cases hc
  simp [kindOf, hn, ht, hf, hc]

theorem kind_render (style : JsonStyle) (j : Json) :
    ∃ c rest, render style j = c :: rest ∧ kindOf c = j.kind := by
  cases j with
  | null => exact ⟨'n', _, rfl, rfl⟩
  | bool b =>
    cases b with
    | false => exact ⟨'f', _, rfl, rfl⟩
    | true => exact ⟨'t', _, rfl, rfl⟩
  | int n =>
    unfold render
    by_cases hn : n < 0
    · rw [if_pos hn]
      exact ⟨'-', _, rfl, rfl⟩
    · rw [if_neg hn]
      obtain ⟨c, rest, hdigits⟩ := exists_cons_of_ne_nil (digits_ne_nil n.natAbs)
      have hc : c ∈ digits n.natAbs := hdigits ▸ mem_cons_self
      exact ⟨c, rest, hdigits, kindOf_digit (isDigit_of_mem_digits hc)⟩
  | str s => exact ⟨'"', _, rfl, rfl⟩
  | arr items =>
    cases items with
    | nil => exact ⟨'[', _, rfl, rfl⟩
    | cons item items => exact ⟨'[', _, rfl, rfl⟩
  | obj fields =>
    cases fields with
    | nil => exact ⟨'{', _, rfl, rfl⟩
    | cons field fields => exact ⟨'{', _, rfl, rfl⟩

/-- What may follow a value inside another: nothing, a separator or a
bracket. -/
def Follows (rest : List Char) : Prop := ∀ c ∈ rest.head?, c = ',' ∨ c = ']' ∨ c = '}'

theorem Follows.noDigit {rest : List Char} (h : Follows rest) :
    NoDigit rest := by
  intro c hc
  rcases h c hc with rfl | rfl | rfl
  · rfl
  · rfl
  · rfl

variable {style : JsonStyle}

theorem follows_items (items : List Json)
    (rest : List Char) : Follows (renderItems style items ++ rest) := by
  intro c hc
  cases items with
  | nil =>
    cases hc
    exact .inr (.inl rfl)
  | cons item items =>
    unfold renderItems separator at hc
    split at hc
    next =>
      cases hc
      exact .inl rfl
    next =>
      cases hc
      exact .inl rfl

theorem follows_fields (rest : List Char) : Follows (renderFields style fields ++ rest) := by
  intro c hc
  cases fields with
  | nil =>
    cases hc
    exact .inr (.inr rfl)
  | cons field fields =>
    unfold renderFields separator at hc
    split at hc
    next =>
      cases hc
      exact .inl rfl
    next =>
      cases hc
      exact .inl rfl

theorem kind_eq {j j' : Json} (h : render style j ++ rest = render style j' ++ rest') :
    j.kind = j'.kind := by
  obtain ⟨c, l, hrender, hkind⟩ := kind_render style j
  obtain ⟨c', l', hrender', hkind'⟩ := kind_render style j'
  rw [hrender, hrender'] at h
  injection h with hc
  rw [← hkind, ← hkind', hc]

theorem bracket_ne_render {j : Json} (hc : kindOf c = 6) :
    c :: rest ≠ render style j ++ rest' := by
  intro h
  obtain ⟨c', l, hrender, hkind⟩ := kind_render style j
  rw [hrender] at h
  injection h with heq
  rw [← heq, hc] at hkind
  cases j <;> cases hkind

theorem minus_ne_digits : '-' :: rest ≠ digits n ++ rest' := by
  intro h
  obtain ⟨c, l, hdigits⟩ := exists_cons_of_ne_nil (digits_ne_nil n)
  have hc : c.isDigit = true := isDigit_of_mem_digits (n := n) (hdigits ▸ mem_cons_self)
  rw [hdigits] at h
  injection h with heq
  rw [← heq] at hc
  cases hc

theorem int_append_inj {n m : Int} (hrest : Follows rest) (hrest' : Follows rest')
    (h : render style (.int n) ++ rest = render style (.int m) ++ rest') :
    n = m ∧ rest = rest' := by
  unfold render at h
  by_cases hn : n < 0
  · rw [if_pos hn] at h
    by_cases hm : m < 0
    · rw [if_pos hm] at h
      injection h with _ h
      obtain ⟨habs, h⟩ := digits_append_inj hrest.noDigit hrest'.noDigit h
      exact ⟨by omega, h⟩
    · rw [if_neg hm] at h
      exact absurd h minus_ne_digits
  · rw [if_neg hn] at h
    by_cases hm : m < 0
    · rw [if_pos hm] at h
      exact absurd h.symm minus_ne_digits
    · rw [if_neg hm] at h
      obtain ⟨habs, h⟩ := digits_append_inj hrest.noDigit hrest'.noDigit h
      exact ⟨by omega, h⟩

theorem separator_append_inj (h : separator style c ++ rest = separator style c ++ rest') :
    rest = rest' :=
  append_cancel_left h

theorem bracket_ne_separator (hc : c ≠ ',') :
    c :: rest ≠ separator style ',' ++ rest' := by
  intro h
  unfold separator at h
  split at h
  next =>
    injection h with heq
    exact hc heq
  next =>
    injection h with heq
    exact hc heq

mutual

/-- A value is told apart before what may follow it. -/
theorem render_append_inj : ∀ {j j' : Json} {rest rest' : List Char}, Follows rest → Follows rest' →
    render style j ++ rest = render style j' ++ rest' → j = j' ∧ rest = rest'
  | .null, j', rest, rest', _, _, h => by
    have hkind := kind_eq h
    cases j' <;> cases hkind
    exact ⟨rfl, append_cancel_left h⟩
  | .bool b, j', rest, rest', _, _, h => by
    have hkind := kind_eq h
    cases j' with
    | bool b' =>
      cases b <;> cases b'
      · exact ⟨rfl, append_cancel_left h⟩
      · cases h
      · cases h
      · exact ⟨rfl, append_cancel_left h⟩
    | _ => cases hkind
  | .int n, j', rest, rest', hrest, hrest', h => by
    have hkind := kind_eq h
    cases j' with
    | int m =>
      obtain ⟨rfl, heq⟩ := int_append_inj hrest hrest' h
      exact ⟨rfl, heq⟩
    | _ => cases hkind
  | .str s, j', rest, rest', _, _, h => by
    have hkind := kind_eq h
    cases j' with
    | str s' =>
      unfold render at h
      simp only [cons_append] at h
      injection h with _ h
      obtain ⟨hs, heq⟩ := strBody_append_inj h
      exact ⟨congrArg Json.str (String.toList_inj.mp hs), heq⟩
    | _ => cases hkind
  | .arr [], j', rest, rest', _, _, h => by
    have hkind := kind_eq h
    cases j' with
    | arr items' =>
      cases items' with
      | nil => exact ⟨rfl, append_cancel_left h⟩
      | cons item' items' =>
        unfold render at h
        simp only [cons_append] at h
        injection h with _ h
        rw [append_assoc] at h
        exact absurd h (bracket_ne_render rfl)
    | _ => cases hkind
  | .arr (item :: items), j', rest, rest', hrest, hrest', h => by
    have hkind := kind_eq h
    cases j' with
    | arr items' =>
      cases items' with
      | nil =>
        unfold render at h
        simp only [cons_append] at h
        injection h with _ h
        rw [append_assoc] at h
        exact absurd h.symm (bracket_ne_render rfl)
      | cons item' items' =>
        unfold render at h
        simp only [cons_append] at h
        injection h with _ h
        rw [append_assoc, append_assoc] at h
        obtain ⟨rfl, htail⟩ := render_append_inj (follows_items items rest)
          (follows_items items' rest') h
        obtain ⟨rfl, heq⟩ := renderItems_append_inj htail
        exact ⟨rfl, heq⟩
    | _ => cases hkind
  | .obj [], j', rest, rest', _, _, h => by
    have hkind := kind_eq h
    cases j' with
    | obj fields' =>
      cases fields' with
      | nil => exact ⟨rfl, append_cancel_left h⟩
      | cons field' fields' =>
        unfold render at h
        simp only [cons_append] at h
        injection h with _ h
        obtain ⟨key, value⟩ := field'
        unfold renderField at h
        injection h with heq
        cases heq
    | _ => cases hkind
  | .obj (field :: fields), j', rest, rest', hrest, hrest', h => by
    have hkind := kind_eq h
    cases j' with
    | obj fields' =>
      cases fields' with
      | nil =>
        unfold render at h
        simp only [cons_append] at h
        injection h with _ h
        obtain ⟨key, value⟩ := field
        unfold renderField at h
        injection h with heq
        cases heq
      | cons field' fields' =>
        unfold render at h
        simp only [cons_append] at h
        injection h with _ h
        rw [append_assoc, append_assoc] at h
        obtain ⟨rfl, htail⟩ := renderField_append_inj
          (follows_fields fields rest) (follows_fields fields' rest') h
        obtain ⟨rfl, heq⟩ := renderFields_append_inj htail
        exact ⟨rfl, heq⟩
    | _ => cases hkind

theorem renderItems_append_inj : ∀ {l l' : List Json} {rest rest' : List Char},
    renderItems style l ++ rest = renderItems style l' ++ rest' → l = l' ∧ rest = rest'
  | [], [], _, _, h => ⟨rfl, append_cancel_left h⟩
  | [], _ :: _, _, _, h => by
    unfold renderItems at h
    rw [append_assoc] at h
    exact absurd h (bracket_ne_separator (by decide))
  | _ :: _, [], _, _, h => by
    unfold renderItems at h
    rw [append_assoc] at h
    exact absurd h.symm (bracket_ne_separator (by decide))
  | item :: items, item' :: items', rest, rest', h => by
    unfold renderItems at h
    rw [append_assoc, append_assoc, append_assoc, append_assoc] at h
    obtain ⟨rfl, htail⟩ := render_append_inj (follows_items items rest)
      (follows_items items' rest') (separator_append_inj h)
    obtain ⟨rfl, heq⟩ := renderItems_append_inj htail
    exact ⟨rfl, heq⟩

theorem renderField_append_inj : ∀ {field field' : String × Json} {rest rest' : List Char},
    Follows rest → Follows rest' →
    renderField style field ++ rest = renderField style field' ++ rest' →
      field = field' ∧ rest = rest'
  | (key, value), (key', value'), rest, rest', hrest, hrest', h => by
    unfold renderField at h
    simp only [cons_append] at h
    injection h with _ h
    rw [append_assoc, append_assoc, append_assoc, append_assoc] at h
    obtain ⟨hkey, htail⟩ := strBody_append_inj h
    obtain ⟨rfl, heq⟩ := render_append_inj hrest hrest' (separator_append_inj htail)
    rw [String.toList_inj.mp hkey]
    exact ⟨rfl, heq⟩

theorem renderFields_append_inj : ∀ {l l' : List (String × Json)} {rest rest' : List Char},
    renderFields style l ++ rest = renderFields style l' ++ rest' → l = l' ∧ rest = rest'
  | [], [], _, _, h => ⟨rfl, append_cancel_left h⟩
  | [], _ :: _, _, _, h => by
    unfold renderFields at h
    rw [append_assoc] at h
    exact absurd h (bracket_ne_separator (by decide))
  | _ :: _, [], _, _, h => by
    unfold renderFields at h
    rw [append_assoc] at h
    exact absurd h.symm (bracket_ne_separator (by decide))
  | field :: fields, field' :: fields', rest, rest', h => by
    unfold renderFields at h
    rw [append_assoc, append_assoc, append_assoc, append_assoc] at h
    obtain ⟨rfl, htail⟩ := renderField_append_inj (follows_fields fields rest)
      (follows_fields fields' rest') (separator_append_inj h)
    obtain ⟨rfl, heq⟩ := renderFields_append_inj htail
    exact ⟨rfl, heq⟩

end

variable {style : JsonStyle} {j j' : Json}

theorem render_inj (h : render style j = render style j') : j = j' := by
  have hnil : Follows [] := fun c hc => nomatch hc
  exact (render_append_inj hnil hnil (congrArg (· ++ []) h)).1

instance : DecidableEq Json := fun j j' =>
  decidable_of_iff (render ⟨false, true⟩ j = render ⟨false, true⟩ j') ⟨render_inj, congrArg _⟩

/-- Values with the same text differ at most in the order of their
keys. -/
theorem dumps_inj : dumps style j = dumps style j' ↔ sortKeys j = sortKeys j' := by
  constructor
  · intro h
    exact render_inj (String.ofList_injective h)
  · intro h
    unfold dumps
    rw [h]

end Json

end MarketRegimeAlpha.Lib
