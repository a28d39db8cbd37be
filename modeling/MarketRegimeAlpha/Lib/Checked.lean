/-
Fallible code as `Except`: the exceptions a Python function raises, the
guard clause `if not c: raise e`, and the inversion rules the proofs use
to read a successful run backwards.

# The one rule

Every validator of this development is a chain of guard clauses and
calls in `Except`. A successful run of such a chain has passed every
clause, so each proof starts by peeling the chain apart: `bind_ok` turns
`x >>= f = ok b` into the value `x` returned and the run of `f` on it,
and `require_ok` turns a passed clause into its condition. Nothing
else about `Except` is ever unfolded.
-/
import Mathlib

namespace MarketRegimeAlpha.Lib

open List

-- ==== the exceptions

/-- The builtin exceptions the modelled functions raise, with their
texts. -/
inductive Raised where
  | valueError (message : String)
  | typeError (message : String)
  | lookupError (message : String)
  | assertionError (message : String)
  | osError (message : String)
  | arithmeticError (message : String)
  deriving DecidableEq

/-- The text of the exception. -/
def Raised.message : Raised → String
  | .valueError message => message
  | .typeError message => message
  | .lookupError message => message
  | .assertionError message => message
  | .osError message => message
  | .arithmeticError message => message

/-- The guard clause: go on when `c` holds, raise `e` when it does
not. -/
def require {ε : Type _} (c : Prop) [Decidable c] (e : ε) : Except ε Unit :=
  if c then .ok () else .error e

def hexDigit (n : Nat) : Char :=
  if n < 10 then Char.ofNat (n + '0'.toNat)
  else Char.ofNat (n - 10 + 'a'.toNat)

/-- `str` of the UUID with this number. -/
def uuidText (id : Nat) : String :=
  let digits := (List.range 32).map fun i => hexDigit (id / 16 ^ (31 - i) % 16)
  "-".intercalate ([(0, 8), (8, 12), (12, 16), (16, 20), (20, 32)].map
    fun (i, j) => String.ofList ((digits.take j).drop i))

/-- `re.fullmatch` of one character of a class and at most `bound` of
another. -/
def fullmatch (first rest : Char → Bool) (bound : Nat) (value : String) :
    Bool :=
  match value.toList with
  | [] => false
  | c :: cs => first c && cs.length ≤ bound && cs.all rest

def isLower (c : Char) : Bool := 'a' ≤ c && c ≤ 'z'

def isUpper (c : Char) : Bool := 'A' ≤ c && c ≤ 'Z'

def isDigit (c : Char) : Bool := '0' ≤ c && c ≤ '9'

/-- `^[0-9a-f]{64}$`. -/
def isSha256 (value : String) : Bool :=
  value.length = 64 && value.toList.all fun c => isDigit c || ('a' ≤ c && c ≤ 'f')

/-- `dict[key]`, of a dictionary as the list of its items. -/
def item {κ ν : Type _} [BEq κ] (dict : List (κ × ν)) (key : κ) :
    Except Raised ν :=
  match dict.lookup key with
  | some value => .ok value
  | none => .error (.lookupError "KeyError")

/-- `dict[key] = value`. -/
def setItem {κ ν : Type _} [BEq κ] (dict : List (κ × ν)) (key : κ) (value : ν) : List (κ × ν) :=
  if (dict.lookup key).isSome then
    dict.map fun pair => if pair.1 == key then (key, value) else pair
  else dict ++ [(key, value)]

-- ==== inversion

variable {ε α β : Type _} {c : Prop}

@[simp] theorem require_ok [Decidable c] {e : ε} {u : Unit} :
    require c e = .ok u ↔ c := by
  unfold require
  split <;> simp_all

@[simp] theorem require_error [Decidable c] {e e' : ε} :
    require c e = .error e' ↔ ¬ c ∧ e = e' := by
  unfold require
  split <;> simp_all

theorem require_true [Decidable c] (h : c) (e : ε) :
    require c e = .ok () := if_pos h

theorem require_congr {c c' : Prop} [Decidable c] [Decidable c'] (e : ε)
    (h : c ↔ c') : require c e = require c' e := by
  by_cases hc : c
  · rw [require_true hc, require_true (h.mp hc)]
  · unfold require
    rw [if_neg hc, if_neg (mt h.mpr hc)]

variable {x : Except ε α} {f : α → Except ε β}

/-- A successful bind ran its first part to a value and its second part
on that value. -/
@[simp] theorem bind_ok {b : β} : x >>= f = .ok b ↔ ∃ a, x = .ok a ∧ f a = .ok b := by
  cases x with
  | error e => simp [bind, Except.bind]
  | ok a => simp [bind, Except.bind]

theorem ok_bind {a : α} : (Except.ok a : Except ε α) >>= f = f a := rfl

/-- A failing bind failed in its first part, or in its second part after
the first succeeded. -/
theorem bind_error {e : ε} : x >>= f = .error e
      ↔ x = .error e ∨ ∃ a, x = .ok a ∧ f a = .error e := by
  cases x with
  | error e' => simp [bind, Except.bind]
  | ok a => simp [bind, Except.bind]

/-- `pure` in `Except` is `ok`. -/
@[simp] theorem pure_ok {a b : α} : (pure a : Except ε α) = .ok b ↔ a = b := by
  simp [pure, Except.pure]

theorem exists_of_isOk (h : x.isOk) : ∃ a, x = .ok a := by
  cases x with
  | error e => cases h
  | ok a => exact ⟨a, rfl⟩

-- ==== looping

variable {f : β → α → Except ε β} {l : List α}

/-- The loop rule: what the body takes from an item and those to come to
those to come, a successful loop takes from all of them to none. -/
theorem foldlM_inv {I : List α → β → Prop}
    (hbody : ∀ a rest b b', I (a :: rest) b → f b a = .ok b' → I rest b')
    {b b' : β} (hI : I l b) (h : l.foldlM f b = .ok b') :
    I [] b' := by
  induction l generalizing b with
  | nil =>
    rw [foldlM_nil, pure_ok] at h
    exact h ▸ hI
  | cons a l ih =>
    rw [foldlM_cons, bind_ok] at h
    obtain ⟨b₁, hfirst, hrest⟩ := h
    exact ih (hbody a l b b₁ hI hfirst) hrest

theorem foldlM_error {b : β} {e : ε}
    (h : l.foldlM f b = .error e) : ∃ a ∈ l, ∃ b', f b' a = .error e := by
  induction l generalizing b with
  | nil => cases h
  | cons a l ih =>
    rcases bind_error.mp h with h | ⟨b', -, h⟩
    · exact ⟨a, mem_cons_self, b, h⟩
    · obtain ⟨a', ha', hfail⟩ := ih h
      exact ⟨a', mem_cons_of_mem a ha', hfail⟩

/-- A loop whose body succeeds on an item whatever came before it, or on
no account, succeeds when it does on all of them. -/
theorem exists_foldlM {good : α → Prop}
    (h : ∀ a ∈ l, ∀ b, (∃ b', f b a = .ok b') ↔ good a) (b : β) :
    (∃ b', l.foldlM f b = .ok b') ↔ ∀ a ∈ l, good a := by
  induction l generalizing b with
  | nil => exact ⟨fun _ => nofun, fun _ => ⟨b, rfl⟩⟩
  | cons a l ih =>
    have hrest := fun b' => ih (fun c hc => h c (mem_cons_of_mem a hc)) b'
    rw [forall_mem_cons, ← h a mem_cons_self b]
    constructor
    · rintro ⟨b', hb'⟩
      rw [foldlM_cons, bind_ok] at hb'
      obtain ⟨b₁, hfirst, hb'⟩ := hb'
      exact ⟨⟨b₁, hfirst⟩, (hrest b₁).mp ⟨b', hb'⟩⟩
    · rintro ⟨⟨b₁, hfirst⟩, hall⟩
      obtain ⟨b', hb'⟩ := (hrest b₁).mpr hall
      refine ⟨b', ?_⟩
      rw [foldlM_cons, hfirst]
      exact hb'

theorem forM_ok {f : α → Except ε PUnit} :
    (forM l f : Except ε PUnit) = .ok () ↔ ∀ a ∈ l, f a = .ok () := by
  induction l with
  | nil => simp [pure, Except.pure]
  | cons a l ih =>
    rw [forM_cons, bind_ok]
    constructor
    · rintro ⟨⟨⟩, ha, hl⟩ b hb
      rcases mem_cons.mp hb with rfl | hb
      · exact ha
      · exact ih.mp hl b hb
    · intro h
      exact ⟨(), h a mem_cons_self, ih.mpr fun b hb => h b (mem_cons_of_mem a hb)⟩

-- ==== mapping and looking up

section Mapping

variable {γ : Type _} {f : α → Except ε β} {g : β → γ} {k : α → γ}

/-- Every entry of a successful `mapM` comes from its own input. -/
theorem mem_mapM_ok : ∀ {l : List α} {l' : List β}, l.mapM f = .ok l' →
    ∀ b ∈ l', ∃ a ∈ l, f a = .ok b := by
  intro l
  induction l with
  | nil =>
    intro l' h b hb
    rw [mapM_nil, pure_ok] at h
    subst h
    cases hb
  | cons a l ih =>
    intro l' h b hb
    simp only [mapM_cons, bind_ok, pure_ok] at h
    obtain ⟨b₀, hb₀, l₀, hl₀, rfl⟩ := h
    rcases mem_cons.mp hb with rfl | hb
    · exact ⟨a, mem_cons_self, hb₀⟩
    · obtain ⟨a', ha', hfa'⟩ := ih hl₀ b hb
      exact ⟨a', mem_cons_of_mem a ha', hfa'⟩

/-- Every input of a successful `mapM` leaves its own entry. -/
theorem mapM_ok_mem : ∀ {l : List α} {l' : List β}, l.mapM f = .ok l' →
    ∀ a ∈ l, ∃ b ∈ l', f a = .ok b := by
  intro l
  induction l with
  | nil => intro l' _ a ha; cases ha
  | cons a₀ l ih =>
    intro l' h a ha
    simp only [mapM_cons, bind_ok, pure_ok] at h
    obtain ⟨b₀, hb₀, l₀, hl₀, rfl⟩ := h
    rcases mem_cons.mp ha with rfl | ha
    · exact ⟨b₀, mem_cons_self, hb₀⟩
    · obtain ⟨b, hb, hfa⟩ := ih hl₀ a ha
      exact ⟨b, mem_cons_of_mem b₀ hb, hfa⟩

theorem map_mapM_ok_of_mem : ∀ {l : List α} {l' : List β}, (∀ a ∈ l, ∀ b, f a = .ok b → g b = k a) →
      l.mapM f = .ok l' → l'.map g = l.map k := by
  intro l
  induction l with
  | nil =>
    intro l' _ h
    rw [mapM_nil, pure_ok] at h
    subst h
    rfl
  | cons a l ih =>
    intro l' hf h
    simp only [mapM_cons, bind_ok, pure_ok] at h
    obtain ⟨b, hb, l₀, hl₀, rfl⟩ := h
    rw [map_cons, map_cons, hf a mem_cons_self b hb,
      ih (fun a' ha' => hf a' (mem_cons_of_mem a ha')) hl₀]

variable {l : List α} {l' : List β}

theorem map_mapM_ok (hf : ∀ a b, f a = .ok b → g b = k a)
    (h : l.mapM f = .ok l') : l'.map g = l.map k :=
  map_mapM_ok_of_mem (fun a _ b => hf a b) h

/-- A `mapM` that leaves every entry as it is. -/
theorem mapM_ok_self {g : α → Except ε α} (h : ∀ a ∈ l, g a = .ok a) : l.mapM g = .ok l := by
  induction l with
  | nil => rfl
  | cons a l ih =>
    rw [mapM_cons, h a mem_cons_self, ih fun b hb => h b (mem_cons_of_mem a hb)]
    rfl

theorem length_mapM_ok (h : l.mapM f = .ok l') : l'.length = l.length := by
  have hmap := map_mapM_ok (g := fun _ => ()) (k := fun _ => ()) (fun _ _ _ => rfl) h
  simpa using congrArg List.length hmap

variable {P : α → β → Prop}

/-- A `mapM` whose every step succeeds, or else fails with `e`. -/
theorem mapM_ok_or {e : ε} (h : ∀ a ∈ l, (∃ b, f a = .ok b ∧ P a b) ∨ f a = .error e) :
    (∃ l', l.mapM f = .ok l' ∧ List.Forall₂ P l l') ∨ l.mapM f = .error e := by
  induction l with
  | nil => exact .inl ⟨[], rfl, .nil⟩
  | cons a l ih =>
    rw [mapM_cons]
    rcases h a mem_cons_self with ⟨b, hb, hP⟩ | herr
    · rw [hb]
      rcases ih fun a' ha' => h a' (mem_cons_of_mem a ha') with
        ⟨l', hl', hall⟩ | herr
      · rw [show (l.mapM f) = _ from hl']
        exact .inl ⟨b :: l', rfl, .cons hP hall⟩
      · rw [show (l.mapM f) = _ from herr]
        exact .inr rfl
    · rw [herr]
      exact .inr rfl

/-- A `mapM` whose every step succeeds. -/
theorem mapM_ok_map {g : α → β} (h : ∀ a ∈ l, f a = .ok (g a)) : l.mapM f = .ok (l.map g) := by
  induction l with
  | nil => rfl
  | cons a l ih =>
    rw [mapM_cons, h a mem_cons_self, ih fun b hb => h b (mem_cons_of_mem a hb)]
    rfl

/-- A failed `mapM` has failed on one of its inputs. -/
theorem mapM_error {e : ε} : ∀ {l : List α}, l.mapM f = .error e → ∃ a ∈ l, f a = .error e := by
  intro l
  induction l with
  | nil => intro h; cases h
  | cons a l ih =>
    intro h
    rw [mapM_cons, bind_error] at h
    rcases h with h | ⟨b, -, h⟩
    · exact ⟨a, mem_cons_self, h⟩
    · rw [bind_error] at h
      rcases h with h | ⟨l', -, h⟩
      · obtain ⟨a', ha', hfa'⟩ := ih h
        exact ⟨a', mem_cons_of_mem a ha', hfa'⟩
      · cases h

/-- A `mapM` whose every step succeeds with what `P` says. -/
theorem mapM_ok_forall₂ (h : ∀ a ∈ l, ∃ b, f a = .ok b ∧ P a b) :
    ∃ l', l.mapM f = .ok l' ∧ List.Forall₂ P l l' := by
  induction l with
  | nil => exact ⟨[], rfl, .nil⟩
  | cons a l ih =>
    obtain ⟨b, hb, hP⟩ := h a mem_cons_self
    obtain ⟨l', hl', hall⟩ := ih fun a' ha' => h a' (mem_cons_of_mem a ha')
    refine ⟨b :: l', ?_, .cons hP hall⟩
    rw [mapM_cons, hb, show (l.mapM f) = _ from hl']
    rfl

/-- A `mapM` whose every step succeeds has a result for each input. -/
theorem mapM_ok_length (h : ∀ a ∈ l, ∃ b, f a = .ok b) :
    ∃ l', l.mapM f = .ok l' ∧ l'.length = l.length := by
  obtain ⟨l', hl', hall⟩ := mapM_ok_forall₂ (P := fun _ _ => True)
    fun a ha => (h a ha).imp fun _ hb => ⟨hb, trivial⟩
  exact ⟨l', hl', hall.length_eq.symm⟩

theorem forall₂_left (h : List.Forall₂ P l l') {a : α} (ha : a ∈ l) : ∃ b ∈ l', P a b := by
  induction h with
  | nil => cases ha
  | @cons a₀ b₀ l l' hP _ ih =>
    rcases mem_cons.mp ha with rfl | ha
    · exact ⟨b₀, mem_cons_self, hP⟩
    · obtain ⟨b, hb, hab⟩ := ih ha
      exact ⟨b, mem_cons_of_mem b₀ hb, hab⟩

theorem forall₂_right (h : List.Forall₂ P l l') {b : β} (hb : b ∈ l') : ∃ a ∈ l, P a b := by
  induction h with
  | nil => cases hb
  | @cons a₀ b₀ l l' hP _ ih =>
    rcases mem_cons.mp hb with rfl | hb
    · exact ⟨a₀, mem_cons_self, hP⟩
    · obtain ⟨a, ha, hab⟩ := ih hb
      exact ⟨a, mem_cons_of_mem a₀ ha, hab⟩

/-- What follows from `P` for the entries of the two lists holds of each
pair. -/
theorem forall₂_imp_of_mem {P Q : α → β → Prop}
    (h : List.Forall₂ P l l') (hPQ : ∀ a ∈ l, ∀ b ∈ l', P a b → Q a b) :
    List.Forall₂ Q l l' := by
  induction h with
  | nil => exact .nil
  | @cons a b l l' hab _ ih =>
    refine .cons (hPQ a mem_cons_self b mem_cons_self hab) (ih fun a' ha' b' hb' => ?_)
    exact hPQ a' (mem_cons_of_mem a ha') b' (mem_cons_of_mem b hb')

theorem exists_forall₂ (h : ∀ a ∈ l, ∃ b, P a b) : ∃ l', List.Forall₂ P l l' := by
  induction l with
  | nil => exact ⟨[], .nil⟩
  | cons a l ih =>
    obtain ⟨b, hb⟩ := h a mem_cons_self
    obtain ⟨l', hl'⟩ := ih fun a' ha' => h a' (mem_cons_of_mem a ha')
    exact ⟨b :: l', .cons hb hl'⟩

theorem forall_zip_tail {R : α → α → Prop} (h : l.IsChain R) :
    ∀ pair ∈ l.zip l.tail, R pair.1 pair.2 := by
  induction h with
  | nil => exact fun _ h => absurd h not_mem_nil
  | singleton => exact fun _ h => absurd h not_mem_nil
  | cons_cons hab _ ih => exact forall_mem_cons.mpr ⟨hab, ih⟩


theorem map_forall₂ {g : α → γ} {k : β → γ}
    (h : List.Forall₂ P l l') (hP : ∀ a b, P a b → g a = k b) :
    l.map g = l'.map k := by
  induction h with
  | nil => rfl
  | cons hab _ ih => rw [map_cons, map_cons, hP _ _ hab, ih]

end Mapping

section Items

variable {κ ν : Type _} [BEq κ] [LawfulBEq κ] {dict : List (κ × ν)} {key : κ} {value : ν}

theorem mem_of_item (h : item dict key = .ok value) : (key, value) ∈ dict := by
  unfold item at h
  split at h
  · next v hv =>
      injection h with h
      subst h
      obtain ⟨l₁, l₂, rfl, -⟩ := List.lookup_eq_some_iff.mp hv
      simp
  · cases h

theorem item_of_mem (hkeys : (dict.map (·.1)).Nodup)
    (h : (key, value) ∈ dict) : item dict key = .ok value := by
  unfold item
  induction dict with
  | nil => cases h
  | cons pair dict ih =>
    rw [map_cons, nodup_cons] at hkeys
    rcases mem_cons.mp h with rfl | h
    · rw [lookup_cons_self]
    · have hne : (key == pair.1) = false := by
        refine beq_eq_false_iff_ne.mpr fun heq => hkeys.1 ?_
        rw [← heq]
        exact mem_map_of_mem h
      rw [lookup_cons, hne]
      exact ih hkeys.2 h

end Items

end MarketRegimeAlpha.Lib
