/-
Dictionaries as lists of items, in insertion order: what an update does
to the keys, to a lookup and to a sum over the items.

# Sums over the items

An account kept in a dictionary is a sum over its items. An update moves
such a sum by the new item less the old one (`sumItems_setItem_some`,
`sumItems_setItem_none`), a deletion by the old one
(`sumItems_delItem`). Read back over any list of keys that has all of
the dictionary's, with a default of 0, the sum is the same
(`sum_getD_lookup`).
-/
import Mathlib.Algebra.BigOperators.Group.List.Basic
import Mathlib.Data.List.Induction
import Mathlib.Data.List.Nodup
import Mathlib.Data.List.Perm.Subperm
import Mathlib.Tactic.Abel
import MarketRegimeAlpha.Lib.Checked

namespace MarketRegimeAlpha.Lib

open List

variable {κ ν : Type _} [DecidableEq κ]

def delItem (dict : List (κ × ν)) (key : κ) : List (κ × ν) := dict.filter (·.1 ≠ key)

/-- The dictionary of these items: a later one takes the place of an
earlier one. -/
def dictOf (items : List (κ × ν)) : List (κ × ν) :=
  items.foldl (fun dict pair => setItem dict pair.1 pair.2) []

/-- The keys, in insertion order. -/
def keys (dict : List (κ × ν)) : List κ := dict.map (·.1)

variable {dict : List (κ × ν)} {key key' : κ} {value value' : ν}

-- ==== lookup

theorem setItem_cons_self : setItem ((key, value') :: dict) key value
      = (key, value) :: dict.map fun pair =>
          if pair.1 == key then (key, value) else pair := by
  simp [setItem]

theorem setItem_cons_ne (h : key' ≠ key) : setItem ((key', value') :: dict) key value
      = (key', value') :: setItem dict key value := by
  have hne : (key == key') = false := beq_eq_false_iff_ne.mpr h.symm
  unfold setItem
  rw [lookup_cons, hne]
  by_cases hmem : (dict.lookup key).isSome
  · simp only [if_pos hmem, map_cons, beq_iff_eq, if_neg h]
  · simp only [if_neg hmem, cons_append]

/-- Replacing the items of one key leaves the others to be found as
before. -/
theorem lookup_map_replace (h : key' ≠ key) :
    (dict.map fun pair => if pair.1 == key then (key, value) else pair).lookup
      key' = dict.lookup key' := by
  have hne : (key' == key) = false := beq_eq_false_iff_ne.mpr h
  induction dict with
  | nil => rfl
  | cons pair dict ih =>
    obtain ⟨k, v⟩ := pair
    rw [map_cons, lookup_cons, ih, lookup_cons]
    by_cases hk : k = key
    · simp [hk, hne]
    · simp [hk]

/-- An update leaves its value under its key, and every other key as it
was. -/
theorem lookup_setItem : (setItem dict key value).lookup key'
    = if key' = key then some value else dict.lookup key' := by
  induction dict with
  | nil =>
    show ([(key, value)] : List (κ × ν)).lookup key' = _
    by_cases h : key' = key
    · simp [h]
    · simp [h]
  | cons pair dict ih =>
    obtain ⟨k, v⟩ := pair
    by_cases hk : k = key
    · subst hk
      rw [setItem_cons_self]
      by_cases h : key' = k
      · simp [h]
      · rw [lookup_cons, lookup_cons, lookup_map_replace h,
          if_neg h, beq_eq_false_iff_ne.mpr h]
    · rw [setItem_cons_ne hk, lookup_cons, lookup_cons, ih]
      by_cases h : key' = k
      · subst h
        simp [hk]
      · rw [beq_eq_false_iff_ne.mpr h]

/-- A deletion leaves nothing under its key, and every other key as it
was. -/
theorem lookup_delItem : (delItem dict key).lookup key'
    = if key' = key then none else dict.lookup key' := by
  unfold delItem
  induction dict with
  | nil => simp
  | cons pair dict ih =>
    obtain ⟨k, v⟩ := pair
    by_cases hk : k = key
    · subst hk
      rw [filter_cons_of_neg (by simp), ih, lookup_cons]
      by_cases h : key' = k
      · simp [h]
      · simp [h, beq_eq_false_iff_ne.mpr h]
    · rw [filter_cons_of_pos (by simpa using hk), lookup_cons, lookup_cons, ih]
      by_cases h : key' = k
      · subst h
        simp [hk]
      · rw [beq_eq_false_iff_ne.mpr h]

theorem mem_keys : key ∈ keys dict ↔ ∃ value, dict.lookup key = some value := by
  rw [← Option.isSome_iff_exists, lookup_isSome_iff]
  simp [keys]

theorem lookup_eq_none : dict.lookup key = none ↔ key ∉ keys dict := by
  rw [mem_keys, Option.eq_none_iff_forall_ne_some, not_exists]

theorem lookup_eq_some_iff (hkeys : (keys dict).Nodup) :
    dict.lookup key = some value ↔ (key, value) ∈ dict := by
  constructor
  · intro h
    obtain ⟨l₁, l₂, rfl, -⟩ := List.lookup_eq_some_iff.mp h
    simp
  · intro h
    have hitem := item_of_mem hkeys h
    unfold item at hitem
    cases hl : dict.lookup key with
    | none =>
      rw [hl] at hitem
      cases hitem
    | some v =>
      rw [hl] at hitem
      injection hitem with hv
      rw [hv]

theorem lookup_map_self (key : ν → κ) (l : List ν) (k : κ) :
    (l.map fun item => (key item, item)).lookup k = l.find? (key · = k) := by
  induction l with
  | nil => rfl
  | cons x l ih =>
    rw [map_cons, lookup_cons, find?_cons, ih]
    by_cases h : key x = k
    · simp [h]
    · simp [h, beq_eq_false_iff_ne.mpr (Ne.symm h)]

theorem find?_eq_some_iff_mem {key : ν → κ} {l : List ν} {k : κ} {x : ν}
    (hkeys : (l.map key).Nodup) :
    l.find? (key · = k) = some x ↔ x ∈ l ∧ key x = k := by
  have hnd : (keys (l.map fun item => (key item, item))).Nodup := by
    unfold keys
    rw [map_map]
    exact hkeys
  rw [← lookup_map_self, lookup_eq_some_iff hnd, mem_map]
  constructor
  · rintro ⟨item, hmem, hpair⟩
    injection hpair with hk hx
    exact ⟨hx ▸ hmem, hx ▸ hk⟩
  · rintro ⟨hmem, hk⟩
    exact ⟨x, hmem, by rw [hk]⟩

-- ==== keys

theorem keys_setItem_none (h : dict.lookup key = none) :
    keys (setItem dict key value) = keys dict ++ [key] := by
  unfold setItem keys
  rw [if_neg (by simp [h])]
  simp

theorem keys_setItem_some (h : (dict.lookup key).isSome) :
    keys (setItem dict key value) = keys dict := by
  unfold setItem keys
  rw [if_pos h, map_map]
  refine map_congr_left fun pair _ => ?_
  by_cases hk : pair.1 = key
  · simp [hk]
  · simp [hk]

theorem mem_keys_setItem :
    key' ∈ keys (setItem dict key value) ↔ key' = key ∨ key' ∈ keys dict := by
  rw [mem_keys, lookup_setItem, mem_keys]
  by_cases h : key' = key
  · simp [h]
  · simp [h]

theorem nodup_keys_setItem (hkeys : (keys dict).Nodup) : (keys (setItem dict key value)).Nodup := by
  by_cases h : (dict.lookup key).isSome
  · rw [keys_setItem_some h]
    exact hkeys
  · have hnone : dict.lookup key = none := Option.not_isSome_iff_eq_none.mp h
    rw [keys_setItem_none hnone]
    refine hkeys.append (nodup_singleton key) fun k hk hkey => ?_
    rw [mem_singleton.mp hkey] at hk
    exact lookup_eq_none.mp hnone hk

theorem nodup_keys_delItem (hkeys : (keys dict).Nodup) : (keys (delItem dict key)).Nodup :=
  hkeys.sublist (filter_sublist.map _)

omit [DecidableEq κ] in
theorem nodup_keys_perm {dict' : List (κ × ν)} (h : dict.Perm dict') :
    (keys dict).Nodup ↔ (keys dict').Nodup :=
  (h.map _).nodup_iff

variable {items : List (κ × ν)} {pair : κ × ν}

theorem foldl_setItem_eq (hkeys : (keys (dict ++ items)).Nodup) :
    items.foldl (fun dict pair => setItem dict pair.1 pair.2) dict = dict ++ items := by
  induction items generalizing dict with
  | nil => simp
  | cons pair items ih =>
    have hsplit : dict ++ pair :: items = dict ++ [pair] ++ items := by simp
    have hset : setItem dict pair.1 pair.2 = dict ++ [pair] := by
      have hfresh : pair.1 ∉ keys dict := by
        intro hmem
        unfold keys at hkeys hmem
        rw [map_append, map_cons] at hkeys
        exact disjoint_of_nodup_append hkeys hmem mem_cons_self
      unfold setItem
      rw [if_neg (by simp [lookup_eq_none.mpr hfresh])]
    rw [foldl_cons, hset, ih (hsplit ▸ hkeys), hsplit]

theorem nodup_keys_dictOf (items : List (κ × ν)) : (keys (dictOf items)).Nodup := by
  have hall : ∀ (items dict : List (κ × ν)), (keys dict).Nodup →
      (keys (items.foldl (fun dict pair => setItem dict pair.1 pair.2) dict)).Nodup := by
    intro items
    induction items with
    | nil => exact fun dict h => h
    | cons pair items ih => exact fun dict h => ih _ (nodup_keys_setItem h)
  exact hall items [] nodup_nil

theorem dictOf_eq (hkeys : (keys items).Nodup) : dictOf items = items := by
  have hall : (keys ([] ++ items)).Nodup := hkeys
  have h := foldl_setItem_eq hall
  rwa [nil_append] at h

theorem mem_setItem (h : pair ∈ setItem dict key value) : pair = (key, value) ∨ pair ∈ dict := by
  unfold setItem at h
  split at h
  · obtain ⟨old, hold, heq⟩ := mem_map.mp h
    split at heq
    · exact .inl heq.symm
    · exact .inr (heq ▸ hold)
  · rcases mem_append.mp h with h | h
    · exact .inr h
    · exact .inl (mem_singleton.mp h)

theorem mem_dictOf (h : pair ∈ dictOf items) : pair ∈ items := by
  have hall : ∀ (items dict : List (κ × ν)),
      pair ∈ items.foldl (fun dict pair => setItem dict pair.1 pair.2) dict →
        pair ∈ dict ∨ pair ∈ items := by
    intro items
    induction items with
    | nil => exact fun dict h => .inl h
    | cons item items ih =>
      intro dict h
      rcases ih _ h with h | h
      · rcases mem_setItem h with rfl | h
        · exact .inr mem_cons_self
        · exact .inl h
      · exact .inr (mem_cons_of_mem item h)
  exact (hall items [] h).resolve_left fun h => nomatch h

/-- A dictionary as long as its items has lost none: their keys are
distinct. -/
theorem nodup_of_length_dictOf (h : (dictOf items).length = items.length) : (keys items).Nodup := by
  have hsub : keys (dictOf items) ⊆ keys items := by
    intro key hkey
    obtain ⟨pair, hpair, rfl⟩ := mem_map.mp hkey
    exact mem_map_of_mem (mem_dictOf hpair)
  have hperm := ((nodup_keys_dictOf items).subperm hsub).perm_of_length_le (by simp [keys, h])
  exact hperm.nodup_iff.mp (nodup_keys_dictOf items)

theorem mem_keys_dictOf : key ∈ keys (dictOf items) ↔ key ∈ keys items := by
  have hall : ∀ (items dict : List (κ × ν)),
      key ∈ keys (items.foldl (fun dict pair => setItem dict pair.1 pair.2) dict)
        ↔ key ∈ keys dict ∨ key ∈ keys items := by
    intro items
    induction items with
    | nil => simp [keys]
    | cons item items ih =>
      intro dict
      rw [foldl_cons, ih, mem_keys_setItem]
      simp only [keys, map_cons, mem_cons]
      tauto
  rw [dictOf, hall]
  simp [keys]

theorem lookup_dictOf (hmem : (key, value) ∈ items)
    (hone : ∀ value', (key, value') ∈ items → value' = value) :
    (dictOf items).lookup key = some value := by
  obtain ⟨value', hlookup⟩ := mem_keys.mp (mem_keys_dictOf.mpr (mem_map_of_mem hmem))
  have hitem := mem_dictOf ((lookup_eq_some_iff (nodup_keys_dictOf items)).mp hlookup)
  rw [hlookup, hone value' hitem]

theorem lookup_dictOf_none (h : key ∉ keys items) : (dictOf items).lookup key = none := by
  rw [lookup_eq_none, mem_keys_dictOf]
  exact h

-- ==== grouping

/-- The distinct entries of a list, in the order of their first
appearance. -/
def firsts (l : List κ) : List κ :=
  l.foldl (fun seen k => if k ∈ seen then seen else seen ++ [k]) []

/-- The items of a list under their keys: `groups.setdefault(key(x),
[]).append(x)` for each `x`. -/
def groupBy {γ : Type _} (key : γ → κ) (l : List γ) : List (κ × List γ) :=
  l.foldl (fun groups x => setItem groups (key x) ((groups.lookup (key x)).getD [] ++ [x])) []

section Groups

variable {γ : Type _} (grouped : γ → κ)

theorem firsts_concat (l : List κ) (k : κ) : firsts (l ++ [k])
    = if k ∈ firsts l then firsts l else firsts l ++ [k] := by
  unfold firsts
  rw [foldl_append]
  rfl

theorem mem_firsts {l : List κ} {k : κ} : k ∈ firsts l ↔ k ∈ l := by
  induction l using List.reverseRecOn with
  | nil => rfl
  | append_singleton l a ih =>
    rw [firsts_concat]
    by_cases ha : a ∈ firsts l
    · rw [if_pos ha, ih, mem_append, mem_singleton]
      constructor
      · exact .inl
      · rintro (hk | rfl)
        · exact hk
        · exact ih.mp ha
    · rw [if_neg ha, mem_append, mem_append, ih]

theorem nodup_firsts (l : List κ) : (firsts l).Nodup := by
  induction l using List.reverseRecOn with
  | nil => exact nodup_nil
  | append_singleton l a ih =>
    rw [firsts_concat]
    by_cases ha : a ∈ firsts l
    · rw [if_pos ha]
      exact ih
    · rw [if_neg ha]
      refine ih.append (nodup_singleton a) fun k hk hka => ?_
      rw [mem_singleton.mp hka] at hk
      exact ha hk

theorem firsts_perm {l l' : List κ} (h : l.Perm l') : (firsts l).Perm (firsts l') := by
  rw [perm_ext_iff_of_nodup (nodup_firsts l) (nodup_firsts l')]
  intro k
  rw [mem_firsts, mem_firsts, h.mem_iff]

theorem groupBy_concat (l : List γ) (x : γ) : groupBy grouped (l ++ [x])
    = setItem (groupBy grouped l) (grouped x)
      (((groupBy grouped l).lookup (grouped x)).getD [] ++ [x]) := by
  unfold groupBy
  rw [foldl_append]
  rfl

theorem keys_groupBy (l : List γ) : keys (groupBy grouped l) = firsts (l.map grouped) := by
  induction l using List.reverseRecOn with
  | nil => rfl
  | append_singleton l x ih =>
    rw [groupBy_concat, map_append, map_singleton, firsts_concat, ← ih]
    by_cases hx : grouped x ∈ keys (groupBy grouped l)
    · rw [if_pos hx]
      obtain ⟨group, hgroup⟩ := mem_keys.mp hx
      exact keys_setItem_some (by simp [hgroup])
    · rw [if_neg hx]
      exact keys_setItem_none (lookup_eq_none.mpr hx)

theorem getD_lookup_groupBy (l : List γ) (k : κ) :
    ((groupBy grouped l).lookup k).getD [] = l.filter (grouped · = k) := by
  induction l using List.reverseRecOn with
  | nil => rfl
  | append_singleton l x ih =>
    rw [groupBy_concat, lookup_setItem, filter_append, ← ih]
    by_cases hk : k = grouped x
    · rw [if_pos hk, hk]
      simp
    · rw [if_neg hk, filter_cons_of_neg (by simpa using Ne.symm hk)]
      simp

/-- The groups are the items of each key, the keys in the order of their
first appearance. -/
theorem groupBy_eq (l : List γ) : groupBy grouped l = (firsts (l.map grouped)).map fun k =>
        (k, l.filter (grouped · = k)) := by
  have hkeys := keys_groupBy grouped l
  have hnodup : (keys (groupBy grouped l)).Nodup := hkeys ▸ nodup_firsts _
  rw [← hkeys]
  unfold keys
  rw [map_map]
  symm
  refine (map_congr_left fun pair hpair => ?_).trans (map_id _)
  have hlookup := (lookup_eq_some_iff hnodup).mpr hpair
  show (pair.1, l.filter (grouped · = pair.1)) = pair
  rw [← getD_lookup_groupBy, hlookup]
  rfl

/-- The items of a list under distinct keys that are all of theirs are the
list, permuted. -/
theorem flatMap_filter_perm {ks : List κ} (hks : ks.Nodup) {l : List γ}
    (hl : ∀ x ∈ l, grouped x ∈ ks) :
    (ks.flatMap fun k => l.filter (grouped · = k)).Perm l := by
  induction ks generalizing l with
  | nil =>
    cases l with
    | nil => exact .nil
    | cons x l => cases hl x mem_cons_self
  | cons k ks ih =>
    obtain ⟨hk, hks⟩ := nodup_cons.mp hks
    rw [flatMap_cons]
    -- the other keys take nothing of the items of `k`
    have hrest : (ks.flatMap fun k' => l.filter (grouped · = k')) = ks.flatMap fun k' =>
          (l.filter fun x => !(decide (grouped x = k))).filter (grouped · = k') := by
      apply flatMap_congr
      intro k' hk'
      rw [filter_filter]
      apply filter_congr
      intro x _
      by_cases hx : grouped x = k'
      · have hne : k' ≠ k := fun heq => hk (heq ▸ hk')
        simp [hx, hne]
      · simp [hx]
    rw [hrest]
    refine ((ih hks fun x hx => ?_).append_left _).trans (filter_append_perm _ l)
    obtain ⟨hxl, hxk⟩ := mem_filter.mp hx
    have hne : grouped x ≠ k := by simpa using hxk
    exact (mem_cons.mp (hl x hxl)).resolve_left hne

theorem flatten_groupBy_perm (l : List γ) : ((groupBy grouped l).map (·.2)).flatten.Perm l := by
  rw [groupBy_eq, map_map]
  exact flatMap_filter_perm grouped (nodup_firsts _) fun x hx =>
    mem_firsts.mpr (mem_map_of_mem hx)

end Groups

-- ==== item by item

section Items

variable {γ ε : Type _} (grouped : γ → κ) (f : Option ν → γ → Except ε ν)

/-- A step that sets the item of a key: `dict[key(x)] = f(dict.get(key(x)),
x)`. -/
def setItemM (dict : List (κ × ν)) (x : γ) : Except ε (List (κ × ν)) := do
  let value ← f (dict.lookup (grouped x)) x
  return setItem dict (grouped x) value

def onItem (value : Option ν) (x : γ) : Except ε (Option ν) := do
  let value ← f value x
  return some value

theorem foldlM_onItem_cons (l : List γ) (x : γ) (k : κ) (value : Option ν) :
    ((x :: l).filter (grouped · = k)).foldlM (onItem f) value = if grouped x = k then do
          let value ← onItem f value x
          (l.filter (grouped · = k)).foldlM (onItem f) value
        else (l.filter (grouped · = k)).foldlM (onItem f) value := by
  by_cases hk : grouped x = k
  · rw [if_pos hk, filter_cons_of_pos (by simpa using hk)]
    rfl
  · rw [if_neg hk, filter_cons_of_neg (by simpa using hk)]

variable {l : List γ} {dict' : List (κ × ν)} (h : l.foldlM (setItemM grouped f) dict = .ok dict')

include h in
theorem foldlM_setItemM_ok (k : κ) :
    (l.filter (grouped · = k)).foldlM (onItem f) (dict.lookup k) = .ok (dict'.lookup k) := by
  induction l generalizing dict with
  | nil =>
    cases h
    rfl
  | cons x l ih =>
    rw [foldlM_cons, bind_ok] at h
    obtain ⟨next, hnext, hrest⟩ := h
    obtain ⟨value, hvalue, hset⟩ := bind_ok.mp hnext
    cases hset
    have hitem := ih hrest
    rw [lookup_setItem] at hitem
    rw [foldlM_onItem_cons]
    by_cases hk : grouped x = k
    · subst hk
      rw [if_pos rfl] at hitem ⊢
      unfold onItem
      rw [hvalue]
      exact hitem
    · rw [if_neg hk]
      rwa [if_neg (Ne.symm hk)] at hitem

theorem foldlM_setItemM_error {e : ε} (h : l.foldlM (setItemM grouped f) dict = .error e) :
    ∃ k, (l.filter (grouped · = k)).foldlM (onItem f) (dict.lookup k) = .error e := by
  induction l generalizing dict with
  | nil => cases h
  | cons x l ih =>
    rcases bind_error.mp h with hnext | ⟨next, hnext, hrest⟩
    · refine ⟨grouped x, ?_⟩
      rw [foldlM_onItem_cons, if_pos rfl]
      unfold onItem
      rcases bind_error.mp hnext with hvalue | ⟨value, -, hset⟩
      · rw [hvalue]
        rfl
      · cases hset
    · obtain ⟨k, hk⟩ := ih hrest
      refine ⟨k, ?_⟩
      obtain ⟨value, hvalue, hset⟩ := bind_ok.mp hnext
      cases hset
      rw [lookup_setItem] at hk
      rw [foldlM_onItem_cons]
      by_cases hx : grouped x = k
      · subst hx
        rw [if_pos rfl] at hk ⊢
        unfold onItem
        rw [hvalue]
        exact hk
      · rw [if_neg hx]
        rwa [if_neg (Ne.symm hx)] at hk

include h in
theorem keys_foldlM_setItemM (hkeys : (keys dict).Nodup) : (keys dict').Nodup
      ∧ ∀ k, k ∈ keys dict' ↔ k ∈ keys dict ∨ k ∈ l.map grouped := by
  induction l generalizing dict with
  | nil =>
    cases h
    exact ⟨hkeys, by simp⟩
  | cons x l ih =>
    rw [foldlM_cons, bind_ok] at h
    obtain ⟨next, hnext, hrest⟩ := h
    obtain ⟨value, -, hset⟩ := bind_ok.mp hnext
    cases hset
    obtain ⟨hnodup, hmem⟩ := ih hrest (nodup_keys_setItem hkeys)
    refine ⟨hnodup, fun k => ?_⟩
    rw [hmem, mem_keys_setItem, map_cons, mem_cons]
    tauto

end Items

-- ==== the sums

section Sums

variable {M : Type _} [AddCommGroup M] {weight : ν → M} {γ : Type _}

/-- The sum of what each value weighs. -/
def sumItems (weight : ν → M) (dict : List (κ × ν)) : M := (dict.map fun pair => weight pair.2).sum

omit [DecidableEq κ] in
@[simp] theorem sumItems_nil : sumItems weight ([] : List (κ × ν)) = 0 := rfl

omit [DecidableEq κ] in
@[simp] theorem sumItems_cons {pair : κ × ν} :
    sumItems weight (pair :: dict) = weight pair.2 + sumItems weight dict := by
  simp [sumItems]

omit [DecidableEq κ] in
theorem sumItems_perm {dict' : List (κ × ν)} (h : dict.Perm dict') :
    sumItems weight dict = sumItems weight dict' :=
  (h.map _).sum_eq

theorem sumItems_setItem_none (h : dict.lookup key = none) :
    sumItems weight (setItem dict key value) = sumItems weight dict + weight value := by
  unfold setItem sumItems
  rw [if_neg (by simp [h])]
  simp

theorem sumItems_setItem_some (hkeys : (keys dict).Nodup) (h : dict.lookup key = some value') :
    sumItems weight (setItem dict key value)
      = sumItems weight dict - weight value' + weight value := by
  induction dict with
  | nil => cases h
  | cons pair dict ih =>
    obtain ⟨k, v⟩ := pair
    obtain ⟨hfresh, hkeys⟩ := nodup_cons.mp hkeys
    by_cases hk : k = key
    · subst hk
      rw [lookup_cons_self] at h
      injection h with h
      subst h
      have hrest : (dict.map fun pair : κ × ν =>
          if pair.1 == k then (k, value) else pair) = dict := by
        refine (map_congr_left fun pair hpair => ?_).trans (map_id dict)
        refine if_neg fun heq => hfresh ?_
        rw [← eq_of_beq heq]
        exact mem_map_of_mem (f := (·.1)) hpair
      rw [setItem_cons_self, hrest, sumItems_cons, sumItems_cons]
      abel
    · have hne : (key == k) = false := beq_eq_false_iff_ne.mpr (Ne.symm hk)
      rw [lookup_cons, hne] at h
      rw [setItem_cons_ne hk, sumItems_cons, sumItems_cons, ih hkeys h]
      abel

theorem sumItems_delItem (hkeys : (keys dict).Nodup) (h : dict.lookup key = some value) :
    sumItems weight (delItem dict key) = sumItems weight dict - weight value := by
  induction dict with
  | nil => cases h
  | cons pair dict ih =>
    obtain ⟨k, v⟩ := pair
    obtain ⟨hfresh, hkeys⟩ := nodup_cons.mp hkeys
    unfold delItem at ih ⊢
    by_cases hk : k = key
    · subst hk
      rw [lookup_cons_self] at h
      injection h with h
      subst h
      have hrest : dict.filter (·.1 ≠ k) = dict := by
        refine filter_eq_self.mpr fun pair hpair => ?_
        refine decide_eq_true fun heq => hfresh ?_
        rw [← heq]
        exact mem_map_of_mem (f := (·.1)) hpair
      rw [filter_cons_of_neg (by simp), hrest, sumItems_cons]
      abel
    · have hne : (key == k) = false := beq_eq_false_iff_ne.mpr (Ne.symm hk)
      rw [lookup_cons, hne] at h
      rw [filter_cons_of_pos (by simpa using hk), sumItems_cons, sumItems_cons, ih hkeys h]
      abel

/-- Summed over a list of keys that has all of the dictionary's, with 0
for the others. -/
theorem sum_getD_lookup (hkeys : (keys dict).Nodup) {names : List κ}
    (hnames : names.Nodup) (hsub : ∀ k ∈ keys dict, k ∈ names) :
    (names.map fun k => ((dict.lookup k).map weight).getD 0).sum = sumItems weight dict := by
  induction dict with
  | nil => simp
  | cons pair dict ih =>
    obtain ⟨k, v⟩ := pair
    obtain ⟨hfresh, hkeys⟩ := nodup_cons.mp hkeys
    have hk : k ∈ names := hsub k mem_cons_self
    have hsplit := perm_cons_erase hk
    rw [sumItems_cons, ← ih hkeys fun j hj => hsub j (mem_cons_of_mem k hj),
      (hsplit.map _).sum_eq, (hsplit.map _).sum_eq, map_cons,
      map_cons, sum_cons, sum_cons,
      lookup_cons_self, lookup_eq_none.mpr hfresh]
    -- away from `k` the item in front is passed over
    have hrest : ∀ j ∈ names.erase k, ((((k, v) :: dict).lookup j).map weight).getD 0
          = ((dict.lookup j).map weight).getD 0 := by
      intro j hj
      have hjk : j ≠ k := (hnames.mem_erase_iff.mp hj).1
      rw [lookup_cons, beq_eq_false_iff_ne.mpr hjk]
    rw [map_congr_left hrest]
    simp

/-- The dictionary of the sums of `weight` over the items of each key:
`sums[key(x)] = sums.get(key(x), 0) + weight(x)`. -/
def groupSums {γ : Type _} (key : γ → κ) (weight : γ → M) (l : List γ) : List (κ × M) :=
  l.foldl (fun sums x => setItem sums (key x) ((sums.lookup (key x)).getD 0 + weight x)) []

theorem sumItems_groupSums (key : γ → κ) (weight : γ → M) (l : List γ) :
    (keys (groupSums key weight l)).Nodup
      ∧ sumItems id (groupSums key weight l) = (l.map weight).sum := by
  induction l using List.reverseRecOn with
  | nil => exact ⟨nodup_nil, rfl⟩
  | append_singleton l x ih =>
    obtain ⟨hkeys, hsum⟩ := ih
    unfold groupSums at hkeys hsum ⊢
    rw [foldl_append, foldl_cons, foldl_nil, map_append,
      sum_append, map_singleton, sum_singleton, ← hsum]
    refine ⟨nodup_keys_setItem hkeys, ?_⟩
    cases hlookup : List.lookup (key x) _ with
    | none => simp [sumItems_setItem_none hlookup]
    | some value =>
      rw [sumItems_setItem_some hkeys hlookup]
      simp only [id, Option.getD_some]
      abel

theorem getD_groupSums (key : γ → κ) (weight : γ → M)
    (l : List γ) (k : κ) : ((groupSums key weight l).lookup k).getD 0
      = ((l.filter (key · = k)).map weight).sum := by
  have hall : ∀ sums : List (κ × M), ((l.foldl (fun sums x => setItem sums (key x)
        ((sums.lookup (key x)).getD 0 + weight x)) sums).lookup k).getD 0
      = (sums.lookup k).getD 0 + ((l.filter (key · = k)).map weight).sum := by
    induction l with
    | nil => exact fun sums => (add_zero _).symm
    | cons x l ih =>
      intro sums
      rw [foldl_cons, ih, lookup_setItem]
      by_cases hk : key x = k
      · rw [if_pos hk.symm, filter_cons_of_pos (by simpa using hk),
          map_cons, sum_cons, Option.getD_some, hk, add_assoc]
      · rw [if_neg (Ne.symm hk), filter_cons_of_neg (by simpa using hk)]
  rw [groupSums, hall]
  exact zero_add _

end Sums

end MarketRegimeAlpha.Lib
