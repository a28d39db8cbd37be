/-
The content hash identifies a value within its shape.

# The canonical form

`canonical v` is the normalization of `v` with the keys of its objects
sorted; the hashed text is a rendering of it, so the hash is the same
exactly when the canonical form is (`canonicalJson_inj`). One lemma says
what it is for each constructor that has items (`canonical_list`,
`canonical_set`, `canonical_mapping` and the rest), as a relation between
the items and their own canonical forms.
-/
import MarketRegimeAlpha.Shared.Proofs.Scalars

namespace MarketRegimeAlpha.Shared

open Lib List

-- ==== the canonical form

/-- The normalization of a value, with sorted keys. -/
def canonical (v : Value) : Except Raised Json := (normalize v).map Json.sortKeys

/-- The canonical form of the value is `j`. -/
def IsCanonical (v : Value) (j : Json) : Prop := canonical v = .ok j

def IsCanonicalField (p : String × Value) (f : String × Json) : Prop :=
  p.1 = f.1 ∧ IsCanonical p.2 f.2

theorem canonicalJson_eq (v : Value) : canonicalJson v
    = (canonical v).map fun j => String.ofList (Json.render textStyle j) := by
  unfold canonicalJson canonical Json.dumps
  cases normalize v with
  | error e => rfl
  | ok j => rfl

variable {v w : Value} {j j' : Json}

theorem canonicalJson_inj (hv : IsCanonical v j)
    (hw : IsCanonical w j') (h : canonicalJson v = canonicalJson w) : j = j' := by
  rw [canonicalJson_eq, canonicalJson_eq, hv, hw] at h
  exact Json.render_inj (String.ofList_injective (Except.ok.inj h))

theorem map_ok {ε α β : Type _} {x : Except ε α} {f : α → β} {b : β} :
    x.map f = .ok b ↔ ∃ a, x = .ok a ∧ f a = b := by
  cases x with
  | error e => simp [Except.map]
  | ok a => simp [Except.map]

variable {items : List Value} {js : List Json}

theorem canonical_items : (normalizeItems items).map (List.map Json.sortKeys) = .ok js
      ↔ List.Forall₂ IsCanonical items js := by
  induction items generalizing js with
  | nil =>
    simp only [normalizeItems, Except.map, map_nil, Except.ok.injEq, forall₂_nil_left_iff]
    exact eq_comm
  | cons item items ih =>
    rw [map_ok]
    simp only [normalizeItems, bind_ok, pure_ok]
    constructor
    · rintro ⟨_, ⟨j, hj, rest, hrest, rfl⟩, rfl⟩
      refine .cons (map_ok.mpr ⟨j, hj, rfl⟩) (ih.mp ?_)
      exact map_ok.mpr ⟨rest, hrest, rfl⟩
    · intro h
      cases h with
      | cons hitem hitems =>
        obtain ⟨j, hj, rfl⟩ := map_ok.mp hitem
        obtain ⟨rest, hrest, rfl⟩ := map_ok.mp (ih.mpr hitems)
        exact ⟨_, ⟨j, hj, rest, hrest, rfl⟩, rfl⟩

variable {fs : List (String × Json)}

theorem canonical_fields {fields : List (String × Value)} :
    (normalizeFields fields).map (List.map fun f => (f.1, f.2.sortKeys))
      = .ok fs ↔ List.Forall₂ IsCanonicalField fields fs := by
  induction fields generalizing fs with
  | nil =>
    simp only [normalizeFields, Except.map, map_nil, Except.ok.injEq,
      forall₂_nil_left_iff]
    exact eq_comm
  | cons field fields ih =>
    rw [map_ok]
    simp only [normalizeFields, bind_ok, pure_ok]
    constructor
    · rintro ⟨_, ⟨j, hj, rest, hrest, rfl⟩, rfl⟩
      refine .cons ⟨rfl, map_ok.mpr ⟨j, hj, rfl⟩⟩ (ih.mp ?_)
      exact map_ok.mpr ⟨rest, hrest, rfl⟩
    · intro h
      cases h with
      | @cons _ f _ fs hfield hfields =>
        obtain ⟨key', j'⟩ := f
        obtain ⟨rfl, hvalue⟩ := hfield
        obtain ⟨j, hj, rfl⟩ := map_ok.mp hvalue
        obtain ⟨rest, hrest, rfl⟩ := map_ok.mp (ih.mpr hfields)
        exact ⟨_, ⟨j, hj, rest, hrest, rfl⟩, rfl⟩

variable {j : Json} {v : Value}

theorem canonical_list : IsCanonical (.list items) j
      ↔ ∃ js, List.Forall₂ IsCanonical items js ∧ j = .arr js := by
  simp only [← canonical_items, map_ok, IsCanonical, canonical, normalize, bind_ok, pure_ok]
  constructor
  · rintro ⟨_, ⟨js, hjs, rfl⟩, rfl⟩
    refine ⟨_, ⟨js, hjs, rfl⟩, ?_⟩
    rw [Json.sortKeys, Json.sortKeysItems_eq]
  · rintro ⟨_, ⟨js, hjs, rfl⟩, rfl⟩
    refine ⟨_, ⟨js, hjs, rfl⟩, ?_⟩
    rw [Json.sortKeys, Json.sortKeysItems_eq]

theorem canonical_tuple : IsCanonical (.tuple items) j
      ↔ ∃ js, List.Forall₂ IsCanonical items js ∧ j = .arr js := by
  rw [← canonical_list]
  exact Iff.rfl

def keyText (j : Json) : String := String.ofList (Json.render keyStyle j)

theorem keyText_inj (h : keyText j = keyText j') : j = j' :=
  Json.render_inj (String.ofList_injective h)

theorem canonical_set : IsCanonical (.set items) j
      ↔ ∃ js, List.Forall₂ IsCanonical items js ∧ j = .arr (sortBy keyText js) := by
  have hsort : ∀ js : List Json, (Json.arr (sortBy (Json.dumps keyStyle) js)).sortKeys
        = .arr (sortBy keyText (js.map Json.sortKeys)) := by
    intro js
    rw [Json.sortKeys, Json.sortKeysItems_eq, sortBy_map]
    rfl
  simp only [← canonical_items, map_ok, IsCanonical, canonical, normalize, bind_ok, pure_ok]
  constructor
  · rintro ⟨_, ⟨js, hjs, rfl⟩, rfl⟩
    exact ⟨_, ⟨js, hjs, rfl⟩, hsort js⟩
  · rintro ⟨_, ⟨js, hjs, rfl⟩, rfl⟩
    exact ⟨_, ⟨js, hjs, rfl⟩, hsort js⟩

theorem canonical_mapping {items : List (String × Value)} :
    IsCanonical (.mapping items) j ↔ ∃ fs, List.Forall₂ IsCanonicalField items fs
        ∧ j = .obj (sortBy (·.1) fs) := by
  simp only [← canonical_fields, map_ok, IsCanonical, canonical, normalize, bind_ok, pure_ok]
  constructor
  · rintro ⟨_, ⟨fs, hfs, rfl⟩, rfl⟩
    refine ⟨_, ⟨fs, hfs, rfl⟩, ?_⟩
    rw [Json.sortKeys, Json.sortKeysFields_eq]
  · rintro ⟨_, ⟨fs, hfs, rfl⟩, rfl⟩
    refine ⟨_, ⟨fs, hfs, rfl⟩, ?_⟩
    rw [Json.sortKeys, Json.sortKeysFields_eq]

theorem canonical_dataclass {fields : List (String × Value)} :
    IsCanonical (.dataclass fields) j ↔ ∃ fs, List.Forall₂ IsCanonicalField fields fs
        ∧ j = .obj (sortBy (·.1) fs) := by
  rw [← canonical_mapping]
  exact Iff.rfl

theorem canonical_enum : IsCanonical (.enum v) j ↔ IsCanonical v j := by
  unfold IsCanonical canonical
  rw [normalize]

-- ==== values of one shape

variable {s : Shape} {leaf : Value → Value → Prop} {fields fields' : List (String × Value)}
  {items items' : List Value}

/-- A value of a shape has a canonical form. -/
theorem exists_canonical (hs : s.Uniform) (hv : HasShape s v) : ∃ j, IsCanonical v j := by
  induction hs generalizing v with
  | scalar kind =>
    cases hv with
    | datetime d hd =>
      obtain ⟨o, ho⟩ := Option.isSome_iff_exists.mp hd
      unfold IsCanonical canonical normalize
      rw [ho]
      exact ⟨_, rfl⟩
    | _ => exact ⟨_, rfl⟩
  | enum _ h ih =>
    obtain ⟨w, rfl, hw⟩ := hasShape_enum hv
    obtain ⟨j, hj⟩ := ih (h w hw)
    exact ⟨j, canonical_enum.mpr hj⟩
  | mapping _ ih =>
    obtain ⟨items, rfl, -, h⟩ := hasShape_mapping hv
    have hitem : ∀ p ∈ items, ∃ f, IsCanonicalField p f := by
      intro p hp
      obtain ⟨j, hj⟩ := ih p.1 (h p hp)
      exact ⟨(p.1, j), rfl, hj⟩
    obtain ⟨fs, hfs⟩ := exists_forall₂ hitem
    exact ⟨_, canonical_mapping.mpr ⟨fs, hfs, rfl⟩⟩
  | dataclass _ ih =>
    obtain ⟨fields, rfl, -, -, h⟩ := hasShape_dataclass hv
    have hfield : ∀ p ∈ fields, ∃ f, IsCanonicalField p f := by
      intro p hp
      obtain ⟨j, hj⟩ := ih p.1 (h p hp)
      exact ⟨(p.1, j), rfl, hj⟩
    obtain ⟨fs, hfs⟩ := exists_forall₂ hfield
    exact ⟨_, canonical_dataclass.mpr ⟨fs, hfs, rfl⟩⟩
  | list _ ih =>
    obtain ⟨items, rfl, h⟩ := hasShape_list hv
    obtain ⟨js, hjs⟩ := exists_forall₂ fun w hw => ih (h w hw)
    exact ⟨_, canonical_list.mpr ⟨js, hjs, rfl⟩⟩
  | tuple _ ih =>
    obtain ⟨items, rfl, h⟩ := hasShape_tuple hv
    obtain ⟨js, hjs⟩ := exists_forall₂ fun w hw => ih (h w hw)
    exact ⟨_, canonical_tuple.mpr ⟨js, hjs, rfl⟩⟩
  | set _ ih =>
    obtain ⟨items, rfl, h⟩ := hasShape_set hv
    obtain ⟨js, hjs⟩ := exists_forall₂ fun w hw => ih (h w hw)
    exact ⟨_, canonical_set.mpr ⟨js, hjs, rfl⟩⟩

theorem normalize_scalar {kind : Scalar}
    (hv : HasScalar kind v) (hj : IsCanonical v j) : normalize v = .ok j := by
  cases hv with
  | datetime d hd =>
    obtain ⟨o, ho⟩ := Option.isSome_iff_exists.mp hd
    unfold IsCanonical canonical normalize at hj
    rw [ho] at hj
    unfold normalize
    rw [ho]
    exact hj
  | _ => exact hj

/-- Lists with one list of canonical forms agree entry by entry, where those
with one canonical form are equal. -/
theorem zip_canonical (h : List.Forall₂ IsCanonical items js)
    (h' : List.Forall₂ IsCanonical items' js) :
    items.length = items'.length ∧ ∀ v w, (v, w) ∈ items.zip items' →
      v ∈ items ∧ w ∈ items' ∧ ∃ j, IsCanonical v j ∧ IsCanonical w j := by
  refine ⟨h.length_eq.trans h'.length_eq.symm, fun v w hvw => ?_⟩
  refine ⟨(of_mem_zip hvw).1, (of_mem_zip hvw).2, ?_⟩
  induction h generalizing items' with
  | nil => cases hvw
  | cons hv _ ih =>
    cases h' with
    | cons hw hrest =>
      rw [zip_cons_cons, mem_cons] at hvw
      rcases hvw with heq | hvw
      · cases heq
        exact ⟨_, hv, hw⟩
      · exact ih hrest hvw

theorem zip_canonicalField
    (h : List.Forall₂ IsCanonicalField fields fs) (h' : List.Forall₂ IsCanonicalField fields' fs) :
    fields.map (·.1) = fields'.map (·.1)
      ∧ ∀ p q, (p, q) ∈ fields.zip fields' → p ∈ fields ∧ q ∈ fields'
        ∧ p.1 = q.1 ∧ ∃ j, IsCanonical p.2 j ∧ IsCanonical q.2 j := by
  constructor
  · exact (map_forall₂ h fun p f hf => hf.1).trans (map_forall₂ h' fun p f hf => hf.1).symm
  intro p q hpq
  refine ⟨(of_mem_zip hpq).1, (of_mem_zip hpq).2, ?_⟩
  induction h generalizing fields' with
  | nil => cases hpq
  | cons hp _ ih =>
    cases h' with
    | cons hq hrest =>
      rw [zip_cons_cons, mem_cons] at hpq
      rcases hpq with heq | hpq
      · cases heq
        exact ⟨hp.1.trans hq.1.symm, _, hp.2, hq.2⟩
      · exact ih hrest hpq

/-- Values of one shape and one canonical form are built alike, over leaves of
any relation that scalars of one normalization are in. -/
theorem canonical_matched (hleaf : ∀ {kind v w j}, HasScalar kind v → HasScalar kind w →
      normalize v = .ok j → normalize w = .ok j → leaf v w)
    (hs : s.Uniform)
    (hv : HasShape s v) (hw : HasShape s w) (hj : IsCanonical v j)
    (hj' : IsCanonical w j) : Matched leaf v w := by
  induction hs generalizing v w j with
  | scalar kind => exact .leaf (hleaf hv hw (normalize_scalar hv hj) (normalize_scalar hw hj'))
  | enum _ h ih =>
    obtain ⟨x, rfl, hx⟩ := hasShape_enum hv
    obtain ⟨y, rfl, hy⟩ := hasShape_enum hw
    exact .enum (ih (h x hx) (h y hy) (canonical_enum.mp hj) (canonical_enum.mp hj'))
  | mapping _ ih =>
    obtain ⟨items, rfl, hnodup, hitems⟩ := hasShape_mapping hv
    obtain ⟨items', rfl, -, hitems'⟩ := hasShape_mapping hw
    obtain ⟨fs, hfs, rfl⟩ := canonical_mapping.mp hj
    obtain ⟨fs', hfs', heq⟩ := canonical_mapping.mp hj'
    have hsorted := Json.obj.inj heq
    have hperm : fs'.Perm fs := by
      refine (sortBy_perm (·.1) fs').symm.trans ?_
      rw [← hsorted]
      exact sortBy_perm (·.1) fs
    obtain ⟨order, horder, hall⟩ := perm_forall₂ hfs' hperm
    obtain ⟨hkeys, hzip⟩ := zip_canonicalField hfs hall
    refine .mapping hnodup horder hkeys fun p q hpq => ?_
    obtain ⟨hp, hq, hkey, j, hpj, hqj⟩ := hzip p q hpq
    have hqshape := hitems' q (horder.subset hq)
    rw [← hkey] at hqshape
    exact ih p.1 (hitems p hp) hqshape hpj hqj
  | @dataclass names field _ ih =>
    obtain ⟨fields, rfl, hnames, hnodup, hfields⟩ := hasShape_dataclass hv
    obtain ⟨fields', rfl, hnames', -, hfields'⟩ := hasShape_dataclass hw
    obtain ⟨fs, hfs, rfl⟩ := canonical_dataclass.mp hj
    obtain ⟨fs', hfs', heq⟩ := canonical_dataclass.mp hj'
    have hsorted := Json.obj.inj heq
    have hperm : fs.Perm fs' := by
      refine (sortBy_perm (·.1) fs).symm.trans ?_
      rw [hsorted]
      exact sortBy_perm (·.1) fs'
    have hkeys : fs.map (·.1) = names := (map_forall₂ hfs fun p f hf => hf.1).symm.trans hnames
    have hkeys' : fs'.map (·.1) = names := (map_forall₂ hfs' fun p f hf => hf.1).symm.trans hnames'
    obtain rfl := eq_of_perm_of_map_eq hperm (hkeys.trans hkeys'.symm) (hkeys ▸ hnodup)
    obtain ⟨hfieldNames, hzip⟩ := zip_canonicalField hfs hfs'
    refine .dataclass hfieldNames fun p q hpq => ?_
    obtain ⟨hp, hq, hkey, j, hpj, hqj⟩ := hzip p q hpq
    have hqshape := hfields' q hq
    rw [← hkey] at hqshape
    exact ih p.1 (hfields p hp) hqshape hpj hqj
  | list _ ih =>
    obtain ⟨items, rfl, hitems⟩ := hasShape_list hv
    obtain ⟨items', rfl, hitems'⟩ := hasShape_list hw
    obtain ⟨js, hjs, rfl⟩ := canonical_list.mp hj
    obtain ⟨js', hjs', heq⟩ := canonical_list.mp hj'
    obtain rfl := Json.arr.inj heq
    obtain ⟨hlength, hzip⟩ := zip_canonical hjs hjs'
    refine .list hlength fun x y hxy => ?_
    obtain ⟨hx, hy, j, hxj, hyj⟩ := hzip x y hxy
    exact ih (hitems x hx) (hitems' y hy) hxj hyj
  | tuple _ ih =>
    obtain ⟨items, rfl, hitems⟩ := hasShape_tuple hv
    obtain ⟨items', rfl, hitems'⟩ := hasShape_tuple hw
    obtain ⟨js, hjs, rfl⟩ := canonical_tuple.mp hj
    obtain ⟨js', hjs', heq⟩ := canonical_tuple.mp hj'
    obtain rfl := Json.arr.inj heq
    obtain ⟨hlength, hzip⟩ := zip_canonical hjs hjs'
    refine .tuple hlength fun x y hxy => ?_
    obtain ⟨hx, hy, j, hxj, hyj⟩ := hzip x y hxy
    exact ih (hitems x hx) (hitems' y hy) hxj hyj
  | set _ ih =>
    obtain ⟨items, rfl, hitems⟩ := hasShape_set hv
    obtain ⟨items', rfl, hitems'⟩ := hasShape_set hw
    obtain ⟨js, hjs, rfl⟩ := canonical_set.mp hj
    obtain ⟨js', hjs', heq⟩ := canonical_set.mp hj'
    have hsorted := Json.arr.inj heq
    have hperm : js'.Perm js := by
      refine (sortBy_perm keyText js').symm.trans ?_
      rw [← hsorted]
      exact sortBy_perm keyText js
    obtain ⟨order, horder, hall⟩ := perm_forall₂ hjs' hperm
    obtain ⟨hlength, hzip⟩ := zip_canonical hjs hall
    refine .set horder hlength fun x y hxy => ?_
    obtain ⟨hx, hy, j, hxj, hyj⟩ := hzip x y hxy
    exact ih (hitems x hx) (hitems' y (horder.subset hy)) hxj hyj

theorem canonical_inj (hs : s.Uniform) (hv : HasShape s v) (hw : HasShape s w)
    (hj : IsCanonical v j) (hj' : IsCanonical w j) : PyEq v w :=
  (canonical_matched scalar_inj hs hv hw hj hj').pyEq

-- ==== values built alike

/-- What holds of each item and its counterpart carries the canonical forms
over. -/
theorem zip_carries (hlength : items.length = items'.length)
    (hzip : ∀ v w, (v, w) ∈ items.zip items' → ∀ j, IsCanonical v j → IsCanonical w j)
    (h : List.Forall₂ IsCanonical items js) :
    List.Forall₂ IsCanonical items' js := by
  induction h generalizing items' with
  | nil =>
    rw [eq_nil_of_length_eq_zero hlength.symm]
    exact .nil
  | @cons v j items js hv _ ih =>
    cases items' with
    | nil => cases hlength
    | cons w items' =>
      refine .cons (hzip v w mem_cons_self j hv) (ih (Nat.succ.inj hlength) fun x y hxy => ?_)
      exact hzip x y (mem_cons_of_mem _ hxy)

theorem zip_carriesField (hkeys : fields.map (·.1) = fields'.map (·.1))
    (hzip : ∀ p q, (p, q) ∈ fields.zip fields' → ∀ j, IsCanonical p.2 j → IsCanonical q.2 j)
    (h : List.Forall₂ IsCanonicalField fields fs) :
    List.Forall₂ IsCanonicalField fields' fs := by
  induction h generalizing fields' with
  | nil =>
    rw [map_eq_nil_iff.mp hkeys.symm]
    exact .nil
  | @cons p f fields fs hp _ ih =>
    cases fields' with
    | nil => cases hkeys
    | cons q fields' =>
      have hkey : p.1 = q.1 := head_eq_of_cons_eq hkeys
      refine .cons ⟨hkey.symm.trans hp.1, hzip p q mem_cons_self f.2 hp.2⟩
        (ih (tail_eq_of_cons_eq hkeys) fun x y hxy => ?_)
      exact hzip x y (mem_cons_of_mem _ hxy)

theorem sort_set {js js' : List Json} (h : js.Perm js') :
    sortBy keyText js = sortBy keyText js' := by
  have hkeys : (sortBy keyText js).map keyText
      = (sortBy keyText js').map keyText := map_sortBy_eq (h.map keyText)
  exact map_injective_iff.mpr (fun _ _ => keyText_inj) hkeys

/-- Values built alike have one canonical form where their leaves do. -/
theorem Matched.canonical
    (hleaf : ∀ v w, leaf v w → ∀ j, IsCanonical v j → IsCanonical w j) (h : Matched leaf v w) :
    ∀ j, IsCanonical v j → IsCanonical w j := by
  induction h with
  | leaf h => exact hleaf _ _ h
  | enum _ ih => exact fun j hj => canonical_enum.mpr (ih j (canonical_enum.mp hj))
  | @mapping items items' order hnodup hperm hkeys _ ih =>
    intro j hj
    obtain ⟨fs, hfs, rfl⟩ := canonical_mapping.mp hj
    obtain ⟨fs', hall, hperm'⟩ := perm_comp_forall₂ hperm.symm (zip_carriesField hkeys ih hfs)
    refine canonical_mapping.mpr ⟨fs', hall, ?_⟩
    have hfsKeys : items.map (·.1) = fs.map (·.1) := map_forall₂ hfs fun p f hf => hf.1
    rw [sortBy_eq_of_perm hperm'.symm (hfsKeys ▸ hnodup)]
  | set hperm hlength _ ih =>
    intro j hj
    obtain ⟨js, hjs, rfl⟩ := canonical_set.mp hj
    obtain ⟨js', hall, hperm'⟩ := perm_comp_forall₂ hperm.symm (zip_carries hlength ih hjs)
    refine canonical_set.mpr ⟨js', hall, ?_⟩
    rw [sort_set hperm'.symm]
  | list hlength _ ih =>
    intro j hj
    obtain ⟨js, hjs, rfl⟩ := canonical_list.mp hj
    exact canonical_list.mpr ⟨js, zip_carries hlength ih hjs, rfl⟩
  | tuple hlength _ ih =>
    intro j hj
    obtain ⟨js, hjs, rfl⟩ := canonical_tuple.mp hj
    exact canonical_tuple.mpr ⟨js, zip_carries hlength ih hjs, rfl⟩
  | dataclass hnames _ ih =>
    intro j hj
    obtain ⟨fs, hfs, rfl⟩ := canonical_dataclass.mp hj
    exact canonical_dataclass.mpr ⟨fs, zip_carriesField hnames ih hfs, rfl⟩

theorem canonical_reordered (h : Reordered v w) : ∀ j, IsCanonical v j → IsCanonical w j := by
  apply h.matched.canonical
  intro v w hleaf
  rw [hleaf]
  exact fun j hj => hj

-- ==== the content hash

variable {sha256 : String → String} {digest : String}

theorem canonicalJsonSha256_ok : canonicalJsonSha256 sha256 v = .ok digest
      ↔ ∃ text, canonicalJson v = .ok text ∧ sha256 text = digest := by
  simp only [canonicalJsonSha256, bind_ok, pure_ok]

theorem hash_of_canonical (h : ∀ j, IsCanonical v j → IsCanonical w j)
    (hdigest : canonicalJsonSha256 sha256 v = .ok digest) :
    canonicalJsonSha256 sha256 w = .ok digest := by
  obtain ⟨text, htext, rfl⟩ := canonicalJsonSha256_ok.mp hdigest
  refine canonicalJsonSha256_ok.mpr ⟨text, ?_, rfl⟩
  rw [canonicalJson_eq, map_ok] at htext ⊢
  obtain ⟨j, hj, rfl⟩ := htext
  exact ⟨j, h j hj, rfl⟩

theorem exists_hash (hj : IsCanonical v j) :
    ∃ digest, canonicalJsonSha256 sha256 v = .ok digest := by
  have htext := canonicalJson_eq v
  rw [show canonical v = .ok j from hj] at htext
  exact ⟨_, canonicalJsonSha256_ok.mpr ⟨_, htext, rfl⟩⟩

/-- Values of one hash have one canonical form, when SHA-256 tells their texts
apart. -/
theorem canonical_eq_of_hash (hsha : ∀ t t', canonicalJson v = .ok t → canonicalJson w = .ok t' →
      sha256 t = sha256 t' → t = t') (hj : IsCanonical v j)
    (hj' : IsCanonical w j')
    (h : canonicalJsonSha256 sha256 v = canonicalJsonSha256 sha256 w) : j = j' := by
  have htext := canonicalJson_eq v
  have htext' := canonicalJson_eq w
  rw [show canonical v = .ok j from hj] at htext
  rw [show canonical w = .ok j' from hj'] at htext'
  unfold canonicalJsonSha256 at h
  rw [htext, htext'] at h
  have hsame := hsha _ _ htext htext' (Except.ok.inj h)
  apply canonicalJson_inj hj hj'
  rw [htext, htext']
  exact congrArg Except.ok hsame

def sampleValue (first : Bool) : Value :=
  let tags := Value.set (if first then [.str "x", .str "y"]
    else [.str "y", .str "x"])
  let weight := Value.decimal ⟨false, 150, -2⟩
  .mapping (if first then [("a", weight), ("b", tags)]
    else [("b", tags), ("a", weight)])

def sampleShape : Shape :=
  .mapping fun key => if key = "a" then .scalar .decimal
    else .set (.scalar .str)

def sampleSha256 (text : String) : String :=
  if text = "\x7b\"a\":\"1.50\",\"b\":[\"x\",\"y\"]\x7d" then
    "49ee5f900ca12f48d3e4df97b14ad4e61a1e169cc9d9cd852de1d62e923d2e67"
  else text

theorem sampleValue_hasShape (first : Bool) : HasShape sampleShape (sampleValue first) := by
  cases first <;>
    simp [sampleShape, sampleValue, HasShape, HasScalar.str, HasScalar.decimal]

end MarketRegimeAlpha.Shared
