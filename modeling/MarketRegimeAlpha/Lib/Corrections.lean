/-
Append-only entries of which later ones may correct earlier ones.

# The rules

An entry either is an original or names the original it corrects. Every
entry has its own identifier, and every original is corrected at most once
and never by anything older (`Corrected`), so what a list of entries amounts
to does not depend on its order (`total_perm`).

`total g` is the sum, over the originals, of what `g` makes of an original
and its correction. It is a ledger: an original brings in its own amount
(`total_concat_original`), and a correction replaces the amount of its
original (`total_concat_correction`). `delta` is the amount of either, and
stays the same among the entries of one kind, as long as an entry and what
it corrects are of the same kind (`total_filter_concat`).

`effective` is the list of the entries that count: the originals, each
replaced by its correction.
-/
import Mathlib.Algebra.BigOperators.Group.List.Basic
import Mathlib.Data.List.Find
import Mathlib.Data.List.Nodup
import MarketRegimeAlpha.Lib.Checked

namespace MarketRegimeAlpha.Lib

open List

variable {α κ M : Type _} [DecidableEq κ]

/-- The entry that corrects another one. -/
def correction (id : α → κ) (target : α → Option κ) (entries : List α) (entry : α) : Option α :=
  entries.find? (target · = some (id entry))

/-- The entries that correct nothing. -/
def originals (target : α → Option κ) (entries : List α) : List α :=
  entries.filter (target · = none)

/-- What the entries amount to, when an original with its correction is worth
`g`. -/
def total [AddMonoid M] (id : α → κ) (target : α → Option κ)
    (g : α → Option α → M) (entries : List α) : M :=
  ((originals target entries).map fun entry => g entry (correction id target entries entry)).sum

/-- Entries with identifiers of their own, of which each original is
corrected at most once. -/
structure Corrected (id : α → κ) (target : α → Option κ) (entries : List α) : Prop where
  ids : (entries.map id).Nodup
  once : (entries.filterMap target).Nodup
  known : ∀ entry ∈ entries, ∀ key ∈ target entry,
    ∃ original ∈ entries, id original = key ∧ target original = none

section

variable {id : α → κ} {target : α → Option κ} {entries entries' : List α} {entry original : α}

omit [DecidableEq κ] in
theorem corrected_nil : Corrected id target ([] : List α) :=
  ⟨nodup_nil, nodup_nil, fun _ h => absurd h not_mem_nil⟩

omit [DecidableEq κ] in
theorem Corrected.perm (h : Corrected id target entries)
    (hperm : entries.Perm entries') : Corrected id target entries' := by
  constructor
  case ids => exact (hperm.map id).nodup_iff.mp h.ids
  case once => exact (hperm.filterMap target).nodup_iff.mp h.once
  case known =>
    intro entry hentry key hkey
    obtain ⟨original, hmem, horiginal⟩ := h.known entry (hperm.mem_iff.mpr hentry) key hkey
    exact ⟨original, hperm.mem_iff.mp hmem, horiginal⟩

omit [DecidableEq κ] in
theorem mem_originals : entry ∈ originals target entries ↔
    entry ∈ entries ∧ target entry = none := by
  unfold originals
  rw [mem_filter, decide_eq_true_eq]

omit [DecidableEq κ] in
/-- Two corrections of one original are the same. -/
theorem Corrected.eq_of_target (h : Corrected id target entries) {c c' : α}
    {key : κ} (hc : c ∈ entries) (hc' : c' ∈ entries)
    (hkey : target c = some key) (hkey' : target c' = some key) : c = c' := by
  have honce := h.once
  clear h
  induction entries with
  | nil => exact absurd hc not_mem_nil
  | cons a l ih =>
    have hmem : ∀ b ∈ l, target b = some key → key ∈ l.filterMap target :=
      fun b hb hkey => mem_filterMap.mpr ⟨b, hb, hkey⟩
    cases htarget : target a with
    | none =>
      rw [filterMap_cons_none htarget] at honce
      refine ih ?_ ?_ honce
      · refine (mem_cons.mp hc).resolve_left ?_
        rintro rfl
        exact absurd (htarget.symm.trans hkey) nofun
      · refine (mem_cons.mp hc').resolve_left ?_
        rintro rfl
        exact absurd (htarget.symm.trans hkey') nofun
    | some other =>
      rw [filterMap_cons_some htarget, nodup_cons] at honce
      obtain ⟨hfresh, honce⟩ := honce
      cases mem_cons.mp hc with
      | inl heq =>
        cases mem_cons.mp hc' with
        | inl heq' => exact heq.trans heq'.symm
        | inr hc' =>
          have hother : other = key := by
            rw [heq, htarget] at hkey
            exact Option.some.inj hkey
          exact absurd (hother ▸ hmem c' hc' hkey') hfresh
      | inr hc =>
        cases mem_cons.mp hc' with
        | inl heq' =>
          have hother : other = key := by
            rw [heq', htarget] at hkey'
            exact Option.some.inj hkey'
          exact absurd (hother ▸ hmem c hc hkey) hfresh
        | inr hc' => exact ih hc hc' honce

theorem correction_eq_some (h : Corrected id target entries) {c : α} :
    correction id target entries entry = some c ↔ c ∈ entries ∧ target c = some (id entry) := by
  unfold correction
  constructor
  · intro hfind
    exact ⟨mem_of_find?_eq_some hfind, by simpa using find?_some hfind⟩
  · rintro ⟨hmem, htarget⟩
    cases hfind : entries.find? (target · = some (id entry)) with
    | none =>
      have hnone := find?_eq_none.mp hfind c hmem
      exact absurd (decide_eq_true htarget) hnone
    | some c' =>
      have hmem' := mem_of_find?_eq_some hfind
      have htarget' : target c' = some (id entry) := by simpa using find?_some hfind
      rw [h.eq_of_target hmem hmem' htarget htarget']

theorem correction_eq_none : correction id target entries entry = none ↔
    ∀ c ∈ entries, target c ≠ some (id entry) := by
  unfold correction
  rw [find?_eq_none]
  exact forall₂_congr fun c _ => by rw [decide_eq_true_eq]

theorem correction_perm (h : Corrected id target entries) (hperm : entries.Perm entries') :
    correction id target entries entry = correction id target entries' entry := by
  refine Option.ext fun c => ?_
  rw [correction_eq_some h, correction_eq_some (h.perm hperm), hperm.mem_iff]

-- ==== what is in effect

/-- The originals, each replaced by its correction. -/
def effective (id : α → κ) (target : α → Option κ) (entries : List α) :
    List α :=
  (originals target entries).map fun entry => (correction id target entries entry).getD entry

theorem correction_or_self (h : Corrected id target entries) (entry : α) :
    (correction id target entries entry = none
      ∧ (correction id target entries entry).getD entry = entry)
    ∨ ∃ c ∈ entries, target c = some (id entry)
      ∧ (correction id target entries entry).getD entry = c := by
  cases hcorrection : correction id target entries entry with
  | none => exact .inl ⟨rfl, rfl⟩
  | some c =>
    obtain ⟨hmem, htarget⟩ := (correction_eq_some h).mp hcorrection
    exact .inr ⟨c, hmem, htarget, rfl⟩

theorem effective_perm (h : Corrected id target entries) (hperm : entries.Perm entries') :
    (effective id target entries).Perm (effective id target entries') := by
  unfold effective
  rw [map_congr_left fun entry _ => congrArg (Option.getD · entry) (correction_perm h hperm)]
  exact (hperm.filter _).map _

theorem effective_ids (h : Corrected id target entries) :
    ((effective id target entries).map id).Nodup := by
  have hentries : entries.Nodup := Nodup.of_map _ h.ids
  have horiginals : (originals target entries).Nodup := hentries.filter _
  unfold effective
  rw [map_map]
  refine Nodup.map_on (fun a ha b hb hab => ?_) horiginals
  have hinj := inj_on_of_nodup_map h.ids
  obtain ⟨hmema, hnonea⟩ := mem_originals.mp ha
  obtain ⟨hmemb, hnoneb⟩ := mem_originals.mp hb
  simp only [Function.comp] at hab
  rcases correction_or_self h a with ⟨-, hselfa⟩ | ⟨c, hmemc, htarget, hc⟩
  · rcases correction_or_self h b with ⟨-, hselfb⟩ | ⟨c', hmemc', htarget', hc'⟩
    · rw [hselfa, hselfb] at hab
      exact hinj hmema hmemb hab
    · rw [hselfa, hc'] at hab
      rw [← hinj hmema hmemc' hab, hnonea] at htarget'
      cases htarget'
  · rcases correction_or_self h b with ⟨-, hselfb⟩ | ⟨c', hmemc', htarget', hc'⟩
    · rw [hc, hselfb] at hab
      rw [hinj hmemc hmemb hab, hnoneb] at htarget
      cases htarget
    · rw [hc, hc'] at hab
      rw [hinj hmemc hmemc' hab, htarget'] at htarget
      exact hinj hmema hmemb (Option.some.inj htarget).symm

omit [DecidableEq κ] in
/-- Entries that agree with others on their identifiers and targets are
corrected as they are. -/
theorem Corrected.of_forall₂ {β : Type _} {id' : β → κ} {target' : β → Option κ} {R : α → β → Prop}
    (hid : ∀ a b, R a b → id a = id' b)
    (htarget : ∀ a b, R a b → target a = target' b) {entries' : List β}
    (hR : List.Forall₂ R entries entries')
    (h : Corrected id' target' entries') : Corrected id target entries := by
  have hpairs : entries.map (fun a => (id a, target a))
      = entries'.map fun b => (id' b, target' b) :=
    map_forall₂ hR fun a b hab => by rw [hid a b hab, htarget a b hab]
  have hids : entries.map id = entries'.map id' := by
    simpa [map_map, Function.comp_def] using congrArg (List.map Prod.fst) hpairs
  have htargets : entries.filterMap target = entries'.filterMap target' := by
    simpa [filterMap_map, Function.comp_def] using congrArg (List.filterMap Prod.snd) hpairs
  constructor
  case ids => exact hids ▸ h.ids
  case once => exact htargets ▸ h.once
  case known =>
    intro entry hentry key hkey
    obtain ⟨entry', hentry', hab⟩ := forall₂_left hR hentry
    obtain ⟨original', hmem', hid', hnone'⟩ := h.known entry' hentry' key (htarget _ _ hab ▸ hkey)
    obtain ⟨original, hmem, hab'⟩ := forall₂_right hR hmem'
    exact ⟨original, hmem, (hid _ _ hab').trans hid', (htarget _ _ hab').trans hnone'⟩

/-- Lists that agree on their identifiers and targets agree in what is in
effect. -/
theorem forall₂_effective {β : Type _} {id' : β → κ} {target' : β → Option κ} {R : α → β → Prop}
    (hid : ∀ a b, R a b → id a = id' b) (htarget : ∀ a b, R a b → target a = target' b)
    {entries' : List β} (h : List.Forall₂ R entries entries') :
    List.Forall₂ R (effective id target entries) (effective id' target' entries') := by
  have hfind : ∀ (key : κ) {l : List α} {l' : List β}, List.Forall₂ R l l' →
      Option.Rel R (l.find? (target · = some key)) (l'.find? (target' · = some key)) := by
    intro key l l' h
    induction h with
    | nil => exact .none
    | @cons a b l l' hab h ih =>
      by_cases ha : target a = some key
      · have hb : target' b = some key := by rwa [← htarget a b hab]
        rw [find?_cons_of_pos (by simpa using ha), find?_cons_of_pos (by simpa using hb)]
        exact .some hab
      · have hb : ¬ target' b = some key := by rwa [← htarget a b hab]
        rw [find?_cons_of_neg (by simpa using ha), find?_cons_of_neg (by simpa using hb)]
        exact ih
  have horiginals : ∀ {l : List α} {l' : List β}, List.Forall₂ R l l' →
      List.Forall₂ R (originals target l) (originals target' l') := by
    intro l l' h
    unfold originals
    induction h with
    | nil => exact .nil
    | @cons a b l l' hab h ih =>
      by_cases ha : target a = none
      · have hb : target' b = none := by rwa [← htarget a b hab]
        rw [filter_cons_of_pos (by simpa using ha),
          filter_cons_of_pos (by simpa using hb)]
        exact .cons hab ih
      · have hb : ¬ target' b = none := by rwa [← htarget a b hab]
        rw [filter_cons_of_neg (by simpa using ha),
          filter_cons_of_neg (by simpa using hb)]
        exact ih
  unfold effective
  rw [forall₂_map_left_iff, forall₂_map_right_iff]
  refine (horiginals h).imp fun a b hab => ?_
  have hrel := hfind (id a) h
  unfold correction
  rw [← hid a b hab]
  generalize entries.find? (target · = some (id a)) = x at hrel ⊢
  generalize entries'.find? (target' · = some (id a)) = y at hrel ⊢
  cases hrel with
  | none => exact hab
  | some hcd => exact hcd

-- ==== the totals

variable {g : α → Option α → M}

theorem total_perm [AddCommMonoid M] (h : Corrected id target entries)
    (hperm : entries.Perm entries') :
    total id target g entries = total id target g entries' := by
  unfold total
  rw [map_congr_left fun entry _ => congrArg (g entry) (correction_perm h hperm)]
  exact ((hperm.filter _).map _).sum_eq

omit [DecidableEq κ] in
theorem Corrected.concat_original (h : Corrected id target entries)
    (htarget : target entry = none) (hfresh : id entry ∉ entries.map id) :
    Corrected id target (entries ++ [entry]) := by
  constructor
  case ids =>
    rw [map_append, map_singleton]
    exact h.ids.append (nodup_singleton _) (disjoint_singleton.mpr hfresh)
  case once =>
    rw [filterMap_append, filterMap_cons_none htarget,
      filterMap_nil, append_nil]
    exact h.once
  case known =>
    intro other hother key hkey
    cases mem_append.mp hother with
    | inl hother =>
      obtain ⟨original, hmem, horiginal⟩ := h.known other hother key hkey
      exact ⟨original, mem_append_left _ hmem, horiginal⟩
    | inr hother =>
      rw [mem_singleton.mp hother, htarget] at hkey
      exact absurd hkey nofun

theorem Corrected.concat_correction (h : Corrected id target entries)
    (horiginal : original ∈ originals target entries) (htarget : target entry = some (id original))
    (hfresh : id entry ∉ entries.map id) (hnone : correction id target entries original = none) :
    Corrected id target (entries ++ [entry]) := by
  obtain ⟨hmem, hnot⟩ := mem_originals.mp horiginal
  constructor
  case ids =>
    rw [map_append, map_singleton]
    exact h.ids.append (nodup_singleton _) (disjoint_singleton.mpr hfresh)
  case once =>
    rw [filterMap_append, filterMap_cons_some htarget, filterMap_nil]
    refine h.once.append (nodup_singleton _) (disjoint_singleton.mpr ?_)
    intro hmem
    obtain ⟨c, hc, hkey⟩ := mem_filterMap.mp hmem
    exact correction_eq_none.mp hnone c hc hkey
  case known =>
    intro other hother key hkey
    cases mem_append.mp hother with
    | inl hother =>
      obtain ⟨original, hmem, horiginal⟩ := h.known other hother key hkey
      exact ⟨original, mem_append_left _ hmem, horiginal⟩
    | inr hother =>
      rw [mem_singleton.mp hother, htarget] at hkey
      exact ⟨original, mem_append_left _ hmem, Option.some.inj hkey, hnot⟩

theorem correction_concat_ne (h : target entry ≠ some (id original)) :
    correction id target (entries ++ [entry]) original = correction id target entries original := by
  unfold correction
  rw [find?_append, find?_singleton, if_neg (by simpa using h), Option.or_none]

theorem correction_concat_eq (h : target entry = some (id original))
    (hnone : correction id target entries original = none) :
    correction id target (entries ++ [entry]) original = some entry := by
  unfold correction at hnone ⊢
  rw [find?_append, hnone, find?_singleton, if_pos (decide_eq_true h), Option.none_or]

theorem total_concat_original [AddMonoid M] (h : Corrected id target entries)
    (htarget : target entry = none) (hfresh : id entry ∉ entries.map id) :
    total id target g (entries ++ [entry]) = total id target g entries + g entry none := by
  have hnone : correction id target entries entry = none := by
    refine correction_eq_none.mpr fun c hc hkey => hfresh ?_
    obtain ⟨original, hmem, hid, _⟩ := h.known c hc (id entry) hkey
    exact hid ▸ mem_map_of_mem hmem
  have hsame : ∀ other, correction id target (entries ++ [entry]) other
      = correction id target entries other := by
    intro other
    exact correction_concat_ne (by rw [htarget]; exact nofun)
  have horiginals : originals target (entries ++ [entry])
      = originals target entries ++ [entry] := by
    unfold originals
    rw [filter_append, filter_cons_of_pos (by simp [htarget]), filter_nil]
  unfold total
  rw [horiginals, map_append, sum_append, map_singleton,
    sum_singleton, hsame, hnone]
  simp only [hsame]

/-- A correction replaces the amount of its original. -/
theorem total_concat_correction [AddCommMonoid M] (h : Corrected id target entries)
    (horiginal : original ∈ originals target entries) (htarget : target entry = some (id original))
    (hnone : correction id target entries original = none) :
    total id target g (entries ++ [entry]) + g original none
      = total id target g entries + g original (some entry) := by
  have horiginals : originals target (entries ++ [entry]) = originals target entries := by
    unfold originals
    rw [filter_append, filter_cons_of_neg (by simp [htarget]),
      filter_nil, append_nil]
  have hids : ((originals target entries).map id).Nodup :=
    h.ids.sublist (filter_sublist.map id)
  have hsame : ∀ other ∈ originals target entries, id other ≠ id original →
      correction id target (entries ++ [entry]) other = correction id target entries other := by
    intro other _ hne
    refine correction_concat_ne ?_
    rw [htarget]
    exact fun heq => hne (Option.some.inj heq).symm
  obtain ⟨before, after, hsplit⟩ := append_of_mem horiginal
  unfold total
  rw [horiginals]
  rw [hsplit] at hids hsame ⊢
  rw [map_append, map_cons, nodup_append] at hids
  obtain ⟨_, hafter, hdisjoint⟩ := hids
  have hbefore : ∀ other ∈ before, id other ≠ id original := fun other hmem =>
    hdisjoint _ (mem_map_of_mem hmem) _ mem_cons_self
  have hbehind : ∀ other ∈ after, id other ≠ id original := by
    intro other hmem heq
    exact (nodup_cons.mp hafter).1 (heq ▸ mem_map_of_mem hmem)
  have hmapBefore : before.map (fun other =>
        g other (correction id target (entries ++ [entry]) other))
      = before.map fun other => g other (correction id target entries other) :=
    map_congr_left fun other hmem => congrArg (g other)
      (hsame other (mem_append_left _ hmem) (hbefore other hmem))
  have hmapAfter : after.map (fun other =>
        g other (correction id target (entries ++ [entry]) other))
      = after.map fun other => g other (correction id target entries other) :=
    map_congr_left fun other hmem => congrArg (g other)
      (hsame other (mem_append_right _ (mem_cons_of_mem _ hmem)) (hbehind other hmem))
  simp only [map_append, map_cons, sum_append, sum_cons,
    hmapBefore, hmapAfter, correction_concat_eq htarget hnone, hnone]
  simp only [add_comm, add_left_comm]

-- ==== the delta

/-- What one more entry adds. -/
def delta [AddGroup M] (id : α → κ) (target : α → Option κ)
    (g : α → Option α → M) (entries : List α) (entry : α) : M :=
  match target entry with
  | none => g entry none
  | some key =>
    match entries.find? (id · = key) with
    | none => 0
    | some original => g original (some entry) - g original none

theorem Corrected.find?_id (h : Corrected id target entries) (horiginal : original ∈ entries) :
    entries.find? (id · = id original) = some original := by
  cases hfind : entries.find? (id · = id original) with
  | none => exact absurd (decide_eq_true rfl) (find?_eq_none.mp hfind original horiginal)
  | some other =>
    have hother := mem_of_find?_eq_some hfind
    have hid : id other = id original := by simpa using find?_some hfind
    rw [inj_on_of_nodup_map h.ids hother horiginal hid]

theorem delta_original [AddGroup M] (htarget : target entry = none) :
    delta id target g entries entry = g entry none := by
  unfold delta
  rw [htarget]

theorem delta_correction [AddGroup M] (h : Corrected id target entries)
    (horiginal : original ∈ entries) (htarget : target entry = some (id original)) :
    delta id target g entries entry = g original (some entry) - g original none := by
  unfold delta
  rw [htarget]
  simp only [h.find?_id horiginal]

theorem total_concat [AddCommGroup M] (h : Corrected id target entries)
    (h' : Corrected id target (entries ++ [entry])) :
    total id target g (entries ++ [entry])
      = total id target g entries + delta id target g entries entry := by
  have hids := h'.ids
  rw [map_append, map_singleton] at hids
  have hfresh : id entry ∉ entries.map id := by
    intro hmem
    exact (nodup_append.mp hids).2.2 _ hmem _ (mem_singleton.mpr rfl) rfl
  cases htarget : target entry with
  | none =>
    rw [delta_original htarget]
    exact total_concat_original h htarget hfresh
  | some key =>
    obtain ⟨original, hmem, hid, hnot⟩ := h'.known entry
      (mem_append_right _ (mem_singleton.mpr rfl)) key htarget
    subst hid
    have hold : original ∈ entries := by
      refine (mem_append.mp hmem).resolve_right fun hlast => ?_
      rw [← mem_singleton.mp hlast, hnot] at htarget
      exact absurd htarget nofun
    have hnone : correction id target entries original = none := by
      refine correction_eq_none.mpr fun c hc hkey => hfresh ?_
      have hsame := h'.eq_of_target (mem_append_left _ hc)
        (mem_append_right _ (mem_singleton.mpr rfl)) hkey htarget
      exact hsame ▸ mem_map_of_mem hc
    have htotal := total_concat_correction (g := g) h (mem_originals.mpr ⟨hold, hnot⟩) htarget hnone
    rw [delta_correction h hold htarget, add_sub, ← htotal, add_sub_cancel_right]

section Kinds

variable {p : α → Bool}

omit [DecidableEq κ] in
theorem Corrected.filter (h : Corrected id target entries)
    (hkind : ∀ c ∈ entries, ∀ original ∈ entries, target c = some (id original) → p c = p original)
    :
    Corrected id target (entries.filter p) := by
  constructor
  case ids => exact h.ids.sublist (filter_sublist.map _)
  case once => exact h.once.sublist (filter_sublist.filterMap _)
  case known =>
    intro c hc key hkey
    obtain ⟨hmem, hp⟩ := mem_filter.mp hc
    obtain ⟨original, horiginal, hid, hnone⟩ := h.known c hmem key hkey
    refine ⟨original, mem_filter.mpr ⟨horiginal, ?_⟩, hid, hnone⟩
    rw [← hkind c hmem original horiginal (hid ▸ hkey)]
    exact hp

/-- What is in effect of one kind. -/
theorem effective_filter (h : Corrected id target entries)
    (hkind : ∀ c ∈ entries, ∀ original ∈ entries, target c = some (id original) → p c = p original)
    :
    effective id target (entries.filter p) = (effective id target entries).filter p := by
  have hfilter := h.filter hkind
  unfold effective
  rw [filter_map]
  have horiginals : originals target (entries.filter p) = (originals target entries).filter p := by
    unfold originals
    rw [filter_filter, filter_filter]
    exact filter_congr fun entry _ => Bool.and_comm _ _
  have hsame : ∀ entry ∈ originals target entries, p entry = true →
      correction id target (entries.filter p) entry = correction id target entries entry := by
    intro entry hentry hp
    refine Option.ext fun c => ?_
    rw [correction_eq_some hfilter, correction_eq_some h, mem_filter]
    constructor
    · rintro ⟨⟨hmem, -⟩, htarget⟩
      exact ⟨hmem, htarget⟩
    · rintro ⟨hmem, htarget⟩
      refine ⟨⟨hmem, ?_⟩, htarget⟩
      rw [hkind c hmem entry (mem_originals.mp hentry).1 htarget]
      exact hp
  rw [horiginals]
  have hp : (originals target entries).filter p = (originals target entries).filter
        (p ∘ fun entry => (correction id target entries entry).getD entry) := by
    refine filter_congr fun entry hentry => ?_
    simp only [Function.comp]
    rcases correction_or_self h entry with ⟨-, hself⟩ | ⟨c, hmem, htarget, hc⟩
    · rw [hself]
    · rw [hc, hkind c hmem entry (mem_originals.mp hentry).1 htarget]
  rw [← hp]
  refine map_congr_left fun entry hentry => ?_
  obtain ⟨hmem, hpass⟩ := mem_filter.mp hentry
  rw [hsame entry hmem hpass]

theorem delta_filter [AddGroup M] (h : Corrected id target entries) (hp : p entry = true)
    (hkind : ∀ original ∈ entries, target entry = some (id original) → p entry = p original) :
    delta id target g (entries.filter p) entry = delta id target g entries entry := by
  unfold delta
  cases htarget : target entry with
  | none => rfl
  | some key =>
    have hfind : (entries.filter p).find? (id · = key) = entries.find? (id · = key) := by
      cases hall : entries.find? (id · = key) with
      | none =>
        refine find?_eq_none.mpr fun other hother => ?_
        exact find?_eq_none.mp hall other (mem_of_mem_filter hother)
      | some original =>
        have hmem := mem_of_find?_eq_some hall
        have hid : id original = key := by simpa using find?_some hall
        subst hid
        have hsame := hkind original hmem htarget
        rw [find?_filter]
        rw [← hall]
        refine find?_congr fun other hother => ?_
        by_cases heq : id other = id original
        · have hother := inj_on_of_nodup_map h.ids hother hmem heq
          rw [hother, ← hsame, hp]
          simp
        · simp [heq]
    simp only [hfind]

/-- Among the entries of one kind, one more entry of that kind adds its
delta, and one of another kind nothing. -/
theorem total_filter_concat [AddCommGroup M] (h : Corrected id target entries)
    (h' : Corrected id target (entries ++ [entry]))
    (hkind : ∀ c ∈ entries ++ [entry], ∀ original ∈ entries ++ [entry],
      target c = some (id original) → p c = p original) :
    total id target g ((entries ++ [entry]).filter p) = total id target g (entries.filter p)
        + if p entry then delta id target g entries entry else 0 := by
  have hlast : entry ∈ entries ++ [entry] := mem_append_right _ (mem_singleton.mpr rfl)
  have hfilter := h'.filter hkind
  have hold := h.filter fun c hc original horiginal =>
    hkind c (mem_append_left _ hc) original (mem_append_left _ horiginal)
  rw [filter_append] at hfilter ⊢
  cases hp : p entry with
  | false =>
    rw [filter_cons_of_neg (by simp [hp]), filter_nil,
      append_nil, if_neg nofun, add_zero]
  | true =>
    rw [filter_cons_of_pos hp, filter_nil] at hfilter ⊢
    rw [total_concat hold hfilter, if_pos rfl, delta_filter h hp fun original horiginal =>
        hkind entry hlast original (mem_append_left _ horiginal)]

end Kinds

end

end MarketRegimeAlpha.Lib
