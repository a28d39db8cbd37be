/-
Order statistics of a list: the k-th largest entry, the entries above
it, and maps that keep the order of the entries.

# The k-th largest entry

`kthLargest k l` is the entry at position `min k n` of the list sorted
downwards, ties included. Its two counts carry everything: at most
`k - 1` entries lie strictly above it, and at least `min k n` lie at or
above it. So an entry reaches it exactly when fewer than `k` entries
beat that one (`kthLargest_le_iff`), which says the same without sorting
anything.

# Maps that keep the order

A map that goes strictly up along the sorted distinct entries of a list
keeps the order of all of them, and the adjacent pairs are enough to
test it (`increasing_map_iff`).
-/
import Mathlib.Data.List.Perm.Basic
import Mathlib.Data.List.Sort
import Mathlib.Data.List.Dedup
import Mathlib.Data.List.TakeWhile
import Mathlib.Tactic.Linarith

namespace MarketRegimeAlpha.Lib

open List

variable {α β : Type _} [LinearOrder α]

-- ==== the k-th largest

/-- The `k`-th largest entry of a list, the last one when there are
fewer. -/
def kthLargest (k : Nat) (l : List α) : Option α := (l.insertionSort (· ≥ ·))[min k l.length - 1]?

section Sorted

variable {s : List α} {m : Nat} {b : α} (hs : s.Pairwise (· ≥ ·))

include hs in
/-- In a list sorted downwards the entries from position `m` on are at
most the one there. -/
theorem le_of_mem_drop (hb : s[m]? = some b) : ∀ x ∈ s.drop m, x ≤ b := by
  intro x hx
  obtain ⟨hm, rfl⟩ := List.getElem?_eq_some_iff.mp hb
  rw [drop_eq_getElem_cons hm] at hx
  rcases mem_cons.mp hx with rfl | hx
  · exact le_refl _
  · have hdrop := hs.sublist (drop_sublist m s)
    rw [drop_eq_getElem_cons hm] at hdrop
    exact (pairwise_cons.mp hdrop).1 x hx

include hs in
/-- The entries up to position `m` are at least the one there. -/
theorem ge_of_mem_take (hb : s[m]? = some b) : ∀ x ∈ s.take (m + 1), b ≤ x := by
  intro x hx
  obtain ⟨hm, rfl⟩ := List.getElem?_eq_some_iff.mp hb
  rw [take_succ_eq_append_getElem hm] at hx
  rcases mem_append.mp hx with hx | hx
  · rw [← take_append_drop m s, pairwise_append] at hs
    refine hs.2.2 x hx _ ?_
    rw [drop_eq_getElem_cons hm]
    exact mem_cons_self
  · rw [mem_singleton.mp hx]

include hs in
/-- At most `m` entries lie strictly above the one at position `m`. -/
theorem countP_above_le (hb : s[m]? = some b) : s.countP (b < ·) ≤ m := by
  have hdrop : (s.drop m).countP (b < ·) = 0 := by
    rw [countP_eq_zero]
    intro x hx
    simpa using le_of_mem_drop hs hb x hx
  calc s.countP (b < ·) = (s.take m).countP (b < ·) + (s.drop m).countP (b < ·) := by
        rw [← countP_append, take_append_drop]
    _ ≤ (s.take m).length := by
        rw [hdrop]
        exact countP_le_length
    _ ≤ m := by
        rw [length_take]
        exact Nat.min_le_left m _

include hs in
/-- Whatever holds of all entries at or above the one at position `m`
holds of more than `m` entries. -/
theorem lt_countP_of_ge (hb : s[m]? = some b)
    {p : α → Bool} (hp : ∀ x, b ≤ x → p x = true) : m < s.countP p := by
  obtain ⟨hm, -⟩ := List.getElem?_eq_some_iff.mp hb
  have htake : (s.take (m + 1)).countP p = m + 1 := by
    rw [countP_eq_length.mpr fun x hx => hp x (ge_of_mem_take hs hb x hx), length_take]
    omega
  calc m < (s.take (m + 1)).countP p := by omega
    _ ≤ s.countP p := (take_sublist _ s).countP_le

end Sorted

section Kth

variable {l : List α} {k : Nat} {b x : α}

theorem kthLargest_isSome (hl : l ≠ []) : ∃ b, kthLargest k l = some b := by
  have hlen : min k l.length - 1 < (l.insertionSort (· ≥ ·)).length := by
    have := length_pos_of_ne_nil hl
    rw [length_insertionSort]
    omega
  exact ⟨_, getElem?_eq_getElem hlen⟩

/-- Fewer than `k` entries lie strictly above the `k`-th largest. -/
theorem kthLargest_above (hk : 1 ≤ k) (hb : kthLargest k l = some b) : l.countP (b < ·) < k := by
  have hle := countP_above_le (pairwise_insertionSort _ l) hb
  rw [(perm_insertionSort _ l).countP_eq] at hle
  omega

/-- At least `min k n` entries lie at or above it. -/
theorem kthLargest_reached (hb : kthLargest k l = some b) {p : α → Bool}
    (hp : ∀ x, b ≤ x → p x = true) : min k l.length ≤ l.countP p := by
  have hlt := lt_countP_of_ge (pairwise_insertionSort _ l) hb hp
  rw [(perm_insertionSort _ l).countP_eq] at hlt
  omega

/-- An entry reaches the `k`-th largest exactly when fewer than `k`
entries beat it. -/
theorem kthLargest_le_iff (hk : 1 ≤ k) (hb : kthLargest k l = some b)
    (hx : x ∈ l) : b ≤ x ↔ l.countP (x < ·) < k := by
  constructor
  · intro hle
    refine lt_of_le_of_lt ?_ (kthLargest_above hk hb)
    refine countP_mono_left fun y _ hy => ?_
    rw [decide_eq_true_eq] at hy ⊢
    exact lt_of_le_of_lt hle hy
  · intro hlt
    by_contra hnot
    have hxb := lt_of_not_ge hnot
    -- everything at or above `b` beats `x`, and `x` itself does not
    have hreach := kthLargest_reached hb (p := fun y => decide (x < y))
      fun y hy => decide_eq_true (lt_of_lt_of_le hxb hy)
    have hlen : l.countP (x < ·) ≠ l.length := by
      rw [ne_eq, countP_eq_length]
      exact fun hall => by simpa using hall x hx
    have hle : l.countP (x < ·) ≤ l.length := countP_le_length
    omega

/-- The entries at or above a bound are the ones above it and the ones
at it. -/
theorem countP_ge_eq (l : List α) (b : α) :
    l.countP (b ≤ ·) = l.countP (b < ·) + l.countP (· = b) := by
  induction l with
  | nil => rfl
  | cons y ys ih =>
    simp only [countP_cons, ih, decide_eq_true_eq]
    rcases lt_trichotomy b y with h | h | h
    · simp [h, h.le, h.ne']
      omega
    · simp [h]
      omega
    · simp [not_le_of_gt h, not_lt_of_gt h, h.ne]

end Kth

-- ==== running maximum

/-- The maximum kept along a list is the greatest of what it began with
and the entries. -/
theorem isGreatest_foldl_max (a : α) (l : List α) :
    IsGreatest (insert a {x | x ∈ l}) (l.foldl max a) := by
  induction l generalizing a with
  | nil => simp
  | cons b l ih =>
    obtain ⟨hmem, hle⟩ := ih (max a b)
    rw [foldl_cons]
    constructor
    · rcases hmem with heq | hmem
      · rw [heq]
        rcases max_choice a b with hmax | hmax
        · simp [hmax]
        · simp [hmax]
      · exact Set.mem_insert_of_mem _ (mem_cons_of_mem b hmem)
    · have hfirst := hle (Set.mem_insert _ _)
      rintro x (rfl | hx)
      · exact (le_max_left _ _).trans hfirst
      · rcases mem_cons.mp hx with rfl | hx
        · exact (le_max_right _ _).trans hfirst
        · exact hle (Set.mem_insert_of_mem _ hx)

theorem isLeast_foldl_min (a : α) (l : List α) : IsLeast (insert a {x | x ∈ l}) (l.foldl min a) :=
  @isGreatest_foldl_max αᵒᵈ _ a l

theorem exists_isGreatest {l : List α} (h : l ≠ []) : ∃ g, IsGreatest {x | x ∈ l} g := by
  obtain ⟨a, l, rfl⟩ := exists_cons_of_ne_nil h
  rw [show {x | x ∈ a :: l} = insert a {x | x ∈ l} from Set.ext fun x => mem_cons]
  exact ⟨l.foldl max a, isGreatest_foldl_max a l⟩

theorem exists_isLeast {l : List α} (h : l ≠ []) : ∃ g, IsLeast {x | x ∈ l} g :=
  @exists_isGreatest αᵒᵈ _ l h

/-- `max(l, default=d)`. -/
def maxOr (d : α) : List α → α
  | [] => d
  | a :: l => l.foldl max a

theorem le_maxOr {d x : α} {l : List α} (hx : x ∈ l) : x ≤ maxOr d l := by
  cases l with
  | nil => cases hx
  | cons a l =>
    refine (isGreatest_foldl_max a l).2 ?_
    rcases mem_cons.mp hx with rfl | hx
    · exact Set.mem_insert _ _
    · exact Set.mem_insert_of_mem _ hx

-- ==== sorting

/-- `sorted(l, key=key)`. -/
def sortBy {γ : Type _} (key : γ → α) (l : List γ) : List γ :=
  l.insertionSort fun a b => key a ≤ key b

theorem sortBy_perm {γ : Type _} (key : γ → α) (l : List γ) : (sortBy key l).Perm l :=
  perm_insertionSort _ l

theorem sortBy_pairwise {γ : Type _} (key : γ → α) (l : List γ) :
    (sortBy key l).Pairwise fun a b => key a ≤ key b := by
  exact pairwise_insertionSort _ l

theorem le_of_getElem?_le {l : List α} (hl : l.Pairwise (· ≤ ·)) {i j : Nat} {x y : α}
    (hx : l[i]? = some x) (hy : l[j]? = some y) (h : i ≤ j) : x ≤ y := by
  obtain ⟨hi, rfl⟩ := List.getElem?_eq_some_iff.mp hx
  obtain ⟨hj, rfl⟩ := List.getElem?_eq_some_iff.mp hy
  rcases h.lt_or_eq with hlt | rfl
  · exact pairwise_iff_getElem.mp hl i j hi hj hlt
  · exact le_rfl

@[simp] theorem sortBy_sortBy {γ : Type _} (key : γ → α) (l : List γ) :
    sortBy key (sortBy key l) = sortBy key l :=
  (sortBy_pairwise key l).insertionSort_eq

theorem sortBy_eq_of_perm {γ : Type _} {key : γ → α} {l l' : List γ}
    (h : l.Perm l') (hkeys : (l.map key).Nodup) :
    sortBy key l = sortBy key l' := by
  have hperm : (sortBy key l).Perm (sortBy key l') :=
    (sortBy_perm key l).trans (h.trans (sortBy_perm key l').symm)
  have hnodup : ((sortBy key l).map key).Nodup := ((sortBy_perm key l).map key).nodup_iff.mpr hkeys
  refine hperm.eq_of_pairwise (fun a b ha hb hab hba => ?_)
    (sortBy_pairwise key l) (sortBy_pairwise key l')
  exact inj_on_of_nodup_map hnodup ha (hperm.mem_iff.mpr hb) (le_antisymm hab hba)

/-- An entry that is inserted into a sorted list is inserted into what is left
of it. -/
theorem filter_orderedInsert {γ : Type _} {key : γ → α} {l : List γ}
    (hl : l.Pairwise fun a b => key a ≤ key b) (a : γ) (p : γ → Bool) :
    (l.orderedInsert (fun a b => key a ≤ key b) a).filter p
      = if p a then (l.filter p).orderedInsert (fun a b => key a ≤ key b) a
        else l.filter p := by
  induction l with
  | nil => by_cases ha : p a <;> simp [ha]
  | cons b l ih =>
    obtain ⟨hb, hl⟩ := pairwise_cons.mp hl
    rw [orderedInsert_cons]
    by_cases hle : key a ≤ key b
    · rw [if_pos hle, filter_cons]
      by_cases ha : p a
      · rw [if_pos ha, if_pos ha]
        -- nothing that is left goes before `a`
        have hall : ∀ x ∈ (b :: l).filter p, key a ≤ key x := by
          intro x hx
          rcases mem_cons.mp (mem_of_mem_filter hx) with rfl | hx
          · exact hle
          · exact hle.trans (hb x hx)
        cases hleft : (b :: l).filter p with
        | nil => rfl
        | cons x rest => rw [orderedInsert_cons, if_pos (hall x (hleft ▸ mem_cons_self))]
      · rw [if_neg ha, if_neg ha]
    · rw [if_neg hle, filter_cons, ih hl, filter_cons]
      by_cases hb : p b
      · by_cases ha : p a
        · rw [if_pos hb, if_pos ha, if_pos hb, if_pos ha, orderedInsert_cons, if_neg hle]
        · rw [if_pos hb, if_neg ha, if_pos hb, if_neg ha]
      · rw [if_neg hb, if_neg hb]

theorem filter_sortBy {γ : Type _} (key : γ → α) (l : List γ) (p : γ → Bool) :
    (sortBy key l).filter p = sortBy key (l.filter p) := by
  induction l with
  | nil => rfl
  | cons a l ih =>
    have hinsert := filter_orderedInsert (sortBy_pairwise key l) a p
    have hcons : ∀ m, sortBy key (a :: m)
        = (sortBy key m).orderedInsert (fun a b => key a ≤ key b) a :=
      fun _ => rfl
    rw [hcons, hinsert, ih, filter_cons]
    by_cases ha : p a
    · rw [if_pos ha, if_pos ha, hcons]
    · rw [if_neg ha, if_neg ha]

theorem map_sortBy_eq {γ δ : Type _} {key : γ → α} {key' : δ → α}
    {l : List γ} {l' : List δ} (h : (l.map key).Perm (l'.map key')) :
    (sortBy key l).map key = (sortBy key' l').map key' := by
  have hperm : ((sortBy key l).map key).Perm ((sortBy key' l').map key') :=
    ((sortBy_perm key l).map key).trans (h.trans ((sortBy_perm key' l').map key').symm)
  exact hperm.eq_of_pairwise (fun a b _ _ => le_antisymm)
    (pairwise_map.mpr (sortBy_pairwise key l))
    (pairwise_map.mpr (sortBy_pairwise key' l'))

theorem sortBy_map {γ δ : Type _} (key : δ → α) (g : γ → δ) (l : List γ) :
    sortBy key (l.map g) = (sortBy (fun x => key (g x)) l).map g := by
  exact (map_insertionSort (fun x y => key (g x) ≤ key (g y))
    (fun x y => key x ≤ key y) g l fun _ _ _ _ => Iff.rfl).symm

theorem sortBy_map_monotone {g : α → β} [LinearOrder β] (hg : Monotone g) (l : List α) :
    sortBy id (l.map g) = (sortBy id l).map g := by
  have hperm : (sortBy id (l.map g)).Perm ((sortBy id l).map g) :=
    (sortBy_perm id _).trans ((sortBy_perm id l).map g).symm
  exact hperm.eq_of_pairwise (fun a b _ _ => le_antisymm) (sortBy_pairwise id _)
    (pairwise_map.mpr ((sortBy_pairwise id l).imp fun h => hg h))

theorem forall₂_sortBy {γ δ : Type _} {R : γ → δ → Prop} {key : γ → α} {key' : δ → α}
    (hkey : ∀ a b, R a b → key a = key' b) {l : List γ} {l' : List δ} (h : List.Forall₂ R l l') :
    List.Forall₂ R (sortBy key l) (sortBy key' l') := by
  have hinsert : ∀ {l : List γ} {l' : List δ} (a : γ) (b : δ), R a b → List.Forall₂ R l l' →
      List.Forall₂ R (l.orderedInsert (fun a b => key a ≤ key b) a)
        (l'.orderedInsert (fun a b => key' a ≤ key' b) b) := by
    intro l l' a b hab h
    induction h with
    | nil => exact .cons hab .nil
    | @cons a' b' l l' hab' h ih =>
      by_cases hle : key a ≤ key a'
      · have hle' : key' b ≤ key' b' := by rwa [← hkey a b hab, ← hkey a' b' hab']
        rw [orderedInsert_cons, orderedInsert_cons, if_pos hle, if_pos hle']
        exact .cons hab (.cons hab' h)
      · have hle' : ¬ key' b ≤ key' b' := by rwa [← hkey a b hab, ← hkey a' b' hab']
        rw [orderedInsert_cons, orderedInsert_cons, if_neg hle, if_neg hle']
        exact .cons hab' ih
  induction h with
  | nil => exact .nil
  | cons hab _ ih => exact hinsert _ _ hab ih

/-- Of two lists of which one is below the other entry by entry, so it is
sorted. -/
theorem sorted_le_sorted {l l' : List α} (h : List.Forall₂ (· ≤ ·) l l') {k : Nat}
    {x x' : α} (hx : (sortBy id l)[k]? = some x) (hx' : (sortBy id l')[k]? = some x') :
    x ≤ x' := by
  by_contra hlt
  have hcount : l'.countP (· ≤ x') ≤ l.countP (· < x) := by
    clear hx hx'
    induction h with
    | nil => rfl
    | @cons a b l l' hab h ih =>
      rw [countP_cons, countP_cons]
      by_cases hb : b ≤ x'
      · simp only [hb, hab.trans_lt (hb.trans_lt (not_le.mp hlt)), decide_true, if_true]
        omega
      · simp only [hb, decide_false, Bool.false_eq_true, if_false]
        omega
  -- downwards in the dual order
  have habove : (sortBy id l).countP (· < x) ≤ k :=
    countP_above_le (α := αᵒᵈ) (sortBy_pairwise id l) hx
  have hreached : k < (sortBy id l').countP (· ≤ x') :=
    lt_countP_of_ge (α := αᵒᵈ) (sortBy_pairwise id l') hx'
      fun (y : α) (hy : y ≤ x') => decide_eq_true hy
  rw [(sortBy_perm id l).countP_eq] at habove
  rw [(sortBy_perm id l').countP_eq] at hreached
  omega

-- ==== steps in order

section Steps

variable {γ δ : Type _} {key : γ → α}

/-- Where steps under one key commute, taking the steps in the order of their
keys comes to one state. -/
theorem foldl_eq_of_sorted {step : δ → γ → δ} {l l' : List γ} (h : l.Perm l')
    (hl : l.Pairwise fun x y => key x ≤ key y)
    (hl' : l'.Pairwise fun x y => key x ≤ key y)
    (hcomm : ∀ x ∈ l, ∀ y ∈ l, key x = key y →
      ∀ state, step (step state x) y = step (step state y) x) (state : δ) :
    l.foldl step state = l'.foldl step state := by
  induction l generalizing l' state with
  | nil => rw [h.nil_eq]
  | cons a l ih =>
    obtain ⟨first, last, rfl⟩ := append_of_mem (h.mem_iff.mp mem_cons_self)
    have hleast := (pairwise_cons.mp hl).1
    have hbefore := (pairwise_append.mp hl').2.2
    -- what stands before `a` has its key, so `a` goes in front of it
    have hkey : ∀ x ∈ first, x ∈ a :: l ∧ key x = key a := by
      intro x hx
      have hmem : x ∈ a :: l := h.mem_iff.mpr (mem_append_left _ hx)
      refine ⟨hmem, le_antisymm (hbefore x hx a mem_cons_self) ?_⟩
      rcases mem_cons.mp hmem with rfl | hmem
      · exact le_rfl
      · exact hleast x hmem
    have hall : ∀ x ∈ first ++ [a], x ∈ a :: l ∧ key x = key a := by
      intro x hx
      rcases mem_append.mp hx with hx | hx
      · exact hkey x hx
      · rw [mem_singleton.mp hx]
        exact ⟨mem_cons_self, rfl⟩
    have hfront : (first ++ [a]).foldl step state = (a :: first).foldl step state := by
      apply Perm.foldl_eq' perm_append_comm
      intro x hx y hy
      exact hcomm x (hall x hx).1 y (hall y hy).1 ((hall x hx).2.trans (hall y hy).2.symm)
    have hrest : l.Perm (first ++ last) := (h.trans perm_middle).cons_inv
    have hsub : (first ++ last).Sublist (first ++ a :: last) :=
      (sublist_cons_self a last).append_left first
    have hcomm' := fun x hx y hy =>
      hcomm x (mem_cons_of_mem a hx) y (mem_cons_of_mem a hy)
    calc (a :: l).foldl step state = (first ++ last).foldl step (step state a) :=
          ih hrest (pairwise_cons.mp hl).2 (hl'.sublist hsub) hcomm' _
      _ = last.foldl step ((a :: first).foldl step state) := foldl_append
      _ = last.foldl step ((first ++ [a]).foldl step state) := by rw [hfront]
      _ = (first ++ a :: last).foldl step state := by
          rw [← foldl_append, append_assoc, singleton_append]

theorem sortBy_tied {a b : γ} (h : key a = key b) (rest : List γ) : sortBy key (a :: b :: rest)
      = (sortBy key rest).takeWhile (fun x => decide (¬ key a ≤ key x))
        ++ a :: b :: (sortBy key rest).dropWhile (fun x => decide (¬ key a ≤ key x)) := by
  have hb : sortBy key (b :: rest) = (sortBy key rest).takeWhile (fun x => decide (¬ key a ≤ key x))
        ++ b :: (sortBy key rest).dropWhile (fun x => decide (¬ key a ≤ key x)) := by
    rw [h]
    exact orderedInsert_eq_take_drop (fun x y => key x ≤ key y) b _
  have htake : ∀ x ∈ (sortBy key rest).takeWhile
      (fun x => decide (¬ key a ≤ key x)), decide (¬ key a ≤ key x) = true :=
    fun x hx => mem_takeWhile_imp (p := fun x => decide (¬ key a ≤ key x)) hx
  have hstop : decide (¬ key a ≤ key b) = false := by
    rw [decide_eq_false_iff_not, not_not]
    exact h.le
  show List.orderedInsert (fun x y => key x ≤ key y) a (sortBy key (b :: rest)) = _
  rw [orderedInsert_eq_take_drop, hb, takeWhile_append_of_pos htake,
    dropWhile_append_of_pos htake, takeWhile_cons, dropWhile_cons,
    hstop, if_neg Bool.false_ne_true, if_neg Bool.false_ne_true, append_nil]

end Steps

-- ==== permuted lists

section Permuted

variable {γ δ : Type _}

/-- The counterparts of a list, permuted, are those of the list permuted the
same way. -/
theorem perm_forall₂ {P : γ → δ → Prop} {l : List γ} {m m' : List δ}
    (h : List.Forall₂ P l m) (hperm : m.Perm m') :
    ∃ order, order.Perm l ∧ List.Forall₂ P order m' := by
  have hcomp : Relation.Comp (List.Forall₂ P) List.Perm l m' := ⟨m, h, hperm⟩
  rw [forall₂_comp_perm_eq_perm_comp_forall₂] at hcomp
  obtain ⟨order, hl, hall⟩ := hcomp
  exact ⟨order, hl.symm, hall⟩

/-- A permuted list with the same distinct keys in the same order is the
list. -/
theorem eq_of_perm_of_map_eq {key : γ → δ} {l l' : List γ} (h : l.Perm l')
    (hkeys : l.map key = l'.map key) (hnodup : (l.map key).Nodup) : l = l' := by
  induction l generalizing l' with
  | nil => exact h.nil_eq
  | cons a l ih =>
    cases l' with
    | nil => cases hkeys
    | cons b l' =>
      have hkey : key a = key b := head_eq_of_cons_eq hkeys
      obtain rfl : a = b := inj_on_of_nodup_map hnodup
        mem_cons_self (h.mem_iff.mpr mem_cons_self) hkey
      rw [ih h.cons_inv (tail_eq_of_cons_eq hkeys) (nodup_cons.mp hnodup).2]

end Permuted

-- ==== maps that keep the order

/-- Each entry is strictly below the next one. -/
def increasing (l : List α) : Bool := (l.zip l.tail).all fun pair => pair.1 < pair.2

theorem increasing_cons_cons (a b : α) (l : List α) :
    increasing (a :: b :: l) = (decide (a < b) && increasing (b :: l)) :=
  rfl

theorem increasing_iff_pairwise {l : List α} : increasing l = true ↔ l.Pairwise (· < ·) := by
  induction l with
  | nil => simp [increasing]
  | cons a l ih =>
    cases l with
    | nil => simp [increasing]
    | cons b l =>
      rw [increasing_cons_cons, Bool.and_eq_true, decide_eq_true_eq, ih]
      constructor
      · rintro ⟨hab, hl⟩
        refine pairwise_cons.mpr ⟨fun x hx => ?_, hl⟩
        rcases mem_cons.mp hx with rfl | hx
        · exact hab
        · exact hab.trans ((pairwise_cons.mp hl).1 x hx)
      · intro h
        obtain ⟨ha, hl⟩ := pairwise_cons.mp h
        exact ⟨ha b mem_cons_self, hl⟩

/-- The distinct entries of a list, upwards: `sorted(set(l))`. -/
def sortedDistinct (l : List α) : List α := l.dedup.insertionSort (· ≤ ·)

theorem mem_sortedDistinct {l : List α} {x : α} : x ∈ sortedDistinct l ↔ x ∈ l := by
  unfold sortedDistinct
  rw [mem_insertionSort, mem_dedup]

theorem sortedDistinct_eq_nil {l : List α} : sortedDistinct l = [] ↔ l = [] := by
  constructor
  · intro h
    refine eq_nil_iff_forall_not_mem.mpr fun x hx => ?_
    rw [← mem_sortedDistinct, h] at hx
    cases hx
  · rintro rfl
    rfl

theorem sortedDistinct_of_pairwise {l : List α} (h : l.Pairwise (· < ·)) :
    sortedDistinct l = l := by
  have hnd : l.Nodup := h.imp fun hab => ne_of_lt hab
  unfold sortedDistinct
  rw [Nodup.dedup hnd]
  exact (h.imp fun hab => le_of_lt hab).insertionSort_eq

theorem sortedDistinct_pairwise (l : List α) : (sortedDistinct l).Pairwise (· < ·) := by
  have hnd : (sortedDistinct l).Nodup :=
    (perm_insertionSort _ _).nodup_iff.mpr (nodup_dedup l)
  have hle : (sortedDistinct l).Pairwise (· ≤ ·) := pairwise_insertionSort _ _
  exact (hle.and hnd).imp fun h => lt_of_le_of_ne h.1 h.2

theorem eq_of_pairwise_lt {l l' : List α} (hl : l.Pairwise (· < ·))
    (hl' : l'.Pairwise (· < ·)) (hmem : ∀ x, x ∈ l ↔ x ∈ l') : l = l' := by
  have hnd : l.Nodup := hl.imp fun hab => ne_of_lt hab
  have hnd' : l'.Nodup := hl'.imp fun hab => ne_of_lt hab
  have hperm : l.Perm l' := (perm_ext_iff_of_nodup hnd hnd').mpr hmem
  exact hperm.eq_of_pairwise (fun a b _ _ hab hba => absurd hab (lt_asymm hba)) hl hl'

theorem sortedDistinct_congr {l l' : List α} (hmem : ∀ x, x ∈ l ↔ x ∈ l') :
    sortedDistinct l = sortedDistinct l' := by
  refine eq_of_pairwise_lt (sortedDistinct_pairwise l) (sortedDistinct_pairwise l') fun x => ?_
  rw [mem_sortedDistinct, mem_sortedDistinct, hmem]

/-- A strictly sorted list is what does not exceed a bound, followed by what
does. -/
theorem eq_filter_append {l : List α} (hl : l.Pairwise (· < ·)) (d : α) :
    ∃ rest, l = l.filter (· ≤ d) ++ rest ∧ ∀ x ∈ rest, ¬ x ≤ d := by
  induction l with
  | nil => exact ⟨[], rfl, by simp⟩
  | cons a l ih =>
    obtain ⟨hlt, htail⟩ := pairwise_cons.mp hl
    by_cases ha : a ≤ d
    · obtain ⟨rest, heq, hrest⟩ := ih htail
      refine ⟨rest, ?_, hrest⟩
      rw [filter_cons_of_pos (by simpa using ha), cons_append, ← heq]
    · have habove : ∀ x ∈ a :: l, ¬ x ≤ d := by
        intro x hx
        rcases mem_cons.mp hx with rfl | hx
        · exact ha
        · exact fun hxd => ha ((hlt x hx).le.trans hxd)
      have hnone : (a :: l).filter (· ≤ d) = [] := by
        simpa using habove
      exact ⟨a :: l, by rw [hnone, nil_append], habove⟩

/-- A map goes up along the sorted distinct entries exactly when it keeps
the order of every two of them. -/
theorem increasing_map_iff [LinearOrder β] {f : α → β} {l : List α} :
    increasing ((sortedDistinct l).map f) = true ↔ ∀ x ∈ l, ∀ y ∈ l, x < y → f x < f y := by
  rw [increasing_iff_pairwise, pairwise_map]
  constructor
  · intro h x hx y hy hxy
    rw [← mem_sortedDistinct] at hx hy
    -- whichever of the two comes first in the list
    have hsorted := sortedDistinct_pairwise l
    have hfwd : (sortedDistinct l).Pairwise fun u v => u < v → f u < f v := by
      refine h.imp ?_
      exact fun huv _ => huv
    have hbwd : (sortedDistinct l).Pairwise (flip fun u v => u < v → f u < f v) :=
      hsorted.imp fun huv hvu => absurd hvu (lt_asymm huv)
    exact hfwd.forall_of_forall_of_flip (fun u _ huu => absurd huu (lt_irrefl u)) hbwd hx hy hxy
  · intro h
    refine (sortedDistinct_pairwise l).imp_of_mem fun ha hb hab => ?_
    exact h _ (mem_sortedDistinct.mp ha) _ (mem_sortedDistinct.mp hb) hab

end MarketRegimeAlpha.Lib
