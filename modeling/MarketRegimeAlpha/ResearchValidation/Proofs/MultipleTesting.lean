/-
The corrected p-values of a family.

# The textbook

`Textbook` says what a method makes of the value of one rank: Holm the greatest of
`(m - k) * q` over the ranks up to it, Benjamini and Hochberg the least of
`m * q / (k + 1)` over those from it on, both cut at one; ranks start from zero. The
loops write just that (`adjusted_at`), from left to right and from right to left.
-/
import Mathlib.Data.List.FinRange
import MarketRegimeAlpha.ResearchValidation.Inference

namespace MarketRegimeAlpha.ResearchValidation

open Lib List

-- ==== the textbook

/-- What a method makes of the value of rank `r`, of sorted values. -/
def Textbook (s : List ℚ) (r : Nat) (a : ℚ) : MultipleTestingMethod → Prop
  | .bonferroni => ∃ q, s[r]? = some q ∧ a = min 1 (s.length * q)
  | .holmBonferroni =>
    ∃ h, IsGreatest {x | ∃ k ≤ r, ∃ q, s[k]? = some q ∧ x = (s.length - k) * q} h ∧ a = min 1 h
  | .benjaminiHochberg =>
    ∃ h, IsLeast {x | ∃ k ≥ r, ∃ q, s[k]? = some q ∧ x = s.length * q / (k + 1)} h ∧ a = min 1 h

/-- Sorted p-values. -/
structure PValues (s : List ℚ) : Prop where
  sorted : s.Pairwise (· ≤ ·)
  unit : ∀ q ∈ s, 0 ≤ q ∧ q ≤ 1

theorem pValues_sorted {values : List ℚ} (h : ∀ q ∈ values, 0 ≤ q ∧ q ≤ 1) :
    PValues (sortBy id values) where
  sorted := sortBy_pairwise id values
  unit q hq := h q ((sortBy_perm id values).mem_iff.mp hq)

section Ranks

variable {s s' : List ℚ} {r r' k : Nat} {a a' x x' q : ℚ} {method : MultipleTestingMethod}

theorem PValues.mono (h : PValues s) (hk : k ≤ r) (hq : s[k]? = some q)
    (hx : s[r]? = some x) : q ≤ x :=
  le_of_getElem?_le h.sorted hq hx hk

theorem PValues.nonneg (h : PValues s) (hq : s[k]? = some q) : 0 ≤ q :=
  (h.unit q (mem_of_getElem? hq)).1

/-- What is left of a family after `k` of its values. -/
theorem cast_rest (hq : s[k]? = some q) : (1 : ℚ) ≤ s.length - k := by
  obtain ⟨hlt, -⟩ := List.getElem?_eq_some_iff.mp hq
  have hcast : ((k + 1 : Nat) : ℚ) ≤ s.length := Nat.cast_le.mpr hlt
  push_cast at hcast
  linarith

/-- The correction keeps order, from a family to a greater one. -/
theorem Textbook.mono (hs : PValues s) (hs' : PValues s') (hlength : s.length = s'.length)
    (hle : ∀ {k : Nat} {q q' : ℚ}, s[k]? = some q → s'[k]? = some q' → q ≤ q')
    (h : Textbook s r a method) (h' : Textbook s' r' a' method) (hx : s[r]? = some x)
    (hx' : s'[r']? = some x') (hxx : x ≤ x') : a ≤ a' := by
  have hcast : (s.length : ℚ) = s'.length := by rw [hlength]
  cases method with
  | bonferroni =>
    obtain ⟨q, hq, rfl⟩ := h
    obtain ⟨q', hq', rfl⟩ := h'
    obtain rfl : q = x := Option.some_injective _ (hq.symm.trans hx)
    obtain rfl : q' = x' := Option.some_injective _ ((hq').symm.trans hx')
    rw [hcast]
    gcongr
  | holmBonferroni =>
    obtain ⟨g, ⟨⟨k, hk, q, hq, rfl⟩, -⟩, rfl⟩ := h
    obtain ⟨g', ⟨-, hg'⟩, rfl⟩ := h'
    refine min_le_min_left 1 ?_
    have hqx : q ≤ x' := (hs.mono hk hq hx).trans hxx
    by_cases hkr : k ≤ r'
    · -- the same rank counts for the greater family
      obtain ⟨hkn, -⟩ := List.getElem?_eq_some_iff.mp hq
      have hget := getElem?_eq_getElem (hlength ▸ hkn : k < s'.length)
      refine le_trans ?_ (hg' ⟨k, hkr, _, hget, rfl⟩)
      have hqq := hle hq hget
      have hrest := cast_rest hq
      rw [hcast] at hrest ⊢
      gcongr
    · -- the rank of the value itself comes before it
      refine le_trans ?_ (hg' ⟨r', le_rfl, x', hx', rfl⟩)
      have hrest := cast_rest hq
      have hcastk : (r' : ℚ) ≤ k := Nat.cast_le.mpr (not_le.mp hkr).le
      rw [hcast] at hrest ⊢
      have hx0 := hs.nonneg hq
      gcongr
      linarith
  | benjaminiHochberg =>
    obtain ⟨g, ⟨-, hg⟩, rfl⟩ := h
    obtain ⟨g', ⟨⟨k, hk, q, hq, rfl⟩, -⟩, rfl⟩ := h'
    refine min_le_min_left 1 ?_
    have hxq : x ≤ q := by
      exact hxx.trans (hs'.mono hk (hx') hq)
    by_cases hkr : r ≤ k
    · obtain ⟨hkn, -⟩ := List.getElem?_eq_some_iff.mp hq
      have hget := getElem?_eq_getElem (hlength.symm ▸ hkn : k < s.length)
      refine (hg ⟨k, hkr, _, hget, rfl⟩).trans ?_
      have hqq := hle hget hq
      rw [hcast]
      gcongr
    · refine (hg ⟨r, le_rfl, x, hx, rfl⟩).trans ?_
      have hcastk : (k : ℚ) ≤ r := Nat.cast_le.mpr (not_le.mp hkr).le
      have hq0 := hs'.nonneg hq
      rw [hcast]
      gcongr

theorem benjaminiHochberg_le_holm (hs : PValues s) (h : Textbook s r a .benjaminiHochberg)
    (h' : Textbook s r a' .holmBonferroni) (hx : s[r]? = some x) : a ≤ a' := by
  obtain ⟨g, ⟨-, hg⟩, rfl⟩ := h
  obtain ⟨g', ⟨-, hg'⟩, rfl⟩ := h'
  refine min_le_min_left 1 ?_
  calc g ≤ s.length * x / (r + 1) := hg ⟨r, le_rfl, x, hx, rfl⟩
    _ ≤ (s.length - r) * x := by
        have hrest := cast_rest hx
        have hx0 := hs.nonneg hx
        have hr0 : (0 : ℚ) ≤ r := Nat.cast_nonneg r
        rw [div_le_iff₀ (by linarith)]
        nlinarith [mul_nonneg (mul_nonneg hr0 hx0) (sub_nonneg.mpr hrest)]
    _ ≤ g' := hg' ⟨r, le_rfl, x, hx, rfl⟩

theorem holm_le_bonferroni (hs : PValues s) (h : Textbook s r a .holmBonferroni)
    (h' : Textbook s r a' .bonferroni) : a ≤ a' := by
  obtain ⟨g, ⟨⟨k, hk, q, hq, rfl⟩, -⟩, rfl⟩ := h
  obtain ⟨x, hx, rfl⟩ := h'
  refine min_le_min_left 1 ?_
  have hqx := hs.mono hk hq hx
  have hq0 := hs.nonneg hq
  have hk0 : (0 : ℚ) ≤ k := Nat.cast_nonneg k
  nlinarith [cast_rest hq, mul_nonneg hk0 hq0,
    mul_le_mul_of_nonneg_left hqx (Nat.cast_nonneg (α := ℚ) s.length)]

theorem Textbook.le (hs : PValues s) (h : Textbook s r a method) (hx : s[r]? = some x) : x ≤ a := by
  have hx0 := hs.nonneg hx
  have hone := (hs.unit x (mem_of_getElem? hx)).2
  have hrest := cast_rest hx
  cases method with
  | bonferroni =>
    obtain ⟨q, hq, rfl⟩ := h
    obtain rfl : q = x := Option.some_injective _ (hq.symm.trans hx)
    exact le_min hone (le_mul_of_one_le_left hx0 (by linarith))
  | holmBonferroni =>
    obtain ⟨g, ⟨-, hg⟩, rfl⟩ := h
    exact le_min hone ((le_mul_of_one_le_left hx0 hrest).trans (hg ⟨r, le_rfl, x, hx, rfl⟩))
  | benjaminiHochberg =>
    obtain ⟨g, ⟨⟨k, hk, q, hq, rfl⟩, -⟩, rfl⟩ := h
    refine le_min hone ?_
    have hlast := cast_rest hq
    calc x ≤ q := hs.mono hk hx hq
      _ ≤ s.length * q / (k + 1) := by
          rw [le_div_iff₀ (by linarith), mul_comm]
          exact mul_le_mul_of_nonneg_right (by linarith) (hs.nonneg hq)

theorem Textbook.le_one (h : Textbook s r a method) : a ≤ 1 := by
  cases method with
  | bonferroni =>
    obtain ⟨q, -, rfl⟩ := h
    exact min_le_left _ _
  | holmBonferroni =>
    obtain ⟨g, -, rfl⟩ := h
    exact min_le_left _ _
  | benjaminiHochberg =>
    obtain ⟨g, -, rfl⟩ := h
    exact min_le_left _ _

end Ranks

-- ==== the loops

section Loop

variable {join : ℚ → ℚ → ℚ} {scaled : ℚ → Nat → ℚ} {written : ℚ → ℚ → ℚ}
  {entries : List RankedValue}

theorem adjustLoop_of_notMem {index : Nat}
    (h : index ∉ entries.map (·.1.2)) (running : ℚ) (adjusted : List ℚ) :
    (adjustLoop join scaled written entries running adjusted)[index]? = adjusted[index]? := by
  induction entries generalizing running adjusted with
  | nil => rfl
  | cons entry rest ih =>
    rw [map_cons, mem_cons, not_or] at h
    unfold adjustLoop
    rw [ih h.2, getElem?_set_ne (Ne.symm h.1)]

theorem adjustLoop_at (hnodup : (entries.map (·.1.2)).Nodup) {k : Nat}
    {entry : RankedValue} (hentry : entries[k]? = some entry) (running : ℚ) {adjusted : List ℚ}
    (hlt : entry.1.2 < adjusted.length) :
    (adjustLoop join scaled written entries running adjusted)[entry.1.2]?
      = some (written entry.1.1 (((entries.take (k + 1)).map fun e =>
          scaled e.1.1 e.2).foldl join running)) := by
  induction entries generalizing k running adjusted with
  | nil => cases hentry
  | cons first rest ih =>
    rw [map_cons, nodup_cons] at hnodup
    unfold adjustLoop
    cases k with
    | zero =>
      obtain rfl : first = entry := by simpa using hentry
      rw [adjustLoop_of_notMem hnodup.1, getElem?_set_self hlt]
      rfl
    | succ k => exact ih hnodup.2 hentry _ (by rwa [length_set])

theorem length_adjustLoop (entries : List RankedValue) (running : ℚ) (adjusted : List ℚ) :
    (adjustLoop join scaled written entries running adjusted).length = adjusted.length := by
  induction entries generalizing running adjusted with
  | nil => rfl
  | cons entry rest ih =>
    unfold adjustLoop
    rw [ih, length_set]

end Loop

section Values

variable {values : List ℚ} {method : MultipleTestingMethod} {r i : Nat} {x : ℚ}

@[simp] theorem length_adjustPValues (values : List ℚ) (method : MultipleTestingMethod) :
    (adjustPValues values method).length = values.length := by
  cases method with
  | bonferroni => exact length_map _
  | holmBonferroni => exact (length_adjustLoop _ _ _).trans length_replicate
  | benjaminiHochberg => exact (length_adjustLoop _ _ _).trans length_replicate

theorem length_orderedValues (values : List ℚ) : (orderedValues values).length = values.length :=
  ((sortBy_perm _ _).length_eq).trans length_zipIdx

theorem sorted_eq (values : List ℚ) : sortBy id values = (orderedValues values).map (·.1) := by
  have hmap := sortBy_map id (fun entry : ℚ × Nat => entry.1) values.zipIdx
  exact (congrArg (sortBy id) (zipIdx_map_fst 0 values)).symm.trans hmap

theorem getElem?_sorted (h : (orderedValues values)[r]? = some (x, i)) :
    (sortBy id values)[r]? = some x := by
  rw [sorted_eq, getElem?_map, h]
  rfl

theorem getElem?_of_ordered (h : (orderedValues values)[r]? = some (x, i)) : values[i]? = some x :=
  mem_zipIdx_iff_getElem?.mp ((sortBy_perm _ _).mem_iff.mp (mem_of_getElem? h))

theorem exists_rank (h : values[i]? = some x) :
    ∃ r : Nat, (orderedValues values)[r]? = some (x, i) :=
  getElem?_of_mem ((sortBy_perm _ _).mem_iff.mpr (mem_zipIdx_iff_getElem?.mpr h))

theorem nodup_indices (values : List ℚ) (start : Nat) :
    (((orderedValues values).zipIdx start).map (·.1.2)).Nodup := by
  have hmap : ((orderedValues values).zipIdx start).map (·.1.2)
      = (orderedValues values).map Prod.snd := by
    conv_rhs => rw [← zipIdx_map_fst start (orderedValues values), map_map]
    rfl
  have hperm := (sortBy_perm (fun entry : ℚ × Nat => entry.1) values.zipIdx).map Prod.snd
  rw [hmap, orderedValues, hperm.nodup_iff, zipIdx_map_snd]
  exact nodup_range'

variable (f : ℚ → Nat → ℚ)

theorem mem_scaled_take (start : Nat) {y : ℚ} :
    y ∈ (((orderedValues values).zipIdx start).take (r + 1)).map (fun e => f e.1.1 e.2)
      ↔ ∃ k ≤ r, ∃ q, (sortBy id values)[k]? = some q ∧ y = f q (start + k) := by
  rw [sorted_eq, mem_map]
  constructor
  · rintro ⟨e, he, rfl⟩
    obtain ⟨k, hk⟩ := mem_iff_getElem?.mp he
    rw [getElem?_take, getElem?_zipIdx] at hk
    split at hk
    next hlt =>
      obtain ⟨pair, hpair, rfl⟩ := Option.map_eq_some_iff.mp hk
      exact ⟨k, Nat.lt_succ_iff.mp hlt, pair.1, by simp [hpair], rfl⟩
    next => cases hk
  · rintro ⟨k, hk, q, hq, rfl⟩
    rw [getElem?_map] at hq
    obtain ⟨pair, hpair, rfl⟩ := Option.map_eq_some_iff.mp hq
    refine ⟨(pair, start + k), mem_iff_getElem?.mpr ⟨k, ?_⟩, rfl⟩
    rw [getElem?_take, if_pos (Nat.lt_succ_iff.mpr hk), getElem?_zipIdx, hpair]
    rfl

theorem mem_scaled_drop (start : Nat) {y : ℚ} :
    y ∈ (((orderedValues values).zipIdx start).drop r).map (fun e => f e.1.1 e.2)
      ↔ ∃ k ≥ r, ∃ q, (sortBy id values)[k]? = some q ∧ y = f q (start + k) := by
  rw [sorted_eq, mem_map]
  constructor
  · rintro ⟨e, he, rfl⟩
    obtain ⟨k, hk⟩ := mem_iff_getElem?.mp he
    rw [getElem?_drop, getElem?_zipIdx] at hk
    obtain ⟨pair, hpair, rfl⟩ := Option.map_eq_some_iff.mp hk
    exact ⟨r + k, Nat.le_add_right r k, pair.1, by simp [hpair], rfl⟩
  · rintro ⟨k, hk, q, hq, rfl⟩
    rw [getElem?_map] at hq
    obtain ⟨pair, hpair, rfl⟩ := Option.map_eq_some_iff.mp hq
    refine ⟨(pair, start + k), mem_iff_getElem?.mpr ⟨k - r, ?_⟩, rfl⟩
    rw [getElem?_drop, getElem?_zipIdx, Nat.add_sub_cancel' hk, hpair]
    rfl

variable (hunit : ∀ q ∈ values, 0 ≤ q ∧ q ≤ 1)

include hunit in
/-- The loops write what the textbook says. -/
theorem adjusted_at (h : (orderedValues values)[r]? = some (x, i)) :
    ∃ a ∈ (adjustPValues values method)[i]?, Textbook (sortBy id values) r a method := by
  have hs := pValues_sorted hunit
  have hrank := getElem?_sorted h
  have hlength : (sortBy id values).length = values.length := (sortBy_perm _ _).length_eq
  obtain ⟨hi, -⟩ := List.getElem?_eq_some_iff.mp (getElem?_of_ordered h)
  obtain ⟨hr, -⟩ := List.getElem?_eq_some_iff.mp hrank
  have hfree : i < (List.replicate values.length (1 : ℚ)).length := by rwa [length_replicate]
  have hentry (start : Nat) : ((orderedValues values).zipIdx start)[r]?
      = some ((x, i), start + r) := by
    rw [getElem?_zipIdx, h]
    rfl
  cases method with
  | bonferroni =>
    refine ⟨min 1 (x * values.length), ?_, x, hrank, by rw [hlength, mul_comm]⟩
    exact getElem?_map.trans (by rw [getElem?_of_ordered h]; rfl)
  | holmBonferroni =>
    let steps := (((orderedValues values).zipIdx).take (r + 1)).map fun e : RankedValue =>
      e.1.1 * ((values.length - e.2 : Nat) : ℚ)
    have hsteps (y : ℚ) : y ∈ steps ↔ ∃ k ≤ r, ∃ q, (sortBy id values)[k]? = some q ∧
        y = ((sortBy id values).length - k) * q := by
      rw [mem_scaled_take (fun q k => q * ((values.length - k : Nat) : ℚ)) 0]
      refine exists_congr fun k => and_congr_right fun hk => exists_congr fun q =>
        and_congr_right fun _ => ?_
      rw [Nat.zero_add, Nat.cast_sub (by omega), hlength, mul_comm]
    have hself := (hsteps _).mpr ⟨r, le_rfl, x, hrank, rfl⟩
    obtain ⟨g, hg⟩ := exists_isGreatest (ne_nil_of_mem hself)
    have hrunning : steps.foldl max 0 = g := by
      rw [(isGreatest_foldl_max 0 steps).unique (hg.insert 0)]
      have hrest := cast_rest hrank
      have hx0 := hs.nonneg hrank
      exact max_eq_right ((mul_nonneg (by linarith) hx0).trans (hg.2 hself))
    refine ⟨_, adjustLoop_at (nodup_indices values 0) (hentry 0) 0 hfree, g, ?_, ?_⟩
    · exact (Set.ext hsteps) ▸ hg
    · exact congrArg (min 1) hrunning
  | benjaminiHochberg =>
    let entries := ((orderedValues values).zipIdx 1).reverse
    let steps := (((orderedValues values).zipIdx 1).drop r).map fun e : RankedValue =>
      e.1.1 * values.length / e.2
    have hsteps (y : ℚ) : y ∈ steps ↔ ∃ k ≥ r, ∃ q, (sortBy id values)[k]? = some q ∧
        y = (sortBy id values).length * q / (k + 1) := by
      rw [mem_scaled_drop (fun q k => q * values.length / k) 1]
      refine exists_congr fun k => and_congr_right fun hk => exists_congr fun q =>
        and_congr_right fun _ => ?_
      rw [hlength, mul_comm, Nat.cast_add, Nat.cast_one, add_comm (1 : ℚ)]
    have hself := (hsteps _).mpr ⟨r, le_rfl, x, hrank, rfl⟩
    obtain ⟨g, hg⟩ := exists_isLeast (ne_nil_of_mem hself)
    -- from the right the rank comes after those above it
    have hcount : ((orderedValues values).zipIdx 1).length = values.length := by
      rw [length_zipIdx, length_orderedValues]
    have hplace : entries[values.length - 1 - r]? = some ((x, i), 1 + r) := by
      rw [getElem?_reverse (by omega), hcount, ← hentry 1]
      congr 1
      omega
    have htake : (entries.take (values.length - 1 - r + 1)).map (fun e : RankedValue =>
        e.1.1 * (values.length : ℚ) / e.2) = steps.reverse := by
      rw [take_reverse, hcount, map_reverse]
      congr 3
      omega
    have hbook : Textbook (sortBy id values) r (min 1 g) .benjaminiHochberg :=
      ⟨g, (Set.ext hsteps) ▸ hg, rfl⟩
    have hrunning : steps.reverse.foldl min 1 = min 1 g := by
      have hleast := isLeast_foldl_min 1 steps.reverse
      simp only [mem_reverse] at hleast
      exact hleast.unique (hg.insert 1)
    refine ⟨_, adjustLoop_at (map_reverse ▸ nodup_reverse.mpr
      (nodup_indices values 1)) hplace 1 hfree, ?_⟩
    rw [htake, hrunning, max_eq_right (hbook.le hs hrank), min_eq_right (min_le_left 1 g)]
    exact hbook

include hunit in
theorem exists_adjusted (h : values[i]? = some x) (method : MultipleTestingMethod) :
    ∃ (r : Nat) (a : ℚ), (sortBy id values)[r]? = some x
      ∧ (adjustPValues values method)[i]? = some a
      ∧ Textbook (sortBy id values) r a method := by
  obtain ⟨r, hr⟩ := exists_rank h
  obtain ⟨a, ha, hbook⟩ := adjusted_at hunit hr
  exact ⟨r, a, getElem?_sorted hr, ha, hbook⟩

variable {values' : List ℚ} {j : Nat} {y a b : ℚ}

include hunit in
theorem adjusted_le (hunit' : ∀ q ∈ values', 0 ≤ q ∧ q ≤ 1)
    (hlength : values.length = values'.length)
    (hle : ∀ {k : Nat} {q q' : ℚ}, (sortBy id values)[k]? = some q →
      (sortBy id values')[k]? = some q' → q ≤ q')
    (hx : values[i]? = some x) (hy : values'[j]? = some y)
    (ha : (adjustPValues values method)[i]? = some a)
    (hb : (adjustPValues values' method)[j]? = some b) (hxy : x ≤ y) : a ≤ b := by
  obtain ⟨r, a', hr, ha', hbook⟩ := exists_adjusted hunit hx method
  obtain ⟨r', b', hr', hb', hbook'⟩ := exists_adjusted hunit' hy method
  obtain rfl := Option.some_injective _ (ha.symm.trans ha')
  obtain rfl := Option.some_injective _ (hb.symm.trans hb')
  have hlengths : (sortBy id values).length = (sortBy id values').length := by
    rw [(sortBy_perm _ _).length_eq, (sortBy_perm _ _).length_eq, hlength]
  exact hbook.mono (pValues_sorted hunit) (pValues_sorted hunit') hlengths hle hbook' hr hr' hxy

include hunit in
theorem adjusted_le_self (hx : values[i]? = some x)
    (hy : values[j]? = some y) (ha : (adjustPValues values method)[i]? = some a)
    (hb : (adjustPValues values method)[j]? = some b) (hxy : x ≤ y) : a ≤ b :=
  adjusted_le hunit hunit rfl
    (fun hq hq' => (Option.some_injective _ (hq.symm.trans hq')).le) hx hy ha hb hxy

include hunit in
theorem textbook_of_adjusted (hx : values[i]? = some x)
    (hr : (sortBy id values)[r]? = some x) (ha : (adjustPValues values method)[i]? = some a) :
    Textbook (sortBy id values) r a method := by
  obtain ⟨⟨y, j⟩, hj⟩ : ∃ pair, (orderedValues values)[r]? = some pair := by
    rw [sorted_eq, getElem?_map] at hr
    exact (Option.map_eq_some_iff.mp hr).imp fun _ h => h.1
  obtain ⟨b, hb, hbook⟩ : ∃ b ∈ (adjustPValues values method)[j]?, _ := adjusted_at hunit hj
  obtain rfl := Option.some_injective _ (hr.symm.trans (getElem?_sorted hj))
  have hy := getElem?_of_ordered hj
  rwa [le_antisymm (adjusted_le_self hunit hx hy ha hb le_rfl)
    (adjusted_le_self hunit hy hx hb ha le_rfl)]

include hunit in
theorem forall₂_adjusted {method' : MultipleTestingMethod}
    (h : ∀ {r : Nat} {a b x : ℚ}, (sortBy id values)[r]? = some x →
      Textbook (sortBy id values) r a method →
      Textbook (sortBy id values) r b method' → a ≤ b) :
    List.Forall₂ (· ≤ ·) (adjustPValues values method) (adjustPValues values method') := by
  refine forall₂_iff_get.mpr ⟨by simp, fun i hi hi' => ?_⟩
  rw [length_adjustPValues] at hi
  have hx := getElem?_eq_getElem hi
  obtain ⟨r, a, hr, ha, hbook⟩ := exists_adjusted hunit hx method
  have hb := getElem?_eq_getElem hi'
  obtain ⟨_, rfl⟩ := List.getElem?_eq_some_iff.mp ha
  exact h hr hbook (textbook_of_adjusted hunit hx hr hb)

end Values

-- ==== the result

/-- The corrected p-values of a family are those of the textbook, at every rank a
value has; they lie between the value and one, keep the order of the values, follow
every permutation of them, never go up when a value goes down, and lie in the order
of the methods. -/
theorem adjusted_p_values (values : List ℚ) (hunit : ∀ p ∈ values, 0 ≤ p ∧ p ≤ 1) :
    (∀ method (i r : Nat) (p a : ℚ), values[i]? = some p →
        (sortBy id values)[r]? = some p → (adjustPValues values method)[i]? = some a →
        Textbook (sortBy id values) r a method)
      ∧ (∀ method, (adjustPValues values method).length = values.length)
      ∧ (∀ method (i : Nat) (p a : ℚ), values[i]? = some p →
          (adjustPValues values method)[i]? = some a → p ≤ a ∧ a ≤ 1)
      ∧ (∀ method (i j : Nat) (p q a b : ℚ), values[i]? = some p → values[j]? = some q →
          (adjustPValues values method)[i]? = some a →
          (adjustPValues values method)[j]? = some b → p ≤ q → a ≤ b)
      ∧ (∀ method (σ : Equiv.Perm (Fin values.length)) (i : Fin values.length),
          (adjustPValues (List.ofFn fun k => values.get (σ k)) method)[i.val]?
            = (adjustPValues values method)[(σ i).val]?)
      ∧ (∀ method (lower : List ℚ), List.Forall₂ (· ≤ ·) lower values → (∀ p ∈ lower, 0 ≤ p) →
          List.Forall₂ (· ≤ ·) (adjustPValues lower method) (adjustPValues values method))
      ∧ List.Forall₂ (· ≤ ·) (adjustPValues values .benjaminiHochberg)
          (adjustPValues values .holmBonferroni)
      ∧ List.Forall₂ (· ≤ ·) (adjustPValues values .holmBonferroni)
          (adjustPValues values .bonferroni) := by
  have hs := pValues_sorted hunit
  have hordered := forall₂_adjusted hunit fun hx h h' => benjaminiHochberg_le_holm hs h h' hx
  have hbounded := forall₂_adjusted hunit fun _ h h' => holm_le_bonferroni hs h h'
  refine ⟨fun method i r p a hp hr ha => textbook_of_adjusted hunit hp hr ha,
    length_adjustPValues values, fun method i p a hp ha => ?_,
    fun method i j p q a b hp hq ha hb hpq => adjusted_le_self hunit hp hq ha hb hpq,
    fun method σ i => ?_, fun method lower hlower hnonneg => ?_, hordered, hbounded⟩
  case refine_1 =>
    obtain ⟨r, a', hr, ha', hbook⟩ := exists_adjusted hunit hp method
    obtain rfl := Option.some_injective _ (ha.symm.trans ha')
    exact ⟨hbook.le hs hr, hbook.le_one⟩
  case refine_2 =>
    have hperm : (List.ofFn fun k => values.get (σ k)).Perm values := by
      have h := Equiv.Perm.ofFn_comp_perm σ values.get
      rwa [ofFn_get] at h
    have hunit' : ∀ p ∈ List.ofFn (fun k => values.get (σ k)), 0 ≤ p ∧ p ≤ 1 :=
      fun p hp => hunit p (hperm.mem_iff.mp hp)
    have hsorted : sortBy id (List.ofFn fun k => values.get (σ k)) = sortBy id values := by
      have h : (sortBy id _).map id = (sortBy id _).map id := map_sortBy_eq (hperm.map id)
      rwa [map_id, map_id] at h
    have hx : (List.ofFn fun k => values.get (σ k))[i.val]? = some (values.get (σ i)) := by
      rw [List.getElem?_ofFn, dif_pos i.isLt]
    have hy : values[(σ i).val]? = some (values.get (σ i)) := getElem?_eq_getElem (σ i).isLt
    obtain ⟨-, a, -, ha, -⟩ := exists_adjusted hunit' hx method
    obtain ⟨-, b, -, hb, -⟩ := exists_adjusted hunit hy method
    have hle := adjusted_le hunit' hunit hperm.length_eq (fun hq hq' =>
      (Option.some_injective _ ((hsorted ▸ hq).symm.trans hq')).le) hx hy ha hb le_rfl
    have hge := adjusted_le hunit hunit' hperm.length_eq.symm (fun hq hq' =>
      (Option.some_injective _ ((hsorted ▸ hq).symm.trans hq')).le) hy hx hb ha le_rfl
    rw [ha, hb, le_antisymm hle hge]
  case refine_3 =>
    have hunit' : ∀ p ∈ lower, 0 ≤ p ∧ p ≤ 1 := fun p hp => by
      obtain ⟨q, hq, hpq⟩ := forall₂_left hlower hp
      exact ⟨hnonneg p hp, hpq.trans (hunit q hq).2⟩
    refine forall₂_iff_get.mpr ⟨by simp [hlower.length_eq], fun i hi hi' => ?_⟩
    have hx := getElem?_eq_getElem (length_adjustPValues lower method ▸ hi)
    have hy := getElem?_eq_getElem (length_adjustPValues values method ▸ hi')
    exact adjusted_le hunit' hunit hlower.length_eq
      (fun hq hq' => sorted_le_sorted hlower hq hq') hx hy (getElem?_eq_getElem hi)
      (getElem?_eq_getElem hi') (hlower.get _ _)

/-- A family with a tie. -/
theorem adjusted_p_values_sample :
    adjustPValues [1 / 50, 1 / 100, 1 / 50] .holmBonferroni = [1 / 25, 3 / 100, 1 / 25]
      ∧ List.Forall₂ (· ≤ ·) (adjustPValues [1 / 50, 1 / 100, 1 / 50] .benjaminiHochberg)
        (adjustPValues [1 / 50, 1 / 100, 1 / 50] .holmBonferroni) := by
  refine ⟨by decide +kernel, ?_⟩
  have h := adjusted_p_values [1 / 50, 1 / 100, 1 / 50] (by norm_num)
  exact h.2.2.2.2.2.2.1

end MarketRegimeAlpha.ResearchValidation
