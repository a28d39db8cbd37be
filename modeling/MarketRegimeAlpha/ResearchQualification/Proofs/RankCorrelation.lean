/-
The rank correlation of a list of pairs.

# From the loop to the count

The loop of `_midranks` writes one rank over each run of tied entries of
the sorted order. What it leaves at a place is determined by how many
entries are below and how many are equal (`midranks_eq`), whatever the
arithmetic; in exact arithmetic that is the midrank, and the laws of
`_spearman` are those of midranks and of the Cauchy-Schwarz inequality.
-/
import Mathlib.Analysis.SpecialFunctions.Pow.Real
import MarketRegimeAlpha.Lib.Ranks
import MarketRegimeAlpha.ResearchQualification.EvaluationFormula

namespace MarketRegimeAlpha.ResearchQualification.EvaluationFormula

open Lib List

-- ==== the loop

local instance atLeastTwo : Nat.AtLeastTwo 2 := ⟨le_rfl⟩

section Loop

variable {K : Type _} [Field K] [LinearOrder K] (A : Arithmetic K) {tied : List (K × Nat)}
  {ranks : List K} {j : Nat}

/-- The rank of `tied` equal entries above `below` others. -/
def tieRank (below tied : Nat) : K :=
  A.round (A.round (((below + 1 : Nat) : K) + ((below + tied : Nat) : K)) / 2)

variable (rank : K)

def assign (tied : List (K × Nat)) (ranks : List K) : List K :=
  tied.foldl (fun ranks item => ranks.set item.2 rank) ranks

omit [Field K] [LinearOrder K] in
@[simp] theorem length_assign (tied : List (K × Nat))
    (ranks : List K) : (assign rank tied ranks).length = ranks.length := by
  induction tied generalizing ranks with
  | nil => rfl
  | cons item tied ih => exact (ih _).trans length_set

omit [Field K] [LinearOrder K] in
theorem assign_of_notMem (h : j ∉ tied.map (·.2)) : (assign rank tied ranks)[j]? = ranks[j]? := by
  induction tied generalizing ranks with
  | nil => rfl
  | cons item tied ih =>
    rw [map_cons, mem_cons, not_or] at h
    exact (ih h.2).trans (getElem?_set_ne (Ne.symm h.1))

omit [Field K] [LinearOrder K] in
theorem assign_of_mem (h : j ∈ tied.map (·.2)) (hj : j < ranks.length) :
    (assign rank tied ranks)[j]? = some rank := by
  induction tied generalizing ranks with
  | nil => cases h
  | cons item tied ih =>
    by_cases hrest : j ∈ tied.map (·.2)
    · exact ih hrest (by rwa [length_set])
    · rw [map_cons, mem_cons, or_iff_left hrest] at h
      refine (assign_of_notMem rank hrest).trans ?_
      rw [h, getElem?_set_self (h ▸ hj)]

variable (cursor : Nat)

theorem midranksFrom_cons (first : K × Nat) (rest : List (K × Nat)) (ranks : List K) :
    midranksFrom A cursor (first :: rest) ranks = midranksFrom A
        (cursor + (first :: rest.takeWhile (·.1 = first.1)).length)
        (rest.dropWhile (·.1 = first.1))
        (assign (tieRank A cursor (first :: rest.takeWhile (·.1 = first.1)).length)
          (first :: rest.takeWhile (·.1 = first.1)) ranks) := by
  rw [midranksFrom]
  rfl

variable (ordered : List (K × Nat))

@[simp] theorem length_midranksFrom (ranks : List K) :
    (midranksFrom A cursor ordered ranks).length = ranks.length := by
  induction cursor, ordered, ranks using midranksFrom.induct A with
  | case1 cursor ranks => rw [midranksFrom]
  | case2 cursor first rest ranks tied stop rank ih =>
    rw [midranksFrom_cons]
    exact ih.trans (length_assign _ _ _)

@[simp] theorem length_midranks (values : List K) : (midranks A values).length = values.length := by
  unfold midranks
  rw [length_midranksFrom, length_replicate]

omit [Field K] in
theorem lt_of_mem_dropWhile {first t : K × Nat} {rest : List (K × Nat)}
    (hsorted : (first :: rest).Pairwise (·.1 ≤ ·.1))
    (ht : t ∈ rest.dropWhile (·.1 = first.1)) : first.1 < t.1 := by
  induction rest with
  | nil => cases ht
  | cons a rest ih =>
    obtain ⟨hfirst, hrest⟩ := pairwise_cons.mp hsorted
    by_cases ha : a.1 = first.1
    · rw [dropWhile_cons_of_pos (by simpa using ha)] at ht
      apply ih _ ht
      apply pairwise_cons.mpr
      exact ⟨fun b hb => hfirst b (mem_cons_of_mem a hb), hrest.of_cons⟩
    · rw [dropWhile_cons_of_neg (by simpa using ha)] at ht
      have hlt : first.1 < a.1 := lt_of_le_of_ne (hfirst a mem_cons_self) (Ne.symm ha)
      rcases mem_cons.mp ht with rfl | ht
      · exact hlt
      · exact hlt.trans_le (rel_of_pairwise_cons hrest ht)

/-- What the loop leaves at the places of the order is determined by how
many entries are below and how many are equal; other places keep what they
have. -/
theorem getElem?_midranksFrom (ranks : List K)
    (hsorted : ordered.Pairwise (·.1 ≤ ·.1)) (hnodup : (ordered.map (·.2)).Nodup)
    (hbound : ∀ item ∈ ordered, item.2 < ranks.length) :
    (∀ item ∈ ordered, (midranksFrom A cursor ordered ranks)[item.2]?
        = some (tieRank A (cursor + ordered.countP (·.1 < item.1)) (ordered.countP (·.1 = item.1))))
      ∧ ∀ j ∉ ordered.map (·.2), (midranksFrom A cursor ordered ranks)[j]? = ranks[j]? := by
  induction cursor, ordered, ranks using midranksFrom.induct A with
  | case1 cursor ranks =>
    rw [midranksFrom]
    exact ⟨nofun, fun _ _ => rfl⟩
  | case2 cursor first rest ranks tied stop rank ih =>
    rw [midranksFrom_cons]
    have hafter := fun t (ht : t ∈ rest.dropWhile (·.1 = first.1)) => lt_of_mem_dropWhile hsorted ht
    have htied : ∀ t ∈ tied, t.1 = first.1 := by
      intro t ht
      rcases mem_cons.mp ht with rfl | ht
      · rfl
      · exact of_decide_eq_true (all_eq_true.mp all_takeWhile t ht)
    have hsplit : first :: rest = tied ++ rest.dropWhile (·.1 = first.1) := by
      show _ = first :: (_ ++ _)
      rw [takeWhile_append_dropWhile]
    have hrest : (rest.dropWhile (·.1 = first.1)).Sublist (first :: rest) :=
      (dropWhile_sublist _).trans (sublist_cons_self _ _)
    have hnodup' := hnodup
    rw [hsplit, map_append, nodup_append'] at hnodup'
    obtain ⟨hranked, hkept⟩ := ih (hsorted.sublist hrest) (hnodup.sublist (hrest.map _)) (by
        intro item hitem
        have hlt := hbound item (hrest.subset hitem)
        exact hlt.trans_eq (length_assign rank tied ranks).symm)
    constructor
    · intro item hin
      have hitem := hin
      rw [hsplit] at hitem ⊢
      rw [countP_append, countP_append]
      rcases mem_append.mp hitem with htie | hitem
      · -- an entry of the run has nothing below and the run as its equals
        have hitem := htied item htie
        have hbelow : tied.countP (·.1 < item.1) = 0 := by
          rw [countP_eq_zero]
          intro t ht
          simp [htied t ht, hitem]
        have hbelow' : (rest.dropWhile (·.1 = first.1)).countP
            (·.1 < item.1) = 0 := by
          rw [countP_eq_zero]
          intro t ht
          simpa [hitem] using (hafter t ht).le
        have hequal : tied.countP (·.1 = item.1) = tied.length := by
          rw [countP_eq_length]
          intro t ht
          simp [htied t ht, hitem]
        have hequal' : (rest.dropWhile (·.1 = first.1)).countP
            (·.1 = item.1) = 0 := by
          rw [countP_eq_zero]
          intro t ht
          simpa [hitem] using (hafter t ht).ne'
        rw [hbelow, hbelow', hequal, hequal', Nat.add_zero, Nat.add_zero]
        have hmem := mem_map_of_mem (f := Prod.snd) htie
        refine (hkept _ fun h => hnodup'.2.2 hmem h).trans ?_
        exact assign_of_mem rank hmem (hbound item hin)
      · have hlt := hafter item hitem
        have hbelow : tied.countP (·.1 < item.1) = tied.length := by
          rw [countP_eq_length]
          intro t ht
          simpa [htied t ht] using hlt
        have hequal : tied.countP (·.1 = item.1) = 0 := by
          rw [countP_eq_zero]
          intro t ht
          simpa [htied t ht] using hlt.ne
        rw [hbelow, hequal, Nat.zero_add, ← Nat.add_assoc]
        exact hranked item hitem
    · intro j hj
      rw [hsplit, map_append, mem_append, not_or] at hj
      exact (hkept j hj.2).trans (assign_of_notMem rank hj.1)

/-- The rank of an entry is determined by how many are below and how many
are equal. -/
theorem midranks_eq (values : List K) : midranks A values
    = values.map fun v => tieRank A (values.countP (· < v)) (values.count v) := by
  unfold midranks
  have hperm : (sortBy (fun item : K × Nat => toLex item) values.zipIdx).Perm
      values.zipIdx := sortBy_perm _ _
  have hsorted : (sortBy (fun item : K × Nat => toLex item) values.zipIdx).Pairwise (·.1 ≤ ·.1) :=
    (sortBy_pairwise _ _).imp fun h => Prod.Lex.monotone_fst _ _ h
  generalize sortBy (fun item : K × Nat => toLex item) values.zipIdx = ordered at hperm hsorted
  have hnodup : (ordered.map (·.2)).Nodup := by
    rw [(hperm.map _).nodup_iff, zipIdx_map_snd]
    exact nodup_range'
  have hbound : ∀ item ∈ ordered, item.2 < (List.replicate values.length (0 : K)).length := by
    intro item hitem
    have hindex := mem_zipIdx_iff_getElem?.mp (hperm.mem_iff.mp hitem)
    rw [length_replicate]
    exact (List.getElem?_eq_some_iff.mp hindex).1
  have hcount : ∀ p : K → Bool, ordered.countP (fun item => p item.1) = values.countP p := by
    intro p
    rw [hperm.countP_eq]
    conv_rhs => rw [← zipIdx_map_fst 0 values, countP_map]
    rfl
  have hranked := (getElem?_midranksFrom A 0 ordered
    (List.replicate values.length 0) hsorted hnodup hbound).1
  apply ext_getElem?
  intro j
  by_cases hj : j < values.length
  · have hmem : (values[j], j) ∈ ordered := by
      rw [hperm.mem_iff, mem_zipIdx_iff_getElem?]
      exact getElem?_eq_getElem hj
    have hbelow : ordered.countP (·.1 < values[j])
        = values.countP (· < values[j]) := hcount (· < values[j])
    have hequal : ordered.countP (·.1 = values[j]) = values.count values[j] := by
      rw [hcount (· = values[j]), count_eq_countP]
      exact countP_congr fun x _ => by simp
    have hrank := hranked _ hmem
    rw [hbelow, hequal, Nat.zero_add] at hrank
    rw [hrank, getElem?_map, getElem?_eq_getElem hj]
    rfl
  · rw [getElem?_eq_none, getElem?_eq_none]
    · rw [length_map]
      omega
    · rw [length_midranksFrom, length_replicate]
      omega

theorem mean_nil : ∃ signal, mean A [] = .error signal := by
  unfold mean
  rw [length_nil, Nat.cast_zero]
  exact Arithmetic.quotient_zero _

theorem spearman_nil : ∃ signal, spearman A [] = .error signal := by
  obtain ⟨signal, hsignal⟩ := mean_nil A
  have hranks : midranks A [] = [] := eq_nil_of_length_eq_zero (length_midranks A [])
  refine ⟨signal, ?_⟩
  unfold spearman
  rw [map_nil, map_nil, hranks]
  dsimp only
  rw [hsignal]
  rfl

end Loop

-- ==== exact arithmetic

/-- Exact arithmetic on the reals. -/
noncomputable def realArithmetic : Arithmetic ℝ := Arithmetic.exact Real.sqrt fun x y => x ^ y

theorem midranks_real (values : List ℝ) :
    midranks realArithmetic values = values.map (midrank ℝ values) := by
  rw [midranks_eq]
  apply map_congr_left
  intro v _
  unfold tieRank midrank
  simp only [realArithmetic, Arithmetic.exact_round]
  push_cast
  ring

variable {values : List ℝ} {pairs : List (ℝ × ℝ)}

theorem mean_real (h : values ≠ []) :
    mean realArithmetic values = .ok (values.sum / values.length) := by
  have hlength : (values.length : ℝ) ≠ 0 := by exact_mod_cast length_pos_iff.mpr h |>.ne'
  unfold mean
  rw [Arithmetic.quotient_ok hlength]
  simp only [realArithmetic, Arithmetic.exact_round, Arithmetic.exact_sum]

theorem mean_midranks (h : values ≠ []) :
    mean realArithmetic (midranks realArithmetic values) = .ok (((values.length : ℝ) + 1) / 2) := by
  have hlength : (values.length : ℝ) ≠ 0 := by exact_mod_cast length_pos_iff.mpr h |>.ne'
  rw [midranks_real, mean_real (by simpa using h), sum_midrank, length_map]
  field_simp

/-- The midrank of a value, from the mean of the ranks. -/
noncomputable def centered (values : List ℝ) (v : ℝ) : ℝ :=
  midrank ℝ values v - (values.length + 1) / 2

/-- The products of the centered ranks of the pairs. -/
noncomputable def crossSum (pairs : List (ℝ × ℝ)) : ℝ :=
  (pairs.map fun p => centered (pairs.map (·.1)) p.1 * centered (pairs.map (·.2)) p.2).sum

/-- The squares of the centered ranks of a side. -/
noncomputable def squareSum (values : List ℝ) : ℝ :=
  (values.map fun v => centered values v * centered values v).sum

theorem rankNumerator_real :
    rankNumerator realArithmetic (midranks realArithmetic (pairs.map (·.1)))
      (midranks realArithmetic (pairs.map (·.2)))
      (((pairs.map (·.1)).length + 1) / 2)
      (((pairs.map (·.2)).length + 1) / 2) = crossSum pairs := by
  unfold rankNumerator crossSum
  rw [midranks_real, midranks_real]
  simp only [realArithmetic, Arithmetic.exact_round, Arithmetic.exact_sum]
  rw [map_map, map_map, zip_map', map_map]
  rfl

theorem rankSquares_real (values : List ℝ) :
    rankSquares realArithmetic (midranks realArithmetic values)
      ((values.length + 1) / 2) = squareSum values := by
  unfold rankSquares squareSum
  rw [midranks_real]
  simp only [realArithmetic, Arithmetic.exact_round, Arithmetic.exact_square, Arithmetic.exact_sum]
  rw [map_map]
  rfl

theorem squareSum_nonneg (values : List ℝ) : 0 ≤ squareSum values := by
  apply List.sum_nonneg
  intro x hx
  obtain ⟨v, -, rfl⟩ := mem_map.mp hx
  exact mul_self_nonneg _

theorem spearman_real (h : pairs ≠ []) : spearman realArithmetic pairs
      = .ok (if √(squareSum (pairs.map (·.1)) * squareSum (pairs.map (·.2))) = 0 then none
        else some (crossSum pairs
          / √(squareSum (pairs.map (·.1)) * squareSum (pairs.map (·.2))))) := by
  have hleft : pairs.map (·.1) ≠ [] := by simpa using h
  have hright : pairs.map (·.2) ≠ [] := by simpa using h
  have hnonneg : 0 ≤ squareSum (pairs.map (·.1)) * squareSum (pairs.map (·.2)) :=
    mul_nonneg (squareSum_nonneg _) (squareSum_nonneg _)
  unfold spearman
  dsimp only
  rw [mean_midranks hleft, ok_bind, mean_midranks hright, ok_bind,
    rankNumerator_real, rankSquares_real, rankSquares_real]
  simp only [realArithmetic, Arithmetic.exact_round]
  rw [Arithmetic.sqrt_ok hnonneg, ok_bind, Arithmetic.exact_root]
  by_cases hzero : √(squareSum (pairs.map (·.1)) * squareSum (pairs.map (·.2))) = 0
  · rw [if_pos hzero, if_pos hzero]
    rfl
  · rw [if_neg hzero, if_neg hzero, Arithmetic.quotient_ok hzero]
    rfl

-- ==== the laws

/-- All entries of a list are equal. -/
def Constant (values : List ℝ) : Prop := ∀ x ∈ values, ∀ y ∈ values, x = y

theorem squareSum_eq_zero : squareSum values = 0 ↔ Constant values := by
  have hsum : squareSum values = ((values.map (centered values)).map fun x => x * x).sum := by
    rw [map_map]
    rfl
  rw [hsum, sum_mul_self_eq_zero, forall_mem_map]
  constructor
  · intro hzero x hx y hy
    apply midrank_inj (K := ℝ) hx hy
    have h := (hzero x hx).trans (hzero y hy).symm
    unfold centered at h
    linarith
  · intro hconstant x hx
    have hranks : values.map (midrank ℝ values)
        = List.replicate values.length (midrank ℝ values x) := by
      rw [eq_replicate_iff, length_map]
      refine ⟨rfl, ?_⟩
      rw [forall_mem_map]
      intro y hy
      rw [hconstant y hy x hx]
    have htotal := sum_midrank (K := ℝ) values
    have hlength : (values.length : ℝ) ≠ 0 := by exact_mod_cast (length_pos_of_mem hx).ne'
    rw [hranks, sum_replicate, nsmul_eq_mul] at htotal
    unfold centered
    have hmean : midrank ℝ values x = (values.length + 1) / 2 := by
      apply mul_left_cancel₀ hlength
      rw [htotal]
      ring
    rw [hmean, sub_self]

structure MidrankLaw (values : List ℝ) : Prop where
  sum : (midranks realArithmetic values).sum = values.length * (values.length + 1) / 2
  counts : ∀ (i : Nat) (v : ℝ), values[i]? = some v → (midranks realArithmetic values)[i]? = some (1
      + (values.countP (· < v) : ℝ) + ((values.count v : ℝ) - 1) / 2)
  permuted : ∀ σ : Equiv.Perm (Fin values.length),
    midranks realArithmetic (List.ofFn fun i => values.get (σ i))
      = List.ofFn fun i => (midranks realArithmetic values).getD (σ i) 0

structure SpearmanLaw (pairs : List (ℝ × ℝ)) : Prop where
  none_iff : pairs ≠ [] → (spearman realArithmetic pairs = .ok none
    ↔ Constant (pairs.map (·.1)) ∨ Constant (pairs.map (·.2)) ∨ pairs.length < 2)
  defined : pairs ≠ [] → ∃ correlation, spearman realArithmetic pairs = .ok correlation
  symmetric : spearman realArithmetic (pairs.map Prod.swap) = spearman realArithmetic pairs
  cauchy : ∀ leftMean rightMean,
    mean realArithmetic (midranks realArithmetic (pairs.map (·.1))) = .ok leftMean →
    mean realArithmetic (midranks realArithmetic (pairs.map (·.2))) = .ok rightMean →
    rankNumerator realArithmetic (midranks realArithmetic (pairs.map (·.1)))
        (midranks realArithmetic (pairs.map (·.2))) leftMean rightMean ^ 2
      ≤ rankSquares realArithmetic (midranks realArithmetic (pairs.map (·.1))) leftMean
        * rankSquares realArithmetic (midranks realArithmetic (pairs.map (·.2))) rightMean
  bounded : ∀ correlation,
    spearman realArithmetic pairs = .ok (some correlation) → |correlation| ≤ 1
  increasing_left : ∀ f : ℝ → ℝ, StrictMonoOn f {x | x ∈ pairs.map (·.1)} →
    spearman realArithmetic (pairs.map fun p => (f p.1, p.2)) = spearman realArithmetic pairs
  increasing_right : ∀ f : ℝ → ℝ, StrictMonoOn f {y | y ∈ pairs.map (·.2)} →
    spearman realArithmetic (pairs.map fun p => (p.1, f p.2)) = spearman realArithmetic pairs
  decreasing_left : ∀ f : ℝ → ℝ, StrictAntiOn f {x | x ∈ pairs.map (·.1)} →
    spearman realArithmetic (pairs.map fun p => (f p.1, p.2))
      = (spearman realArithmetic pairs).map (Option.map fun rho => -rho)
  decreasing_right : ∀ f : ℝ → ℝ, StrictAntiOn f {y | y ∈ pairs.map (·.2)} →
    spearman realArithmetic (pairs.map fun p => (p.1, f p.2))
      = (spearman realArithmetic pairs).map (Option.map fun rho => -rho)

theorem midrank_law (values : List ℝ) : MidrankLaw values := by
  constructor
  case sum => rw [midranks_real, sum_midrank]
  case counts =>
    intro i v hv
    rw [midranks_real, getElem?_map, hv]
    rfl
  case permuted =>
    intro σ
    have hperm : (List.ofFn fun i => values.get (σ i)).Perm values := by
      have h := Equiv.Perm.ofFn_comp_perm σ values.get
      rwa [ofFn_get] at h
    rw [midranks_real, midranks_real, map_ofFn]
    congr 1
    ext i
    rw [Function.comp_apply, midrank_perm hperm, getD_eq_getElem?_getD,
      getElem?_map, getElem?_eq_getElem (σ i).isLt]
    rfl

section Maps

variable {pairs : List (ℝ × ℝ)} {values : List ℝ} {f g : ℝ → ℝ} {a b : ℝ}

def Scales (f : ℝ → ℝ) (a : ℝ) (values : List ℝ) : Prop :=
  ∀ v ∈ values, centered (values.map f) (f v) = a * centered values v

theorem scales_id (values : List ℝ) : Scales id 1 values := by
  intro v _
  rw [map_id, id_eq, one_mul]

theorem scales_mono (hf : StrictMonoOn f {x | x ∈ values}) :
    Scales f 1 values := by
  intro v hv
  unfold centered
  rw [midrank_map_mono hf hv, length_map, one_mul]

theorem scales_anti (hf : StrictAntiOn f {x | x ∈ values}) : Scales f (-1) values := by
  intro v hv
  unfold centered
  rw [midrank_map_anti hf hv, length_map]
  ring

theorem squareSum_map {a : ℝ} (ha : a * a = 1) (h : Scales f a values) :
    squareSum (values.map f) = squareSum values := by
  unfold squareSum
  rw [map_map]
  congr 1
  apply map_congr_left
  intro v hv
  rw [Function.comp_apply, h v hv]
  linear_combination centered values v * centered values v * ha

theorem crossSum_map (hf : Scales f a (pairs.map (·.1))) (hg : Scales g b (pairs.map (·.2))) :
    crossSum (pairs.map fun p => (f p.1, g p.2)) = a * b * crossSum pairs := by
  unfold crossSum
  rw [map_map, ← sum_map_mul_left]
  congr 1
  apply map_congr_left
  intro p hp
  have hleft := hf p.1 (mem_map_of_mem hp)
  have hright := hg p.2 (mem_map_of_mem hp)
  rw [map_map] at hleft hright
  simp only [Function.comp_apply, map_map]
  show centered (pairs.map (f ∘ fun p => p.1)) (f p.1)
    * centered (pairs.map (g ∘ fun p => p.2)) (g p.2) = _
  rw [hleft, hright]
  ring

/-- Maps that scale the centered ranks of the sides by signs scale the
correlation by their product. -/
theorem spearman_map (ha : a * a = 1) (hb : b * b = 1)
    (hf : Scales f a (pairs.map (·.1))) (hg : Scales g b (pairs.map (·.2))) :
    spearman realArithmetic (pairs.map fun p => (f p.1, g p.2))
      = (spearman realArithmetic pairs).map (Option.map fun rho => a * b * rho) := by
  by_cases hne : pairs = []
  · obtain ⟨signal, hsignal⟩ := spearman_nil realArithmetic
    rw [hne, map_nil, hsignal]
    rfl
  · have hleft : (pairs.map fun p => (f p.1, g p.2)).map (·.1) = (pairs.map (·.1)).map f := by
      rw [map_map, map_map]
      rfl
    have hright : (pairs.map fun p => (f p.1, g p.2)).map (·.2) = (pairs.map (·.2)).map g := by
      rw [map_map, map_map]
      rfl
    rw [spearman_real hne, spearman_real (by simpa using hne), hleft, hright,
      squareSum_map ha hf, squareSum_map hb hg, crossSum_map hf hg]
    by_cases hzero : √(squareSum (pairs.map (·.1)) * squareSum (pairs.map (·.2))) = 0
    · rw [if_pos hzero, if_pos hzero]
      rfl
    · rw [if_neg hzero, if_neg hzero, mul_div_assoc]
      rfl

theorem scale_one (r : Except Signal (Option ℝ)) :
    r.map (Option.map fun rho => 1 * 1 * rho) = r := by
  cases r with
  | error signal => rfl
  | ok correlation =>
    cases correlation with
    | none => rfl
    | some rho =>
      show Except.ok (some (1 * 1 * rho)) = _
      rw [one_mul, one_mul]

end Maps

theorem crossSum_sq_le (pairs : List (ℝ × ℝ)) : crossSum pairs * crossSum pairs
    ≤ squareSum (pairs.map (·.1)) * squareSum (pairs.map (·.2)) := by
  have h := sum_mul_sq_le (pairs.map fun p =>
    (centered (pairs.map (·.1)) p.1, centered (pairs.map (·.2)) p.2))
  unfold crossSum squareSum
  simpa only [map_map, Function.comp_def] using h

theorem crossSum_swap (pairs : List (ℝ × ℝ)) : crossSum (pairs.map Prod.swap) = crossSum pairs := by
  unfold crossSum
  rw [map_map, map_map, map_map]
  congr 1
  apply map_congr_left
  intro p _
  exact mul_comm _ _

theorem spearman_law (pairs : List (ℝ × ℝ)) : SpearmanLaw pairs := by
  have hroot : √(squareSum (pairs.map (·.1)) * squareSum (pairs.map (·.2))) = 0
      ↔ Constant (pairs.map (·.1)) ∨ Constant (pairs.map (·.2)) := by
    rw [Real.sqrt_eq_zero (mul_nonneg (squareSum_nonneg _) (squareSum_nonneg _)),
      mul_eq_zero, squareSum_eq_zero, squareSum_eq_zero]
  constructor
  case none_iff =>
    intro hne
    have hshort : pairs.length < 2 → Constant (pairs.map (·.1)) := by
      intro hlt x hx y hy
      obtain ⟨p, hp, rfl⟩ := mem_map.mp hx
      obtain ⟨q, hq, rfl⟩ := mem_map.mp hy
      match pairs, hlt with
      | [], _ => cases hp
      | [r], _ => rw [mem_singleton.mp hp, mem_singleton.mp hq]
    rw [spearman_real hne, Except.ok.injEq, ite_eq_left_iff, hroot]
    simp only [reduceCtorEq, imp_false, not_not]
    constructor
    · rintro (hleft | hright)
      · exact .inl hleft
      · exact .inr (.inl hright)
    · rintro (hleft | hright | hlt)
      · exact .inl hleft
      · exact .inr hright
      · exact .inl (hshort hlt)
  case defined => exact fun hne => ⟨_, spearman_real hne⟩
  case symmetric =>
    by_cases hne : pairs = []
    · rw [hne, map_nil]
    · have hleft : (pairs.map Prod.swap).map (·.1) = pairs.map (·.2) := by
        rw [map_map]
        rfl
      have hright : (pairs.map Prod.swap).map (·.2) = pairs.map (·.1) := by
        rw [map_map]
        rfl
      rw [spearman_real hne, spearman_real (by simpa using hne), hleft, hright,
        crossSum_swap, mul_comm (squareSum (pairs.map (·.2)))]
  case cauchy =>
    intro leftMean rightMean hleft hright
    by_cases hne : pairs = []
    · obtain ⟨signal, hsignal⟩ := mean_nil realArithmetic
      rw [hne, map_nil, eq_nil_of_length_eq_zero
        (length_midranks realArithmetic []), hsignal] at hleft
      cases hleft
    · rw [mean_midranks (by simpa using hne)] at hleft hright
      obtain rfl := Except.ok.inj hleft
      obtain rfl := Except.ok.inj hright
      rw [rankNumerator_real, rankSquares_real, rankSquares_real, sq]
      exact crossSum_sq_le pairs
  case bounded =>
    intro correlation h
    by_cases hne : pairs = []
    · obtain ⟨signal, hsignal⟩ := spearman_nil realArithmetic
      rw [hne, hsignal] at h
      cases h
    · rw [spearman_real hne, Except.ok.injEq] at h
      split at h
      next => cases h
      next hzero =>
        have hpos := lt_of_le_of_ne (Real.sqrt_nonneg _) (Ne.symm hzero)
        rw [← Option.some.inj h, abs_div, abs_of_pos hpos, div_le_one hpos]
        apply Real.le_sqrt_of_sq_le
        rw [sq_abs, sq]
        exact crossSum_sq_le pairs
  case increasing_left =>
    intro f hf
    have h := spearman_map (mul_one 1) (mul_one 1) (scales_mono hf) (scales_id (pairs.map (·.2)))
    rwa [scale_one] at h
  case increasing_right =>
    intro f hf
    have h := spearman_map (mul_one 1) (mul_one 1) (scales_id (pairs.map (·.1))) (scales_mono hf)
    rwa [scale_one] at h
  case decreasing_left =>
    intro f hf
    have h := spearman_map (a := -1) (by norm_num) (mul_one 1) (scales_anti hf)
      (scales_id (pairs.map (·.2)))
    simpa only [mul_one, neg_one_mul, id_eq] using h
  case decreasing_right =>
    intro f hf
    have h := spearman_map (b := -1) (mul_one 1) (by norm_num)
      (scales_id (pairs.map (·.1))) (scales_anti hf)
    simpa only [one_mul, neg_one_mul, id_eq] using h

/-- The ranks and the correlation of every list of values and of every
list of pairs satisfy their laws. -/
theorem rank_correlation_law (values : List ℝ) (pairs : List (ℝ × ℝ)) :
    MidrankLaw values ∧ SpearmanLaw pairs :=
  ⟨midrank_law values, spearman_law pairs⟩

end MarketRegimeAlpha.ResearchQualification.EvaluationFormula
