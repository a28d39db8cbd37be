/-
The moving-block bootstrap of a mean.

# A draw

A start is within the values, so that a block is as long as it is asked for and the
loop of a draw ends; what it has sampled are values (`sampleBlocks_ok`). Cut to the
number of the values, their mean lies between the smallest and the greatest value.
-/
import Mathlib.Data.List.GetD
import MarketRegimeAlpha.ResearchValidation.Inference

namespace MarketRegimeAlpha.ResearchValidation

open Lib List

-- ==== the mean

section Mean

variable {values : List ℚ}

theorem exists_le_mean (h : values ≠ []) : ∃ v ∈ values, v ≤ mean values := by
  obtain ⟨g, hg, hleast⟩ := exists_isLeast h
  refine ⟨g, hg, ?_⟩
  have hlength : (0 : ℚ) < values.length := Nat.cast_pos.mpr (length_pos_iff.mpr h)
  unfold mean
  rw [le_div_iff₀ hlength, mul_comm, ← nsmul_eq_mul]
  exact card_nsmul_le_sum values g fun v hv => hleast hv

theorem exists_mean_le (h : values ≠ []) : ∃ v ∈ values, mean values ≤ v := by
  obtain ⟨g, hg, hgreatest⟩ := exists_isGreatest h
  refine ⟨g, hg, ?_⟩
  have hlength : (0 : ℚ) < values.length := Nat.cast_pos.mpr (length_pos_iff.mpr h)
  unfold mean
  rw [div_le_iff₀ hlength, mul_comm, ← nsmul_eq_mul]
  exact sum_le_card_nsmul values g fun v hv => hgreatest hv

theorem mean_shift (h : values ≠ []) (c : ℚ) : mean (values.map (· + c)) = mean values + c := by
  have hlength : (values.length : ℚ) ≠ 0 := Nat.cast_ne_zero.mpr (length_pos_iff.mpr h).ne'
  have hsum : (values.map (· + c)).sum = values.sum + values.length * c := by
    rw [sum_map_add, map_id', map_const', sum_replicate, nsmul_eq_mul]
  unfold mean
  rw [length_map, hsum, add_div, mul_div_cancel_left₀ c hlength]

end Mean

-- ==== the draws

section Draws

variable {σ : Type _} (source : Random σ) {values : List ℚ} {blockSessions : Nat}
  (hblock : 0 < blockSessions)

theorem mem_wrappedBlock (hvalues : values ≠ []) {start : Nat} {x : ℚ}
    (hx : x ∈ wrappedBlock blockSessions values start) : x ∈ values := by
  obtain ⟨offset, -, rfl⟩ := mem_map.mp hx
  rw [getD_eq_getElem _ _ (Nat.mod_lt _ (length_pos_iff.mpr hvalues))]
  exact getElem_mem _

theorem wrappedBlock_shift (hvalues : values ≠ []) (start : Nat) (c : ℚ) :
    wrappedBlock blockSessions (values.map (· + c)) start
      = (wrappedBlock blockSessions values start).map (· + c) := by
  unfold wrappedBlock
  rw [map_map, length_map]
  refine map_congr_left fun offset _ => ?_
  have hlt := Nat.mod_lt (start + offset) (length_pos_iff.mpr hvalues)
  rw [Function.comp_apply, getD_eq_getElem _ _ (by rwa [length_map]),
    getD_eq_getElem _ _ hlt, getElem_map]

theorem sampleBlocks_ok (hvalues : values ≠ []) (sampled : List ℚ) (rng : σ)
    (hsampled : sampled ⊆ values) :
    ∃ sampled' rng', sampleBlocks source hblock values sampled rng = .ok (sampled', rng')
      ∧ values.length ≤ sampled'.length ∧ sampled' ⊆ values := by
  induction sampled, rng using sampleBlocks.induct source hblock values with
  | case1 sampled rng hdone =>
    rw [sampleBlocks, if_pos hdone]
    exact ⟨sampled, rng, rfl, hdone, hsampled⟩
  | case2 sampled rng hmore raised hraised =>
    obtain ⟨start, rng', hok, -⟩ := source.randrange_ok rng (length_pos_iff.mpr hvalues)
    rw [hok] at hraised
    cases hraised
  | case3 sampled rng hmore start rng' hrange ih =>
    rw [sampleBlocks, if_neg hmore, hrange]
    exact ih (append_subset.mpr ⟨hsampled, fun _ hx => mem_wrappedBlock hvalues hx⟩)

theorem sampleBlocks_shift (hvalues : values ≠ []) (sampled : List ℚ) (rng : σ) (c : ℚ) :
    sampleBlocks source hblock (values.map (· + c)) (sampled.map (· + c)) rng
      = (sampleBlocks source hblock values sampled rng).map fun result =>
          (result.1.map (· + c), result.2) := by
  induction sampled, rng using sampleBlocks.induct source hblock values with
  | case1 sampled rng hdone =>
    rw [sampleBlocks, if_pos (by simpa using hdone), sampleBlocks, if_pos hdone]
    rfl
  | case2 sampled rng hmore raised hraised =>
    rw [sampleBlocks, if_neg (by simpa using hmore), length_map, hraised,
      sampleBlocks, if_neg hmore, hraised]
    rfl
  | case3 sampled rng hmore start rng' hrange ih =>
    rw [sampleBlocks, if_neg (by simpa using hmore), length_map, hrange,
      sampleBlocks, if_neg hmore, hrange]
    dsimp only
    rw [wrappedBlock_shift hvalues, ← map_append]
    exact ih

def IsDraw (values : List ℚ) (d : ℚ) : Prop :=
  ∃ sampled, sampled.length = values.length ∧ sampled ⊆ values ∧ d = mean sampled

theorem meanDraws_ok (hvalues : values ≠ []) (iterations : Nat) (rng : σ) :
    ∃ draws, meanDraws source hblock values iterations rng = .ok draws
      ∧ draws.length = iterations ∧ ∀ d ∈ draws, IsDraw values d := by
  induction iterations generalizing rng with
  | zero => exact ⟨[], rfl, rfl, by simp⟩
  | succ iterations ih =>
    obtain ⟨sampled, rng', hsample, hlength, hsubset⟩ :=
      sampleBlocks_ok source hblock hvalues [] rng (by simp)
    obtain ⟨draws, hdraws, hcount, hall⟩ := ih rng'
    refine ⟨mean (sampled.take values.length) :: draws, ?_, by simp [hcount], ?_⟩
    · rw [meanDraws, hsample, ok_bind]
      dsimp only
      rw [hdraws]
      rfl
    · intro d hd
      rcases mem_cons.mp hd with rfl | hd
      · exact ⟨_, by simpa using hlength, fun _ hx => hsubset (mem_of_mem_take hx), rfl⟩
      · exact hall d hd

theorem meanDraws_shift (hvalues : values ≠ []) (iterations : Nat) (rng : σ) (c : ℚ) :
    meanDraws source hblock (values.map (· + c)) iterations rng
      = (meanDraws source hblock values iterations rng).map (List.map (· + c)) := by
  induction iterations generalizing rng with
  | zero => rfl
  | succ iterations ih =>
    obtain ⟨sampled, rng', hsample, hlength, -⟩ :=
      sampleBlocks_ok source hblock hvalues [] rng (by simp)
    have hshift := sampleBlocks_shift source hblock hvalues [] rng c
    rw [map_nil, hsample] at hshift
    rw [meanDraws, hshift, meanDraws, hsample]
    simp only [Except.map, ok_bind]
    rw [ih, length_map, ← map_take, mean_shift]
    · cases meanDraws source hblock values iterations rng' with
      | error raised => rfl
      | ok draws => rfl
    · have hpos := length_pos_iff.mpr hvalues
      exact ne_nil_of_length_pos (by rw [length_take]; omega)

end Draws

-- ==== off the draws

section Statistics

variable {draws : List ℚ}

theorem percentileInterval_ok (hdraws : draws ≠ []) {confidence : ℚ} (hpos : 0 < confidence) :
    ∃ lower upper, percentileInterval draws confidence = .ok (lower, upper)
      ∧ lower ∈ draws ∧ upper ∈ draws ∧ lower ≤ upper := by
  have hlength : 0 < (sortBy id draws).length := by
    rw [(sortBy_perm _ _).length_eq]
    exact length_pos_iff.mpr hdraws
  have hplace (n : Nat) : ∃ x, (sortBy id draws)[min ((sortBy id draws).length - 1) n]? = some x :=
    ⟨_, getElem?_eq_getElem (by omega)⟩
  obtain ⟨lower, hlower⟩ := hplace ⌊(1 - confidence) / 2 * (sortBy id draws).length⌋₊
  obtain ⟨upper, hupper⟩ := hplace ⌊(1 - (1 - confidence) / 2) * (sortBy id draws).length⌋₊
  refine ⟨lower, upper, ?_, ?_, ?_, ?_⟩
  case refine_1 =>
    unfold percentileInterval
    dsimp only
    rw [hlower, hupper]
  case refine_2 => exact (sortBy_perm _ _).mem_iff.mp (mem_of_getElem? hlower)
  case refine_3 => exact (sortBy_perm _ _).mem_iff.mp (mem_of_getElem? hupper)
  case refine_4 =>
    -- half of what the confidence leaves is less than half
    refine le_of_getElem?_le (sortBy_pairwise id draws) hlower hupper
      (min_le_min_left _ (Nat.floor_mono ?_))
    gcongr
    linarith

theorem percentileInterval_shift (confidence c : ℚ) :
    percentileInterval (draws.map (· + c)) confidence
      = (percentileInterval draws confidence).map fun interval =>
          (interval.1 + c, interval.2 + c) := by
  have hsorted : sortBy id (draws.map (· + c)) = (sortBy id draws).map (· + c) :=
    sortBy_map_monotone (fun _ _ h => by gcongr) draws
  unfold percentileInterval
  rw [hsorted]
  simp only [length_map, getElem?_map]
  cases (sortBy id draws)[min ((sortBy id draws).length - 1)
      ⌊(1 - confidence) / 2 * (sortBy id draws).length⌋₊]? with
  | none => rfl
  | some low =>
    cases (sortBy id draws)[min ((sortBy id draws).length - 1)
        ⌊(1 - (1 - confidence) / 2) * (sortBy id draws).length⌋₊]? with
    | none => rfl
    | some high => rfl

theorem pValue_bounds {extreme : Nat} (h : extreme ≤ draws.length) :
    1 / ((draws.length : ℚ) + 1) ≤ ((extreme + 1 : Nat) : ℚ) / ((draws.length + 1 : Nat) : ℚ)
      ∧ ((extreme + 1 : Nat) : ℚ) / ((draws.length + 1 : Nat) : ℚ) ≤ 1 := by
  have hpos : (0 : ℚ) < (draws.length : ℚ) + 1 := by positivity
  have hcast : (extreme : ℚ) ≤ draws.length := Nat.cast_le.mpr h
  push_cast
  rw [div_le_one hpos]
  exact ⟨by gcongr; linarith [Nat.cast_nonneg (α := ℚ) extreme], by linarith⟩

theorem nullCenteredPValue_ok (estimate nullValue : ℚ)
    {alternative : AlternativeHypothesis} (h : alternative ≠ .notApplicable) :
    ∃ p, nullCenteredPValue estimate draws nullValue alternative = .ok p
      ∧ 1 / ((draws.length : ℚ) + 1) ≤ p ∧ p ≤ 1 := by
  rw [show draws.length = (draws.map (· - estimate)).length from (length_map _).symm]
  cases alternative with
  | notApplicable => exact absurd rfl h
  | twoSided => exact ⟨_, rfl, pValue_bounds countP_le_length⟩
  | greater => exact ⟨_, rfl, pValue_bounds countP_le_length⟩
  | less => exact ⟨_, rfl, pValue_bounds countP_le_length⟩

theorem nullCenteredPValue_shift (estimate nullValue c : ℚ) (alternative : AlternativeHypothesis) :
    nullCenteredPValue (estimate + c) (draws.map (· + c)) (nullValue + c) alternative
      = nullCenteredPValue estimate draws nullValue alternative := by
  unfold nullCenteredPValue
  rw [map_map, add_sub_add_right_eq_sub]
  have hdraws : ((· - (estimate + c)) ∘ (· + c)) = fun d : ℚ => d - estimate := by
    funext d
    exact add_sub_add_right_eq_sub d estimate c
  rw [hdraws]

end Statistics

-- ==== the result

/-- The bootstrap of a mean returns its draws, each of them the mean of as many values
as there are; its interval lies in the draws in their order, its p-value between
`1 / (B + 1)` and one, and both follow a shift of the values. -/
theorem moving_block_bootstrap {σ : Type} (source : Random σ) (rng : σ) {values : List ℚ}
    {iterations blockSessions : Nat} (hvalues : values ≠ []) (hiterations : 0 < iterations)
    (hblock : 1 ≤ blockSessions) (hlength : blockSessions ≤ values.length) :
    (∃ draws, movingBlockMeanDraws source values iterations blockSessions rng = .ok draws
        ∧ draws.length = iterations
        ∧ (∀ d ∈ draws, IsDraw values d ∧ (∃ v ∈ values, v ≤ d) ∧ ∃ v ∈ values, d ≤ v)
        ∧ (∀ confidence, 0 < confidence → confidence < 1 → ∃ lower upper,
            percentileInterval draws confidence = .ok (lower, upper)
              ∧ lower ∈ draws ∧ upper ∈ draws ∧ lower ≤ upper)
        ∧ ∀ estimate nullValue alternative, alternative ≠ .notApplicable →
            ∃ p, nullCenteredPValue estimate draws nullValue alternative = .ok p
              ∧ 1 / ((iterations : ℚ) + 1) ≤ p ∧ p ≤ 1)
      ∧ (∀ c confidence, movingBlockMeanInterval source (values.map (· + c)) iterations
          blockSessions confidence rng
            = (movingBlockMeanInterval source values iterations blockSessions confidence
                rng).map fun (estimate, lower, upper) => (estimate + c, lower + c, upper + c))
      ∧ ∀ c nullValue alternative, movingBlockMeanNullPValue source (values.map (· + c))
          iterations blockSessions rng (nullValue + c) alternative
            = movingBlockMeanNullPValue source values iterations blockSessions rng nullValue
                alternative := by
  have hdraws : ∀ l : List ℚ, l ≠ [] → l.length = values.length →
      movingBlockMeanDraws source l iterations blockSessions rng
        = meanDraws source (Nat.one_le_iff_ne_zero.mp hblock |> Nat.pos_of_ne_zero) l
            iterations rng := by
    intro l hl hlen
    unfold movingBlockMeanDraws
    rw [dif_pos ⟨hl, hiterations, hblock⟩, require_true (by omega)]
    rfl
  obtain ⟨draws, hok, hcount, hall⟩ :=
    meanDraws_ok source hblock hvalues iterations rng
  have hshift := meanDraws_shift source hblock hvalues iterations rng
  have hne : draws ≠ [] := ne_nil_of_length_pos (by omega)
  refine ⟨⟨draws, (hdraws values hvalues rfl).trans hok, hcount, fun d hd => ?_,
    fun confidence hpos _ => percentileInterval_ok hne hpos,
    fun estimate nullValue alternative h => hcount ▸ nullCenteredPValue_ok _ _ h⟩,
    fun c confidence => ?_, fun c nullValue alternative => ?_⟩
  case refine_1 =>
    obtain ⟨sampled, hlen, hsubset, rfl⟩ := hall d hd
    have hsampled : sampled ≠ [] := ne_nil_of_length_pos
      (hlen ▸ length_pos_iff.mpr hvalues)
    obtain ⟨low, hlow, hle⟩ := exists_le_mean hsampled
    obtain ⟨high, hhigh, hge⟩ := exists_mean_le hsampled
    exact ⟨⟨sampled, hlen, hsubset, rfl⟩, ⟨low, hsubset hlow, hle⟩, high, hsubset hhigh, hge⟩
  case refine_2 =>
    unfold movingBlockMeanInterval
    rw [hdraws _ (by simpa using hvalues) (length_map _), hshift c,
      hdraws values hvalues rfl, hok]
    by_cases hconfidence : 0 < confidence ∧ confidence < 1
    · rw [require_true hconfidence]
      simp only [ok_bind, Except.map, percentileInterval_shift, mean_shift hvalues]
      cases percentileInterval draws confidence with
      | error raised => rfl
      | ok interval => rfl
    · rw [show Lib.require (0 < confidence ∧ confidence < 1) _ = .error _ from
        if_neg hconfidence]
      rfl
  case refine_3 =>
    unfold movingBlockMeanNullPValue
    rw [hdraws _ (by simpa using hvalues) (length_map _), hshift c,
      hdraws values hvalues rfl, hok]
    simp only [ok_bind, Except.map, mean_shift hvalues]
    exact nullCenteredPValue_shift _ _ c alternative

def roundSource : Random Nat where
  seeded := id
  next rng n := (rng % n, rng + 1)
  inRange rng _ h := Nat.mod_lt rng h

theorem moving_block_bootstrap_sample :
    ∃ draws, movingBlockMeanDraws roundSource [1, 2, 6] 2 2 2 = .ok draws ∧ draws.length = 2 := by
  obtain ⟨⟨draws, hok, hlength, -⟩, -⟩ := @moving_block_bootstrap Nat roundSource 2 [1, 2, 6] 2 2
    (by simp) (by decide) (by decide) (by decide)
  exact ⟨draws, hok, hlength⟩

end MarketRegimeAlpha.ResearchValidation
