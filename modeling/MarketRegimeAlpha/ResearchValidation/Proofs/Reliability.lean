/-
The evaluation of a calibration: every probability finds its bucket, the buckets
part the observations, and the errors they show are no greater than those of the
observations.

# The buckets

Bucket `i` holds the observations with `int(p * count) = i`, in their order, and
the last also those with `p = 1` (`fillBuckets_ok`). So the buckets are the
observations, permuted.
-/
import Mathlib.Algebra.Order.Floor.Semiring
import MarketRegimeAlpha.Lib.Averages
import MarketRegimeAlpha.Lib.Dict
import MarketRegimeAlpha.ResearchValidation.Calibration

namespace MarketRegimeAlpha.ResearchValidation.Calibration

open Lib List

-- ==== the buckets

def bucketOf (count : Nat) (pair : ℚ × Int) : Nat := (bucketIndex count pair.1).toNat

def bucketsOf (count : Nat) (pairs : List (ℚ × Int)) : List (List (ℚ × Int)) :=
  (List.range count).map fun i => pairs.filter (bucketOf count · = i)

section Buckets

variable {count : Nat} {pairs : List (ℚ × Int)} {pair : ℚ × Int}

theorem bucketIndex_range {p : ℚ} (hcount : 0 < count) (hp : 0 ≤ p) :
    0 ≤ bucketIndex count p ∧ bucketIndex count p < count := by
  have hnum : 0 ≤ (p * count).num := Rat.num_nonneg.mpr (mul_nonneg hp (Nat.cast_nonneg count))
  have hdiv := Int.tdiv_nonneg hnum (Int.natCast_nonneg (p * count).den)
  constructor
  · exact le_min (by omega) hdiv
  · exact (min_le_left _ _).trans_lt (by omega)

theorem placeOf_bucket (hcount : 0 < count) (hp : 0 ≤ pair.1) :
    placeOf count (bucketIndex count pair.1) = .ok (bucketOf count pair) :=
  if_pos (bucketIndex_range hcount hp)

theorem bucketOf_lt (hcount : 0 < count) (hp : 0 ≤ pair.1) : bucketOf count pair < count := by
  have := bucketIndex_range hcount hp
  unfold bucketOf
  omega

theorem bucketsOf_append (count : Nat) (pairs : List (ℚ × Int)) (pair : ℚ × Int) :
    (bucketsOf count pairs).modify (bucketOf count pair) (· ++ [pair])
      = bucketsOf count (pairs ++ [pair]) := by
  apply ext_getElem
  · simp [bucketsOf]
  intro i hleft hright
  rw [getElem_modify]
  simp only [bucketsOf, getElem_map, getElem_range, filter_append]
  split
  next h => rw [filter_singleton, decide_eq_true h, cond_true]
  next h => rw [filter_singleton, decide_eq_false h, cond_false, append_nil]

theorem fillBuckets_ok (hcount : 0 < count) (hp : ∀ pair ∈ pairs, 0 ≤ pair.1) :
    fillBuckets count pairs = .ok (bucketsOf count pairs) := by
  have hstart : List.replicate count [] = bucketsOf count [] := by simp [bucketsOf]
  have hloop (done : List (ℚ × Int)) : pairs.foldlM (fun buckets pair => do
      let place ← placeOf buckets.length (bucketIndex count pair.1)
      return buckets.modify place (· ++ [pair])) (bucketsOf count done)
        = (Except.ok (bucketsOf count (done ++ pairs)) : Except Raised _) := by
    induction pairs generalizing done with
    | nil =>
      rw [append_nil]
      rfl
    | cons pair pairs ih =>
      have hlength : (bucketsOf count done).length = count := by
        rw [bucketsOf, length_map, length_range]
      rw [foldlM_cons, hlength, placeOf_bucket hcount (hp pair mem_cons_self)]
      have hrest := ih (fun q hq => hp q (mem_cons_of_mem pair hq)) (done ++ [pair])
      rw [← bucketsOf_append, append_assoc, singleton_append] at hrest
      exact hrest
  unfold fillBuckets
  rw [hstart]
  exact hloop []

theorem bucketsOf_perm (hcount : 0 < count) (hp : ∀ pair ∈ pairs, 0 ≤ pair.1) :
    (bucketsOf count pairs).flatten.Perm pairs := by
  exact flatMap_filter_perm (bucketOf count) nodup_range fun pair hpair =>
    mem_range.mpr (bucketOf_lt hcount (hp pair hpair))

end Buckets

-- ==== the reports

def ReliabilityBin.error (bin : ReliabilityBin) : ℚ := bin.predicted - bin.observed

def report (bucket : List (ℚ × Int)) : ReliabilityBin :=
  ⟨(bucket.map (·.1)).sum / bucket.length, (bucket.map outcomeOf).sum / bucket.length,
    bucket.length⟩

theorem reportOf_ok {bucket : List (ℚ × Int)} (h : bucket ≠ []) :
    reportOf bucket = .ok (report bucket) := by
  unfold reportOf fmean
  rw [if_neg (by simpa using h), if_neg (by simpa using h), length_map, length_map]
  rfl

/-- The buckets with an entry. -/
def filledOf (count : Nat) (pairs : List (ℚ × Int)) : List (List (ℚ × Int)) :=
  (bucketsOf count pairs).filter (· ≠ [])

section Reports

variable {count : Nat} {pairs : List (ℚ × Int)}

theorem filledOf_ne_nil {bucket : List (ℚ × Int)} (h : bucket ∈ filledOf count pairs) :
    bucket ≠ [] :=
  of_decide_eq_true (mem_filter.mp h).2

theorem filledOf_perm (hcount : 0 < count) (hp : ∀ pair ∈ pairs, 0 ≤ pair.1) :
    (filledOf count pairs).flatten.Perm pairs := by
  have hflatten : (filledOf count pairs).flatten = (bucketsOf count pairs).flatten := by
    have hne : filledOf count pairs = (bucketsOf count pairs).filter fun l => !l.isEmpty :=
      filter_congr fun l _ => by cases l <;> rfl
    rw [hne, flatten_filter_not_isEmpty]
  rw [hflatten]
  exact bucketsOf_perm hcount hp

theorem reliabilityBins_ok {probabilities : List ℚ} {outcomes : List Int}
    (hlength : probabilities.length = outcomes.length) (hcount : 0 < count)
    (hp : ∀ p ∈ probabilities, 0 ≤ p) :
    reliabilityBins probabilities outcomes count
      = .ok ((filledOf count (probabilities.zip outcomes)).map report) := by
  unfold reliabilityBins
  rw [require_true hlength, ok_bind,
    fillBuckets_ok hcount fun pair hpair => hp _ (of_mem_zip hpair).1, ok_bind]
  exact mapM_ok_map fun bucket hbucket => reportOf_ok (filledOf_ne_nil hbucket)

theorem sum_filledOf (hcount : 0 < count) (hp : ∀ pair ∈ pairs, 0 ≤ pair.1) (f : ℚ × Int → ℚ) :
    ((filledOf count pairs).map fun bucket => (bucket.map f).sum).sum = (pairs.map f).sum := by
  rw [← ((filledOf_perm hcount hp).map f).sum_eq, map_flatten, sum_flatten, map_map]
  rfl

theorem sum_report {f : ℚ × Int → ℚ} {mean : ReliabilityBin → ℚ}
    (hmean : ∀ bucket, mean (report bucket) = (bucket.map f).sum / bucket.length)
    (hcount : 0 < count) (hp : ∀ pair ∈ pairs, 0 ≤ pair.1) :
    (((filledOf count pairs).map report).map fun bin => (bin.count : ℚ) * mean bin).sum
      = (pairs.map f).sum := by
  rw [← sum_filledOf hcount hp f, map_map]
  congr 1
  refine map_congr_left fun bucket hbucket => ?_
  have hlength : (bucket.length : ℚ) ≠ 0 :=
    Nat.cast_ne_zero.mpr (length_pos_iff.mpr (filledOf_ne_nil hbucket)).ne'
  show (bucket.length : ℚ) * mean (report bucket) = _
  rw [hmean, mul_div_cancel₀ _ hlength]

theorem sum_count (hcount : 0 < count) (hp : ∀ pair ∈ pairs, 0 ≤ pair.1) :
    (((filledOf count pairs).map report).map (·.count)).sum = pairs.length := by
  rw [← (filledOf_perm hcount hp).length_eq, length_flatten, map_map]
  rfl

end Reports

-- ==== the scores

section Scores

variable {pairs : List (ℚ × Int)} {bins : List ReliabilityBin} {n : ℚ}

theorem report_error (bucket : List (ℚ × Int)) : (report bucket).error
      = (bucket.map fun pair => pair.1 - outcomeOf pair).sum / bucket.length := by
  have hsum := sum_map_sub_mul (fun pair : ℚ × Int => pair.1) outcomeOf 1 bucket
  simp only [one_mul] at hsum
  rw [hsum, sub_div]
  rfl

theorem sum_sq_error_le {count : Nat} (hcount : 0 < count) (hp : ∀ pair ∈ pairs, 0 ≤ pair.1) :
    (((filledOf count pairs).map report).map fun bin =>
        (bin.count : ℚ) * bin.error ^ 2).sum
      ≤ (pairs.map fun pair => (pair.1 - outcomeOf pair) ^ 2).sum := by
  rw [← sum_filledOf hcount hp, map_map]
  refine sum_le_sum fun bucket _ => ?_
  have hle := length_mul_sq_average_le (bucket.map fun pair => pair.1 - outcomeOf pair)
  rw [length_map, map_map] at hle
  show (bucket.length : ℚ) * (report bucket).error ^ 2 ≤ _
  rw [report_error]
  exact hle

theorem ece_sq_le (hn : 0 < n) (hcounts : (bins.map fun bin => (bin.count : ℚ)).sum = n) :
    (bins.map fun bin => (bin.count : ℚ) / n * |bin.error|).sum ^ 2
      ≤ (bins.map fun bin => (bin.count : ℚ) / n * bin.error ^ 2).sum := by
  have hsquares : (bins.map fun bin => (bin.count : ℚ) / n * bin.error ^ 2)
      = bins.map fun bin => (bin.count : ℚ) / n * |bin.error| ^ 2 :=
    map_congr_left fun bin _ => by rw [sq_abs]
  rw [hsquares]
  refine sq_weighted_le (fun bin _ => div_nonneg (Nat.cast_nonneg _) hn.le) ?_
  rw [sum_map_div, hcounts, div_self hn.ne']

theorem sq_error_le_one {pair : ℚ × Int} (hp : 0 ≤ pair.1 ∧ pair.1 ≤ 1)
    (hy : pair.2 = 0 ∨ pair.2 = 1) : (pair.1 - outcomeOf pair) ^ 2 ≤ 1 := by
  rw [sq_le_one_iff_abs_le_one, abs_le]
  unfold outcomeOf
  obtain hy | hy := hy
  · rw [hy, Int.cast_zero]
    constructor <;> linarith [hp.1, hp.2]
  · rw [hy, Int.cast_one]
    constructor <;> linarith [hp.1, hp.2]

end Scores

-- ==== the evaluation

section Evaluation

variable {probabilities : List ℚ} {outcomes : List Int}

theorem fmean_ok {values : List ℚ} (h : values ≠ []) :
    fmean values = .ok (values.sum / values.length) :=
  if_neg h

variable (platform : Platform) (hlength : probabilities.length = outcomes.length)

include hlength in
/-- The scores of `_evaluate`, written out. -/
theorem scoresOf_ok (hne : probabilities ≠ []) (hp : ∀ p ∈ probabilities, 0 ≤ p) :
    ∃ scores, scoresOf platform probabilities outcomes = .ok scores
      ∧ reliabilityBins probabilities outcomes 10 = .ok scores.bins
      ∧ scores.bins = (filledOf 10 (probabilities.zip outcomes)).map report
      ∧ scores.brier = ((probabilities.zip outcomes).map fun pair =>
          (pair.1 - outcomeOf pair) ^ 2).sum / outcomes.length
      ∧ scores.ece = (scores.bins.map fun bin =>
          (bin.count : ℚ) / outcomes.length * |bin.error|).sum
      ∧ scores.reliability = (scores.bins.map fun bin =>
          (bin.count : ℚ) / outcomes.length * bin.error ^ 2).sum := by
  have hzip : (probabilities.zip outcomes).length = outcomes.length := by
    rw [length_zip, hlength, min_self]
  have hpairs {β : Type} (f : ℚ × Int → β) : (probabilities.zip outcomes).map f ≠ [] := by
    intro hnil
    have := congrArg List.length hnil
    rw [length_map, hzip, ← hlength] at this
    exact hne (length_eq_zero_iff.mp this)
  have hten : 0 < 10 := by decide
  have hbins := reliabilityBins_ok hlength hten hp
  have hloss : ∃ loss, logLoss platform probabilities outcomes = .ok loss :=
    ⟨_, fmean_ok (hpairs _)⟩
  obtain ⟨loss, hloss⟩ := hloss
  have hbrier := fmean_ok (hpairs fun pair => (pair.1 - pair.2) ^ 2)
  rw [length_map, hzip] at hbrier
  unfold scoresOf
  rw [hbrier, hloss, hbins]
  exact ⟨_, rfl, rfl, rfl, rfl, rfl, rfl⟩

include hlength in
theorem zip_fst : ((probabilities.zip outcomes).map (·.1)) = probabilities :=
  map_fst_zip hlength.le

include hlength in
theorem zip_outcomeOf :
    (probabilities.zip outcomes).map outcomeOf = outcomes.map fun y : Int => (y : ℚ) := by
  have hsnd := map_snd_zip hlength.ge
  rw [← congrArg (List.map fun y : Int => (y : ℚ)) hsnd, map_map]
  rfl

include hlength in
/-- The scores of probabilities and binary outcomes, in order. -/
theorem scoresOf_ordered (hne : probabilities ≠ []) (hunit : ∀ p ∈ probabilities, 0 ≤ p ∧ p ≤ 1)
    (hbinary : ∀ y ∈ outcomes, y = 0 ∨ y = 1) :
    ∃ scores, scoresOf platform probabilities outcomes = .ok scores
      ∧ reliabilityBins probabilities outcomes 10 = .ok scores.bins
      ∧ 0 ≤ scores.ece ^ 2 ∧ scores.ece ^ 2 ≤ scores.reliability
      ∧ scores.reliability ≤ scores.brier ∧ scores.brier ≤ 1 := by
  have hp : ∀ p ∈ probabilities, 0 ≤ p := fun p h => (hunit p h).1
  have hpairs : ∀ pair ∈ probabilities.zip outcomes, 0 ≤ pair.1 := fun pair h =>
    hp _ (of_mem_zip h).1
  obtain ⟨scores, hscores, hbins, hreports, hbrier, hece, hreliability⟩ :=
    scoresOf_ok platform hlength hne hp
  have hn : (0 : ℚ) < outcomes.length := by
    rw [← hlength]
    exact_mod_cast length_pos_iff.mpr hne
  have hzip : (probabilities.zip outcomes).length = outcomes.length := by
    rw [length_zip, hlength, min_self]
  refine ⟨scores, hscores, hbins, sq_nonneg _, ?_, ?_, ?_⟩
  · have hten : 0 < 10 := by decide
    have hcounts := sum_count hten hpairs
    rw [← hreports, hzip] at hcounts
    rw [hece, hreliability]
    refine ece_sq_le hn ?_
    rw [← hcounts, Nat.cast_list_sum, map_map]
    rfl
  · have hweighed : (scores.bins.map fun bin =>
        (bin.count : ℚ) / outcomes.length * bin.error ^ 2) = scores.bins.map fun bin =>
            (bin.count : ℚ) * bin.error ^ 2 / outcomes.length :=
      map_congr_left fun bin _ => div_mul_eq_mul_div _ _ _
    rw [hreliability, hbrier, hweighed, sum_map_div, hreports]
    exact div_le_div_of_nonneg_right (sum_sq_error_le (by decide) hpairs) hn.le
  · rw [hbrier, div_le_one hn]
    have hsum := sum_le_card_nsmul
      ((probabilities.zip outcomes).map fun pair => (pair.1 - outcomeOf pair) ^ 2) 1
      fun y hy => by
        obtain ⟨pair, hpair, rfl⟩ := mem_map.mp hy
        have hmem := of_mem_zip hpair
        exact sq_error_le_one (hunit _ hmem.1) (hbinary _ hmem.2)
    rwa [length_map, hzip, nsmul_one] at hsum

theorem reliabilityBins_partition {count : Nat} (hcount : 0 < count)
    (hlength : probabilities.length = outcomes.length) (hp : ∀ p ∈ probabilities, 0 ≤ p) :
    ∃ buckets bins, fillBuckets count (probabilities.zip outcomes) = .ok buckets
      ∧ buckets.length = count ∧ buckets.flatten.Perm (probabilities.zip outcomes)
      ∧ reliabilityBins probabilities outcomes count = .ok bins
      ∧ bins.map (·.count) = (buckets.filter (· ≠ [])).map List.length
      ∧ (bins.map (·.count)).sum = outcomes.length
      ∧ (bins.map fun bin => (bin.count : ℚ) * bin.predicted).sum / outcomes.length
        = probabilities.sum / outcomes.length
      ∧ (bins.map fun bin => (bin.count : ℚ) * bin.observed).sum / outcomes.length
        = (outcomes.map fun y : Int => (y : ℚ)).sum / outcomes.length := by
  have hpairs : ∀ pair ∈ probabilities.zip outcomes, 0 ≤ pair.1 := fun pair h =>
    hp _ (of_mem_zip h).1
  refine ⟨_, _, fillBuckets_ok hcount hpairs, ?_, bucketsOf_perm hcount hpairs,
    reliabilityBins_ok hlength hcount hp, ?_, ?_, ?_, ?_⟩
  · rw [bucketsOf, length_map, length_range]
  · rw [map_map]
    rfl
  · rw [sum_count hcount hpairs, length_zip, hlength, min_self]
  · rw [sum_report (f := (·.1)) (fun _ => rfl) hcount hpairs, zip_fst hlength]
  · rw [sum_report (f := outcomeOf) (fun _ => rfl) hcount hpairs, zip_outcomeOf hlength]

/-- `_evaluate` of observations with these predictions and outcomes. -/
theorem evaluate_ok {scores : Scores}
    (hscores : scoresOf platform probabilities outcomes = .ok scores)
    (partition : CalibrationPartition) {observations : List CalibrationObservation}
    {predict : Predictor}
    (hpredict : observations.mapM (fun item => predict item.score) = .ok probabilities)
    (houtcomes : observations.map (·.outcome) = outcomes)
    (hids : (observations.map (·.observationId)).Nodup) :
    ∃ evaluation, evaluate platform partition observations predict = .ok evaluation
      ∧ evaluation.scores = scores := by
  have hsorted : sortBy id (observations.map (·.observationId))
      = sortedDistinct (sortBy id (observations.map (·.observationId))) := by
    refine (sortedDistinct_of_pairwise ?_).symm
    have hnodup := (sortBy_perm id (observations.map (·.observationId))).nodup_iff.mpr hids
    exact (sortBy_pairwise id _).imp₂ (fun _ _ hle hne => lt_of_le_of_ne hle hne) hnodup
  unfold evaluate
  rw [hpredict, ok_bind, houtcomes, hscores, ok_bind, dif_pos hsorted]
  exact ⟨_, rfl, rfl⟩

/-- Every probability finds its bucket, the buckets part the observations and show
their means, and the scores are ordered. -/
theorem evaluation_consistent (platform : Platform) (probabilities : List ℚ) (outcomes : List Int)
    (hlength : probabilities.length = outcomes.length) (hne : probabilities ≠ [])
    (hunit : ∀ p ∈ probabilities, 0 ≤ p ∧ p ≤ 1) (hbinary : ∀ y ∈ outcomes, y = 0 ∨ y = 1) :
    (∀ count, 0 < count →
      ∃ buckets bins, fillBuckets count (probabilities.zip outcomes) = .ok buckets
        ∧ buckets.length = count ∧ buckets.flatten.Perm (probabilities.zip outcomes)
        ∧ reliabilityBins probabilities outcomes count = .ok bins
        ∧ bins.map (·.count) = (buckets.filter (· ≠ [])).map List.length
        ∧ (bins.map (·.count)).sum = outcomes.length
        ∧ (bins.map fun bin => (bin.count : ℚ) * bin.predicted).sum / outcomes.length
          = probabilities.sum / outcomes.length
        ∧ (bins.map fun bin => (bin.count : ℚ) * bin.observed).sum / outcomes.length
          = (outcomes.map fun y : Int => (y : ℚ)).sum / outcomes.length)
      ∧ ∃ scores, scoresOf platform probabilities outcomes = .ok scores
        ∧ reliabilityBins probabilities outcomes 10 = .ok scores.bins
        ∧ (0 ≤ scores.ece ^ 2 ∧ scores.ece ^ 2 ≤ scores.reliability
          ∧ scores.reliability ≤ scores.brier ∧ scores.brier ≤ 1)
        ∧ ∀ partition observations predict,
          observations.mapM (fun item : CalibrationObservation => predict item.score)
            = .ok probabilities → observations.map (·.outcome) = outcomes →
          (observations.map (·.observationId)).Nodup →
          ∃ evaluation, evaluate platform partition observations predict = .ok evaluation
            ∧ evaluation.scores = scores := by
  refine ⟨fun count hcount => reliabilityBins_partition hcount hlength fun p h => (hunit p h).1, ?_⟩
  obtain ⟨scores, hscores, hbins, hordered⟩ := scoresOf_ordered platform hlength hne hunit hbinary
  exact ⟨scores, hscores, hbins, hordered, fun partition _ _ hpredict houtcomes hids =>
    evaluate_ok platform hscores partition hpredict houtcomes hids⟩

end Evaluation

section Sample

theorem evaluation_consistent_two : (1 : ℚ) ∈ [(1 : ℚ), 1 / 4]
      ∧ ∃ scores, scoresOf ⟨id, id⟩ [1, 1 / 4] [1, 0] = .ok scores
        ∧ scores.ece ^ 2 ≤ scores.reliability ∧ scores.brier ≤ 1 := by
  have h := evaluation_consistent ⟨id, id⟩ [1, 1 / 4] [1, 0] rfl (cons_ne_nil _ _)
    (by decide +kernel) (by decide)
  obtain ⟨-, scores, hscores, -, ⟨-, hece, -, hbrier⟩, -⟩ := h
  exact ⟨by simp, scores, hscores, hece, hbrier⟩

end Sample

end MarketRegimeAlpha.ResearchValidation.Calibration
