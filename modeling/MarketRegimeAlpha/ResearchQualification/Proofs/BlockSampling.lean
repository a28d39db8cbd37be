/-
The paired block bootstrap: what a draw resamples and where the interval
lies.

# A draw

With five days and more in every fold each draw fills every fold with whole
blocks, cut to the length of the fold (`resample_ok`); without an empty day
its denominator is positive, so the draw is a ratio of sums and lies between
the smallest and the largest daily mean (`draw_ok`). The interval is two of a
thousand such draws in their order.
-/
import Mathlib.Algebra.BigOperators.Ring.Finset
import Mathlib.Data.Set.Finite.Lemmas
import MarketRegimeAlpha.ResearchQualification.BlockBootstrap

namespace MarketRegimeAlpha.ResearchQualification

open Lib List

-- ==== the folds

section Folds

variable {K : Type _} {points points' : List (DailyPoint K)} {fold : Nat × List (Int × K)}

theorem rows_of_fold (h : fold ∈ dailyFolds points) :
    fold.2 = ((sortBy (·.key) points).filter (·.fold = fold.1)).map
      fun point => (point.observations, point.total) := by
  unfold dailyFolds at h
  rw [groupBy_eq, map_map] at h
  obtain ⟨id, -, rfl⟩ := mem_map.mp h
  rfl

theorem exists_point_of_row (h : fold ∈ dailyFolds points) {row : Int × K} (hrow : row ∈ fold.2) :
    ∃ point ∈ points, (point.observations, point.total) = row := by
  rw [rows_of_fold h] at hrow
  obtain ⟨point, hpoint, heq⟩ := mem_map.mp hrow
  exact ⟨point, (sortBy_perm _ points).mem_iff.mp (mem_of_mem_filter hpoint), heq⟩

theorem dailyFolds_eq_of_perm (hkeys : (points.map (·.key)).Nodup)
    (h : points'.Perm points) : dailyFolds points' = dailyFolds points := by
  unfold dailyFolds
  rw [sortBy_eq_of_perm h.symm hkeys]

theorem notEstimableReason_eq_of_perm (hkeys : (points.map (·.key)).Nodup)
    (h : points'.Perm points) (calendarVerified : Bool) :
    notEstimableReason points' calendarVerified = notEstimableReason points calendarVerified := by
  have hempty : (∃ point ∈ points', point.observations = 0)
      ↔ ∃ point ∈ points, point.observations = 0 := by
    simp only [h.mem_iff]
  unfold notEstimableReason
  rw [dailyFolds_eq_of_perm hkeys h]
  simp only [hempty]

/-- What the points are when no condition fails. -/
structure Estimable (points : List (DailyPoint K)) : Prop where
  nonempty : ∀ point ∈ points, point.observations ≠ 0
  folds : dailyFolds points ≠ []
  long : ∀ fold ∈ dailyFolds points, 5 ≤ fold.2.length

theorem estimable_of_reason {calendarVerified : Bool}
    (h : notEstimableReason points calendarVerified = none) : Estimable points := by
  unfold notEstimableReason at h
  by_cases hempty : ∃ point ∈ points, point.observations = 0
  · rw [if_pos hempty] at h
    cases h
  · rw [if_neg hempty] at h
    by_cases hshort : dailyFolds points = [] ∨ effectiveBlocks (dailyFolds points) < 10
        ∨ ∃ fold ∈ dailyFolds points, fold.2.length < 5
    · rw [if_pos hshort] at h
      cases h
    · constructor
      case nonempty => exact fun point hpoint hzero => hempty ⟨point, hpoint, hzero⟩
      case folds => exact fun hnil => hshort (.inl hnil)
      case long =>
        intro fold hfold
        by_contra hlt
        exact hshort (.inr (.inr ⟨fold, hfold, not_le.mp hlt⟩))

end Folds

-- ==== one draw

section Draws

variable {σ K : Type _}

theorem resample_ok (source : Random σ) {folds : List (Nat × List (Int × K))}
    (h : ∀ fold ∈ folds, 5 ≤ fold.2.length) (rng : σ) :
    ∃ sampled rng', resample source folds rng = .ok (sampled, rng')
      ∧ List.Forall₂ (fun fold chosen => Resampled 4 fold.2 chosen) folds
          sampled := by
  induction folds generalizing rng with
  | nil => exact ⟨[], rng, rfl, .nil⟩
  | cons fold folds ih =>
    obtain ⟨id, rows⟩ := fold
    have hrows : 5 ≤ rows.length := h (id, rows) mem_cons_self
    obtain ⟨chosen, rng₁, hfill, hchosen⟩ :=
      fillBlocks_resampled source (show 4 < rows.length by omega) rng
    obtain ⟨sampled, rng₂, hrest, hsampled⟩ :=
      ih (fun fold hfold => h fold (mem_cons_of_mem _ hfold)) rng₁
    refine ⟨chosen.take rows.length :: sampled, rng₂, ?_, .cons hchosen hsampled⟩
    unfold resample
    rw [hfill, ok_bind]
    dsimp only
    rw [hrest, ok_bind]
    rfl

variable {points : List (DailyPoint K)} {sampled : List (List (Int × K))}

theorem exists_point_of_sampled (h : List.Forall₂ (fun fold chosen => Resampled 4 fold.2 chosen)
      (dailyFolds points) sampled) {row : Int × K} (hrow : row ∈ sampled.flatten) :
    ∃ point ∈ points, (point.observations, point.total) = row := by
  obtain ⟨chosen, hchosen, hrow⟩ := mem_flatten.mp hrow
  obtain ⟨fold, hfold, hsample⟩ := forall₂_right h hchosen
  exact exists_point_of_row hfold (hsample.subset hrow)

theorem flatten_ne_nil (hpoints : Estimable points)
    (h : List.Forall₂ (fun fold chosen => Resampled 4 fold.2 chosen) (dailyFolds points) sampled) :
    sampled.flatten ≠ [] := by
  obtain ⟨fold, hfold⟩ := exists_mem_of_ne_nil _ hpoints.folds
  obtain ⟨chosen, hchosen, hsample⟩ := forall₂_left h hfold
  have hlong := hpoints.long fold hfold
  intro hnil
  have hempty := flatten_eq_nil_iff.mp hnil chosen hchosen
  have hlength := hsample.1
  rw [hempty, length_nil] at hlength
  omega

theorem observations_pos (hpoints : Estimable points)
    (hcount : ∀ point ∈ points, 0 ≤ point.observations)
    (h : List.Forall₂ (fun fold chosen => Resampled 4 fold.2 chosen) (dailyFolds points) sampled) :
    ∀ row ∈ sampled.flatten, 0 < row.1 := by
  intro row hrow
  obtain ⟨point, hpoint, rfl⟩ := exists_point_of_sampled h hrow
  exact lt_of_le_of_ne (hcount point hpoint) (hpoints.nonempty point hpoint).symm

variable [Field K]

def DailyPoint.mean (point : DailyPoint K) : K := point.total / point.observations

variable [LinearOrder K] [IsStrictOrderedRing K] {low high : K}

/-- A draw is between bounds of the daily means. -/
theorem draw_ok (source : Random σ) (root : K → K) (power : K → K → K) (hpoints : Estimable points)
    (hcount : ∀ point ∈ points, 0 ≤ point.observations) (hlow : ∀ point ∈ points, low ≤ point.mean)
    (hhigh : ∀ point ∈ points, point.mean ≤ high) (rng : σ) :
    ∃ value rng', draw source (.exact root power) (dailyFolds points) rng
        = .ok (value, rng') ∧ low ≤ value ∧ value ≤ high := by
  obtain ⟨sampled, rng', hsample, hsampled⟩ := resample_ok source hpoints.long rng
  have hpos : ∀ row ∈ sampled.flatten, (0 : K) < (row.1 : K) := fun row hrow =>
    Int.cast_pos.mpr (observations_pos hpoints hcount hsampled row hrow)
  have hne := flatten_ne_nil hpoints hsampled
  have hcast : (((sampled.flatten.map (·.1)).sum : Int) : K)
      = (sampled.flatten.map fun row => (row.1 : K)).sum := by
    rw [Int.cast_list_sum, map_map]
    rfl
  have hdenominator : (((sampled.flatten.map (·.1)).sum : Int) : K) ≠ 0 := by
    rw [hcast]
    exact (sum_pos_of_pos hpos hne).ne'
  refine ⟨(sampled.flatten.map (·.2)).sum
    / (sampled.flatten.map fun row => (row.1 : K)).sum, rng', ?_, ?_, ?_⟩
  case refine_1 =>
    unfold draw
    rw [hsample, ok_bind]
    dsimp only
    rw [Arithmetic.quotient_ok hdenominator, Arithmetic.exact_sum, Arithmetic.exact_round, hcast]
    rfl
  case refine_2 =>
    apply le_ratio_of_sums hpos hne
    intro row hrow
    obtain ⟨point, hpoint, rfl⟩ := exists_point_of_sampled hsampled hrow
    exact hlow point hpoint
  case refine_3 =>
    apply ratio_of_sums_le hpos hne
    intro row hrow
    obtain ⟨point, hpoint, rfl⟩ := exists_point_of_sampled hsampled hrow
    exact hhigh point hpoint

theorem draws_ok (source : Random σ) (root : K → K) (power : K → K → K) (hpoints : Estimable points)
    (hcount : ∀ point ∈ points, 0 ≤ point.observations) (hlow : ∀ point ∈ points, low ≤ point.mean)
    (hhigh : ∀ point ∈ points, point.mean ≤ high) (count : Nat) (rng : σ) :
    ∃ values, draws source (.exact root power) (dailyFolds points) count rng
        = .ok values ∧ values.length = count
      ∧ ∀ value ∈ values, low ≤ value ∧ value ≤ high := by
  induction count generalizing rng with
  | zero =>
    refine ⟨[], rfl, rfl, ?_⟩
    intro value hvalue
    cases hvalue
  | succ count ih =>
    obtain ⟨value, rng₁, hdraw, hbounds⟩ := draw_ok source root power hpoints hcount hlow hhigh rng
    obtain ⟨values, hvalues, hlength, hall⟩ := ih rng₁
    refine ⟨value :: values, ?_, by rw [length_cons, hlength], ?_⟩
    · unfold draws
      rw [hdraw, ok_bind]
      dsimp only
      rw [hvalues, ok_bind]
      rfl
    · intro x hx
      rcases mem_cons.mp hx with rfl | hx
      · exact hbounds
      · exact hall x hx

end Draws

-- ==== the interval

section Interval

variable {σ K : Type _} [Field K] [LinearOrder K] (source : Random σ) (root : K → K)
  (power : K → K → K) {points : List (DailyPoint K)}

theorem exists_extreme_means (hne : points ≠ []) :
    (∃ least ∈ points, ∀ point ∈ points, least.mean ≤ point.mean)
      ∧ ∃ most ∈ points, ∀ point ∈ points, point.mean ≤ most.mean := by
  obtain ⟨point, hpoint⟩ := exists_mem_of_ne_nil _ hne
  have hfinite : {p | p ∈ points}.Finite := finite_toSet points
  exact ⟨Set.exists_min_image _ DailyPoint.mean hfinite ⟨point, hpoint⟩,
    Set.exists_max_image _ DailyPoint.mean hfinite ⟨point, hpoint⟩⟩

variable [IsStrictOrderedRing K]

/-- An interval of draws that are all between two bounds. -/
theorem interval_ok {calendarVerified : Bool} (hkeys : (points.map (·.key)).Nodup)
    (hcount : ∀ point ∈ points, 0 ≤ point.observations)
    (hreason : notEstimableReason points calendarVerified = none) {low high : K}
    (hlow : ∀ point ∈ points, low ≤ point.mean) (hhigh : ∀ point ∈ points, point.mean ≤ high) :
    ∃ report lower upper, pairedBlockUncertainty source (.exact root power) points calendarVerified
          = .ok report
        ∧ report.state = "DESCRIPTIVE_DEPENDENCE_AWARE_INTERVAL"
        ∧ report.lower = some lower ∧ report.upper = some upper
        ∧ low ≤ lower ∧ lower ≤ upper ∧ upper ≤ high := by
  have hpoints := estimable_of_reason hreason
  obtain ⟨values, hvalues, hlength, hall⟩ := draws_ok source root power hpoints
    hcount hlow hhigh 1000 (source.seeded 18)
  have hperm := sortBy_perm id values
  have hsorted := hperm.length_eq.trans hlength
  have hlower : 24 < (sortBy id values).length := by omega
  have hupper : 974 < (sortBy id values).length := by omega
  have hmem : ∀ value ∈ sortBy id values, low ≤ value ∧ value ≤ high :=
    fun value hvalue => hall value (hperm.mem_iff.mp hvalue)
  have hle := pairwise_iff_getElem.mp (sortBy_pairwise id values) 24 974
    hlower hupper (by decide)
  refine ⟨{ blockPolicy points "PREDECLARED_BLOCK_RESAMPLING" with
      state := "DESCRIPTIVE_DEPENDENCE_AWARE_INTERVAL"
      lower := (sortBy id values)[24]?
      upper := (sortBy id values)[974]?
      multipleTestingAdjustment := some "NONE; ALL_CANDIDATES_REPORTED" },
    (sortBy id values)[24], (sortBy id values)[974], ?_, rfl,
    getElem?_eq_getElem hlower, getElem?_eq_getElem hupper,
    (hmem _ (getElem_mem hlower)).1, hle,
    (hmem _ (getElem_mem hupper)).2⟩
  unfold pairedBlockUncertainty
  rw [require_true ⟨hkeys, hcount⟩, ok_bind, hreason]
  rw [hvalues, ok_bind]
  rfl

/-- Accepted points have one result in whatever order they are given: the
reason why there is no interval, or an interval. Then every draw resamples each
fold, from its days in the order of their dates, in runs of five days of which
the last may be cut short, as many days as the fold has; its denominator is
positive; and the interval is not empty and lies between the smallest and the
largest daily mean. -/
theorem block_bootstrap_sound (points : List (DailyPoint K)) (calendarVerified : Bool)
    (hkeys : (points.map (·.key)).Nodup) (hcount : ∀ point ∈ points, 0 ≤ point.observations) :
    (∀ points', points'.Perm points →
      pairedBlockUncertainty source (.exact root power) points' calendarVerified
        = pairedBlockUncertainty source (.exact root power) points calendarVerified)
    ∧ (∀ reason, notEstimableReason points calendarVerified = some reason →
        pairedBlockUncertainty source (.exact root power) points calendarVerified
          = .ok (blockPolicy points reason))
    ∧ (notEstimableReason points calendarVerified = none → (∀ rng, ∃ sampled rng',
          resample source (dailyFolds points) rng = .ok (sampled, rng')
            ∧ List.Forall₂ (fun fold chosen => Resampled 4 fold.2 chosen)
                (dailyFolds points) sampled
            ∧ 0 < (sampled.flatten.map (·.1)).sum)
        ∧ (∀ fold ∈ dailyFolds points, fold.2
            = ((sortBy (·.key) points).filter (·.fold = fold.1)).map
                fun point => (point.observations, point.total))
        ∧ ∃ report lower upper, pairedBlockUncertainty source (.exact root power) points
                calendarVerified = .ok report
              ∧ report.state = "DESCRIPTIVE_DEPENDENCE_AWARE_INTERVAL"
              ∧ report.lower = some lower ∧ report.upper = some upper
              ∧ lower ≤ upper ∧ (∃ point ∈ points, point.mean ≤ lower)
              ∧ ∃ point ∈ points, upper ≤ point.mean) := by
  refine ⟨?_, ?_, ?_⟩
  case refine_1 =>
    intro points' hperm
    have hkeys' : (points'.map (·.key)).Nodup := (hperm.map _).nodup_iff.mpr hkeys
    have hcount' : ∀ point ∈ points', 0 ≤ point.observations :=
      fun point hpoint => hcount point (hperm.mem_iff.mp hpoint)
    have hpolicy : ∀ reason, blockPolicy points' reason = blockPolicy points reason := by
      intro reason
      unfold blockPolicy
      rw [dailyFolds_eq_of_perm hkeys hperm, hperm.length_eq, hperm.countP_eq]
    unfold pairedBlockUncertainty
    rw [require_true ⟨hkeys', hcount'⟩, require_true ⟨hkeys, hcount⟩,
      notEstimableReason_eq_of_perm hkeys hperm, dailyFolds_eq_of_perm hkeys hperm]
    simp only [hpolicy]
  case refine_2 =>
    intro reason hreason
    unfold pairedBlockUncertainty
    rw [require_true ⟨hkeys, hcount⟩, ok_bind, hreason]
    rfl
  case refine_3 =>
    intro hreason
    have hpoints := estimable_of_reason hreason
    refine ⟨?_, fun fold hfold => rows_of_fold hfold, ?_⟩
    case refine_1 =>
      intro rng
      obtain ⟨sampled, rng', hsample, hsampled⟩ := resample_ok source hpoints.long rng
      exact ⟨sampled, rng', hsample, hsampled, sum_pos_of_pos
        (observations_pos hpoints hcount hsampled) (flatten_ne_nil hpoints hsampled)⟩
    case refine_2 =>
      have hne : points ≠ [] := by
        intro hnil
        apply hpoints.folds
        rw [hnil]
        rfl
      obtain ⟨⟨least, hleast, hlow⟩, most, hmost, hhigh⟩ := exists_extreme_means hne
      obtain ⟨report, lower, upper, hreport, hstate, hlower, hupper, hfirst, hle,
        hlast⟩ := interval_ok source root power hkeys hcount hreason hlow hhigh
      exact ⟨report, lower, upper, hreport, hstate, hlower, hupper, hle,
        ⟨least, hleast, hfirst⟩, ⟨most, hmost, hlast⟩⟩

def counting : Random Nat where
  seeded := id
  next rng n := (rng % n, rng + 1)
  inRange _ _ h := Nat.mod_lt _ h

def fiftyDays : List (DailyPoint ℚ) := (List.range 50).map fun day => ⟨1, day, 1, day⟩

theorem block_bootstrap_sound_fifty : ∃ report lower upper,
    pairedBlockUncertainty counting (.exact id fun x _ => x) fiftyDays true = .ok report
      ∧ report.state = "DESCRIPTIVE_DEPENDENCE_AWARE_INTERVAL"
      ∧ report.lower = some lower ∧ report.upper = some upper
      ∧ lower ≤ upper ∧ (∃ point ∈ fiftyDays, point.mean ≤ lower)
      ∧ ∃ point ∈ fiftyDays, upper ≤ point.mean :=
  ((block_bootstrap_sound counting id (fun x _ => x) fiftyDays true
    (by decide +kernel) (by decide +kernel)).2.2 (by decide +kernel)).2.2

end Interval

end MarketRegimeAlpha.ResearchQualification
