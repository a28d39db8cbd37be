/-
Pooled and per-session error metrics in exact arithmetic.

# The argument

In exact arithmetic a cell is three averages over its pairs and a line of
least squares (`errorCell_exact`). The pairs of all sessions are the pairs of
the sessions one after the other, so each pooled average is that of the session
averages under their counts (`pooledOf_exact`); a session without pairs has no
averages and counts nothing. Inside a cell the averages are ordered by the
triangle and the Cauchy-Schwarz inequality.
-/
import Mathlib.Analysis.Real.Sqrt
import MarketRegimeAlpha.Lib.Averages
import MarketRegimeAlpha.ResearchQualification.ErrorCells

namespace MarketRegimeAlpha.ResearchQualification

open Lib List

-- ==== in the context

def validityContext : DecimalContext := ⟨decimalPrecision, .roundHalfEven⟩

def cellOf (metrics : PairMetrics) : ErrorCell ℚ where
  count := metrics.bias.denominator
  bias := metrics.bias.value
  mae := metrics.mae.value
  rmse := metrics.rmse.value
  slope := metrics.calibrationSlope.value
  intercept := metrics.calibrationIntercept.value

def sessionCells (report : SessionReport) : RoleCells ℚ :=
  ⟨cellOf report.model.toPairMetrics, cellOf report.baseline.toPairMetrics⟩

/-- The cells of a report. -/
def errorsOf (report : ValidityReport) : ErrorReport ℚ where
  perSession := report.perSession.map fun row => sessionCells row.toSessionReport
  pooled := ⟨cellOf report.aggregate.pooled.model, cellOf report.aggregate.pooled.baseline⟩
  rolling := report.rolling.map fun entry =>
    ⟨cellOf entry.aggregate.pooled.model, cellOf entry.aggregate.pooled.baseline⟩

section Context

variable (power : ℚ → ℚ → ℚ)

theorem context_round : (validityContext.arithmetic power).round = decimal := rfl

theorem context_sum : (validityContext.arithmetic power).sum = decimalSum := rfl

theorem context_square : (validityContext.arithmetic power).square = square := rfl

theorem context_root : (validityContext.arithmetic power).root = squareRoot := rfl

theorem calibrated_context (points : List (ℚ × ℚ)) :
    ((calibrated (validityContext.arithmetic power) points).map (·.1),
      (calibrated (validityContext.arithmetic power) points).map (·.2))
      = ((calibration (points.map (·.1)) (points.map (·.2))).1,
        (calibration (points.map (·.1)) (points.map (·.2))).2.1) := by
  have hzip : (points.map (·.1)).zip (points.map (·.2)) = points := by
    rw [zip_map', map_id'']
    exact fun _ => rfl
  have hxx : ∀ xmean, (points.map (·.1)).map (fun value =>
        square (decimal (value - xmean)))
      = points.map fun p => square (decimal (p.1 - xmean)) := by
    intro xmean
    rw [map_map]
    rfl
  unfold calibrated calibration
  simp only [context_round, context_sum, context_square, length_map, hxx, hzip]
  by_cases hfew : points.length < 3
  · simp only [hfew, if_true, Option.map_none]
  · simp only [hfew, if_false]
    split
    next hzero => simp only [hzero, if_true, Option.map_none]
    next hzero => simp only [hzero, if_false, Option.map_some]

theorem errorCell_context (role : ValidityPair → ℚ) (members : List ValidityPair) :
    errorCell (validityContext.arithmetic power) (forecastPairs ℚ role members)
      = cellOf (pairMetrics (members.map role) (members.map (·.label))) := by
  have hpoints : forecastPairs ℚ role members
      = members.map fun pair => (role pair, pair.label) := rfl
  have hfirst : (members.map fun pair => (role pair, pair.label)).map (·.1) = members.map role := by
    rw [map_map]
    rfl
  have hsecond : (members.map fun pair => (role pair, pair.label)).map (·.2)
      = members.map (·.label) := by
    rw [map_map]
    rfl
  have hzip : (members.map role).zip (members.map (·.label))
      = members.map fun pair => (role pair, pair.label) := zip_map'
  have hline := calibrated_context power (members.map fun pair => (role pair, pair.label))
  rw [hfirst, hsecond] at hline
  obtain ⟨hslope, hintercept⟩ := Prod.mk.inj hline
  rw [hpoints]
  unfold errorCell cellOf pairMetrics
  rw [hslope, hintercept]
  simp only [formula, formulaMinimum, evaluateFormula, hzip, predictive]
  cases members with
  | nil => rfl
  | cons member members =>
    simp [metric, estimated, roundedMean, forecastErrors, mean, context_round,
      context_sum, context_root]

theorem roleCells_context (members : List ValidityPair) :
    roleCells (validityContext.arithmetic power) members
      = ⟨cellOf (pairMetrics (members.map (·.model)) (members.map (·.label))),
        cellOf (pairMetrics (members.map (·.baseline)) (members.map (·.label)))⟩ := by
  unfold roleCells
  rw [errorCell_context, errorCell_context]

theorem map_accumulate {α : Type} (f : SessionReport → α) (count : Nat)
    (reports : List SessionReport) :
    (accumulate count reports).map (fun row => f row.toSessionReport) = reports.map f := by
  induction reports generalizing count with
  | nil => rfl
  | cons report reports ih =>
    unfold accumulate
    rw [map_cons, ih, map_cons]

/-- In the context of the validity statistics the cells are those of their
report. -/
theorem errorReport_context (pairs : List ValidityPair)
    (parameters : ValidityParameters) (sessionRoster : Option (List Session)) :
    errorReport (validityContext.arithmetic power) pairs parameters sessionRoster
      = (validityStatistics pairs parameters sessionRoster).map errorsOf := by
  unfold errorReport validityStatistics
  cases validityChecks pairs parameters sessionRoster with
  | error raised => rfl
  | ok _ =>
    simp only [roleCells_context]
    apply congrArg Except.ok
    have hsessions : (validityReport pairs parameters sessionRoster).perSession.map
        (fun row => sessionCells row.toSessionReport) = _ :=
      (map_accumulate sessionCells 0 _).trans map_map
    have hrolling : (validityReport pairs parameters sessionRoster).rolling.map
        (fun entry => (⟨cellOf entry.aggregate.pooled.model,
          cellOf entry.aggregate.pooled.baseline⟩ : RoleCells ℚ))
        = _ := map_map
    unfold errorsOf
    rw [hsessions, hrolling]
    rfl

end Context

-- ==== in exact arithmetic

section Exact

variable {K : Type _} [Field K] [LinearOrder K] (root : K → K) (power : K → K → K)

def errorOf (p : K × K) : K := p.1 - p.2

variable (points : List (K × K))

theorem errorCell_exact : (errorCell (.exact root power) points).count = points.length
      ∧ (errorCell (.exact root power) points).bias = averageOf errorOf points
      ∧ (errorCell (.exact root power) points).mae = averageOf (fun p => |errorOf p|) points
      ∧ (errorCell (.exact root power) points).rmse
        = (averageOf (fun p => errorOf p * errorOf p) points).map root := by
  have herrors : forecastErrors (.exact root power) points = points.map errorOf := rfl
  have hmean : ∀ f : K → K, roundedMean (.exact root power) ((points.map errorOf).map f)
      = (points.map fun p => f (errorOf p)).sum / points.length := by
    intro f
    unfold roundedMean
    rw [Arithmetic.exact_sum, Arithmetic.exact_round, map_map, length_map]
    rfl
  have hplain := hmean id
  rw [map_id] at hplain
  unfold errorCell averageOf
  rw [herrors]
  by_cases hnil : points = []
  · rw [hnil]
    exact ⟨rfl, rfl, rfl, rfl⟩
  · have hlength : points.length ≠ 0 := (length_pos_iff.mpr hnil).ne'
    simp only [hnil, hlength, if_false, Arithmetic.exact_round,
      Arithmetic.exact_root, hplain, hmean, Option.map_some, id_eq, and_self]

variable {root} [IsStrictOrderedRing K]

/-- `pooled` has the counts of the rows together, and their errors as means
under their counts. -/
structure PooledOf (rows : List (ErrorCell K)) (pooled : ErrorCell K) : Prop where
  count : pooled.count = (rows.map (·.count)).sum
  bias : pooled.bias = weightedMean (rows.map fun cell => (cell.count, cell.bias))
  mae : pooled.mae = weightedMean (rows.map fun cell => (cell.count, cell.mae))
  squares : pooled.rmse.map (fun r => r * r)
    = weightedMean (rows.map fun cell => (cell.count, cell.rmse.map fun r => r * r))

def IsRoot (root : K → K) : Prop := ∀ x, 0 ≤ x → 0 ≤ root x ∧ root x * root x = x

theorem average_squares_nonneg {x : K}
    (h : averageOf (fun p => errorOf p * errorOf p) points = some x) : 0 ≤ x := by
  unfold averageOf at h
  split at h
  next => cases h
  next =>
    rw [← Option.some.inj h]
    apply div_nonneg _ (Nat.cast_nonneg _)
    apply List.sum_nonneg
    intro y hy
    obtain ⟨p, -, rfl⟩ := mem_map.mp hy
    exact mul_self_nonneg _

theorem rmse_squared (hroot : IsRoot root) (points : List (K × K)) :
    (errorCell (.exact root power) points).rmse.map (fun r => r * r)
      = averageOf (fun p => errorOf p * errorOf p) points := by
  rw [(errorCell_exact root power points).2.2.2, Option.map_map]
  cases h : averageOf (fun p => errorOf p * errorOf p) points with
  | none => rfl
  | some x => exact congrArg some (hroot x (average_squares_nonneg points h)).2

theorem pooledOf_exact (hroot : IsRoot root) (groups : List (List (K × K))) :
    PooledOf (groups.map (errorCell (.exact root power)))
      (errorCell (.exact root power) groups.flatten) := by
  constructor
  case count =>
    rw [(errorCell_exact root power _).1, length_flatten, map_map]
    exact congrArg List.sum (map_congr_left fun points _ =>
      (errorCell_exact root power points).1.symm)
  case bias =>
    rw [(errorCell_exact root power _).2.1, ← weightedMean_groups, map_map]
    apply congrArg weightedMean
    apply map_congr_left
    intro points _
    exact Prod.ext (errorCell_exact root power points).1.symm (errorCell_exact root power points).2.1.symm
  case mae =>
    rw [(errorCell_exact root power _).2.2.1, ← weightedMean_groups, map_map]
    apply congrArg weightedMean
    apply map_congr_left
    intro points _
    exact Prod.ext (errorCell_exact root power points).1.symm (errorCell_exact root power points).2.2.1.symm
  case squares =>
    rw [rmse_squared power hroot, ← weightedMean_groups, map_map]
    apply congrArg weightedMean
    apply map_congr_left
    intro points _
    exact Prod.ext (errorCell_exact root power points).1.symm (rmse_squared power hroot points).symm

/-- What a cell says of its pairs: the errors where there are pairs, in their
order, and a line that satisfies the normal equations. -/
structure CellSound (points : List (K × K)) (cell : ErrorCell K) : Prop where
  count : cell.count = points.length
  empty : points = [] → cell.bias = none ∧ cell.mae = none ∧ cell.rmse = none
  estimable : points ≠ [] → ∃ bias mae rmse, cell.bias = some bias
    ∧ cell.mae = some mae ∧ cell.rmse = some rmse ∧ |bias| ≤ mae ∧ mae ≤ rmse
  line : ∀ slope intercept, cell.slope = some slope → cell.intercept = some intercept →
    (points.map fun p => p.2 - (intercept + slope * p.1)).sum = 0
      ∧ (points.map fun p => p.1 * (p.2 - (intercept + slope * p.1))).sum = 0

theorem calibrated_exact {slope intercept : K}
    (h : calibrated (.exact root power) points = some (slope, intercept)) :
    (points.map fun p => p.2 - (intercept + slope * p.1)).sum = 0
      ∧ (points.map fun p => p.1 * (p.2 - (intercept + slope * p.1))).sum = 0 := by
  unfold calibrated at h
  by_cases hfew : points.length < 3
  · rw [if_pos hfew] at h
    cases h
  · rw [if_neg hfew] at h
    simp only [Arithmetic.exact_round, Arithmetic.exact_sum, Arithmetic.exact_square] at h
    split at h
    next => cases h
    next hxx =>
      obtain ⟨hslope, hintercept⟩ := Prod.mk.inj (Option.some.inj h)
      rw [hslope] at hintercept
      have hlength : points.length ≠ 0 := by omega
      rw [← hintercept]
      exact normal_equations hlength rfl rfl hxx hslope.symm

/-- In exact arithmetic a cell says what its pairs are. -/
theorem cellSound_exact (hroot : IsRoot root) (points : List (K × K)) :
    CellSound points (errorCell (.exact root power) points) := by
  obtain ⟨hcount, hbias, hmae, hrmse⟩ := errorCell_exact root power points
  constructor
  case count => exact hcount
  case empty =>
    intro hnil
    rw [hbias, hmae, hrmse, hnil]
    exact ⟨rfl, rfl, rfl⟩
  case estimable =>
    intro hne
    have hlength : points.length ≠ 0 := (length_pos_iff.mpr hne).ne'
    have herrors : (points.map errorOf).length = points.length := length_map _
    have hsquares := average_squares_nonneg points
      (show averageOf (fun p => errorOf p * errorOf p) points = some _ from
        if_neg hlength)
    obtain ⟨hnonneg, hsquare⟩ := hroot _ hsquares
    have habs : (points.map errorOf).map (fun x => |x|)
        = points.map fun p => |errorOf p| := map_map
    have hsq : (points.map errorOf).map (fun x => x * x)
        = points.map fun p => errorOf p * errorOf p := map_map
    have hfirst := abs_average_le (points.map errorOf)
    have hsecond := sq_average_abs_le (l := points.map errorOf) (by rwa [herrors])
    have hpositive := sum_abs_nonneg (points.map errorOf)
    rw [herrors, habs] at hfirst
    rw [herrors, habs, hsq, ← hsquare] at hsecond
    rw [habs] at hpositive
    refine ⟨_, _, _, hbias.trans (if_neg hlength), hmae.trans (if_neg hlength),
      hrmse.trans (congrArg (Option.map root) (if_neg hlength)), hfirst, ?_⟩
    exact (mul_self_le_mul_self_iff (div_nonneg hpositive (Nat.cast_nonneg _)) hnonneg).mpr hsecond
  case line =>
    intro slope intercept hslope hintercept
    obtain ⟨⟨s, i⟩, hline, rfl⟩ := Option.map_eq_some_iff.mp hslope
    obtain ⟨line, hline', rfl⟩ := Option.map_eq_some_iff.mp hintercept
    rw [hline] at hline'
    obtain rfl := Option.some.inj hline'
    exact calibrated_exact power points hline

/-- Both cells of some pairs say what the pairs are. -/
def RolesSound (members : List ValidityPair) (cells : RoleCells K) : Prop :=
  CellSound (forecastPairs K (·.model) members) cells.model
    ∧ CellSound (forecastPairs K (·.baseline) members) cells.baseline

def RolesPooled (rows : List (RoleCells K)) (cells : RoleCells K) : Prop :=
  PooledOf (rows.map (·.model)) cells.model ∧ PooledOf (rows.map (·.baseline)) cells.baseline

theorem rolesSound_exact (hroot : IsRoot root) (members : List ValidityPair) :
    RolesSound members (roleCells (.exact root power) members) :=
  ⟨cellSound_exact power hroot _, cellSound_exact power hroot _⟩

theorem rolesPooled_exact (hroot : IsRoot root) (group : Session → List ValidityPair)
    (sessions : List Session) :
    RolesPooled (sessions.map fun session =>
        roleCells (.exact root power) (group session))
      (roleCells (.exact root power) (sessions.flatMap group)) := by
  have hpooled : ∀ role : ValidityPair → ℚ, PooledOf (sessions.map fun session =>
          errorCell (.exact root power) (forecastPairs K role (group session)))
        (errorCell (.exact root power) (forecastPairs K role (sessions.flatMap group))) := by
    intro role
    have h := pooledOf_exact power hroot
      (sessions.map fun session => forecastPairs K role (group session))
    have hflatten : (sessions.map fun session =>
        forecastPairs K role (group session)).flatten
          = forecastPairs K role (sessions.flatMap group) := by
      unfold forecastPairs
      rw [map_flatMap, flatMap_def]
    rw [map_map, hflatten] at h
    exact h
  unfold RolesPooled
  rw [map_map, map_map]
  exact ⟨hpooled (·.model), hpooled (·.baseline)⟩

end Exact

-- ==== the report

theorem flatMap_grouped_perm {pairs : List ValidityPair}
    {parameters : ValidityParameters} {sessionRoster : Option (List Session)}
    (h : validityChecks pairs parameters sessionRoster = .ok ()) :
    ((rosterOf pairs sessionRoster).flatMap (grouped pairs)).Perm pairs := by
  simp only [validityChecks, bind_ok, require_ok] at h
  obtain ⟨_, -, _, -, _, hordered, _, hsubset, -⟩ := h
  have hsessions : (rosterOf pairs sessionRoster).Nodup
      ∧ ∀ pair ∈ pairs, pair.session ∈ rosterOf pairs sessionRoster := by
    cases sessionRoster with
    | none =>
      refine ⟨(sortedDistinct_pairwise _).imp fun h => h.ne, ?_⟩
      intro pair hpair
      exact mem_sortedDistinct.mpr (mem_map_of_mem hpair)
    | some roster =>
      refine ⟨?_, hsubset roster rfl⟩
      rw [show rosterOf pairs (some roster) = sortedDistinct roster from
        hordered roster rfl]
      exact (sortedDistinct_pairwise _).imp fun h => h.ne
  have hgroups : ((rosterOf pairs sessionRoster).flatMap (grouped pairs)).Perm
      ((rosterOf pairs sessionRoster).flatMap fun session =>
        pairs.filter (·.session = session)) :=
    Perm.flatMap_left _ fun session _ => sortBy_perm _ _
  exact hgroups.trans (flatMap_filter_perm _ hsessions.1 hsessions.2)

/-- In exact arithmetic, of accepted pairs: the pooled errors of the report are
the means of the errors of its sessions under their counts, those of a window
the means over the sessions of the window, and the pairs of the sessions are
all pairs; and in every cell the bias is at most the mean absolute error, that
at most the root mean square error, and the calibration satisfies the normal
equations. -/
theorem pooled_error_statistics (pairs : List ValidityPair) (parameters : ValidityParameters)
    (sessionRoster : Option (List Session)) (power : ℝ → ℝ → ℝ)
    (haccepted : validityChecks pairs parameters sessionRoster = .ok ()) :
    ∃ report, errorReport (.exact Real.sqrt power) pairs parameters sessionRoster = .ok report
      ∧ ((rosterOf pairs sessionRoster).flatMap (grouped pairs)).Perm pairs
      ∧ RolesPooled report.perSession report.pooled
      ∧ RolesSound ((rosterOf pairs sessionRoster).flatMap (grouped pairs)) report.pooled
      ∧ List.Forall₂ (fun session cells => RolesSound (grouped pairs session) cells)
          (rosterOf pairs sessionRoster) report.perSession
      ∧ ∀ index cells, report.rolling[index]? = some cells →
          RolesPooled (window parameters.rollingSessions.toNat index report.perSession) cells
            ∧ RolesSound ((window parameters.rollingSessions.toNat index
                (rosterOf pairs sessionRoster)).flatMap (grouped pairs)) cells := by
  have hroot : IsRoot Real.sqrt := fun x hx => ⟨Real.sqrt_nonneg x, Real.mul_self_sqrt hx⟩
  refine ⟨_, by rw [errorReport, haccepted, ok_bind]; rfl,
    flatMap_grouped_perm haccepted, rolesPooled_exact power hroot _ _,
    rolesSound_exact power hroot _, ?_, ?_⟩
  case refine_1 =>
    rw [forall₂_map_right_iff, forall₂_same]
    exact fun session _ => rolesSound_exact power hroot _
  case refine_2 =>
    intro index cells hcells
    rw [getElem?_map] at hcells
    obtain ⟨⟨session, position⟩, hentry, rfl⟩ := Option.map_eq_some_iff.mp hcells
    rw [getElem?_zipIdx] at hentry
    obtain ⟨_, -, heq⟩ := Option.map_eq_some_iff.mp hentry
    obtain ⟨-, hposition⟩ := Prod.mk.inj heq
    rw [Nat.zero_add] at hposition
    subst hposition
    refine ⟨?_, rolesSound_exact power hroot _⟩
    have hpooled := rolesPooled_exact power hroot (grouped pairs)
      (window parameters.rollingSessions.toNat index (rosterOf pairs sessionRoster))
    unfold window at hpooled ⊢
    rwa [map_drop, map_take] at hpooled

def twoSessions : List ValidityPair :=
  [{ commitmentId := 1, session := 10, model := 2, baseline := 1, label := 3,
     instrumentId := some 1 },
   { commitmentId := 2, session := 10, model := 4, baseline := 1, label := 1,
     instrumentId := some 2 },
   { commitmentId := 1, session := 12, model := 7, baseline := 1, label := 5,
     instrumentId := none }]

/-- The pairs of two of three declared sessions. -/
theorem pooled_error_statistics_gap : ∃ report,
    errorReport (.exact Real.sqrt fun x _ => x) twoSessions ⟨1, 1, 2, 1, 2⟩
        (some [10, 11, 12]) = .ok report
      ∧ RolesPooled report.perSession report.pooled := by
  obtain ⟨report, hreport, -, hpooled, -⟩ := pooled_error_statistics twoSessions
    ⟨1, 1, 2, 1, 2⟩ (some [10, 11, 12]) (fun x _ => x) (by decide +kernel)
  exact ⟨report, hreport, hpooled⟩

end MarketRegimeAlpha.ResearchQualification
