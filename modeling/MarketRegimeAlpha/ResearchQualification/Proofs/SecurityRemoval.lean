/-
The statistics of accepted points without those of one security.

# The same comparison

Points stay accepted when those of a security are taken out. What is paired of
the rest is paired as before (`pairsOf_without`): its keys are the keys that are
left, in their order, and a row that is left is found under its key. So each
comparison recomputed has the figures of the pairs that are left.
-/
import MarketRegimeAlpha.ResearchQualification.Proofs.LeaveOneOut

namespace MarketRegimeAlpha.ResearchQualification

open Lib EvaluationFormula List

-- ==== the points

def withoutInstrument (points : List HistoricalEvaluationPoint) (instrument : Nat) :
    List HistoricalEvaluationPoint :=
  points.filter (·.instrumentId ≠ instrument)

def otherKey (instrument : Nat) (key : Session ×ₗ Nat) : Bool := (ofLex key).2 ≠ instrument

section Points

variable {points : List HistoricalEvaluationPoint} {left right : Nat} {instrument : Nat}

theorem armRows_without (arm : Nat) : armRows (withoutInstrument points instrument) arm
      = (armRows points arm).filter fun point => otherKey instrument point.key :=
  filter_comm _ _ _

theorem eligible_without (arm : Nat) : eligible (withoutInstrument points instrument) arm
      = (eligible points arm).filter (otherKey instrument) := by
  unfold eligible
  rw [armRows_without, filter_comm, filter_map]
  rfl

theorem pairedKeys_without : pairedKeys (withoutInstrument points instrument) left right
      = (pairedKeys points left right).filter (otherKey instrument) := by
  unfold pairedKeys
  rw [filter_sortBy, eligible_without, eligible_without, filter_filter, filter_filter]
  congr 1
  apply filter_congr
  intro key _
  by_cases hkey : otherKey instrument key
  · simp [hkey]
  · simp [hkey]

variable {key : Session ×ₗ Nat} {arm : Nat}

theorem rowAt_without (hkey : otherKey instrument key) :
    rowAt (withoutInstrument points instrument) arm key = rowAt points arm key := by
  have hfind : (armRows (withoutInstrument points instrument) arm).find?
      (·.key = key) = (armRows points arm).find? (·.key = key) := by
    rw [armRows_without, find?_filter]
    congr 1
    funext point
    by_cases hpoint : point.key = key
    · simp [hpoint, hkey]
    · simp [hpoint]
  unfold rowAt
  rw [hfind]

theorem rowAt_ok {point : HistoricalEvaluationPoint} (h : rowAt points arm key = .ok point) :
    point ∈ points ∧ point.armId = arm ∧ point.key = key := by
  unfold rowAt at h
  split at h
  next found hfound =>
    obtain rfl := Except.ok.inj h
    obtain ⟨hmem, harm⟩ := mem_filter.mp (mem_of_find?_eq_some hfound)
    have hkey := find?_some hfound
    exact ⟨hmem, of_decide_eq_true harm, of_decide_eq_true hkey⟩
  next => cases h

structure PairOf (points : List HistoricalEvaluationPoint) (left right : Nat)
    (pair : ValidityPair) (point baseline : HistoricalEvaluationPoint) : Prop where
  point_mem : point ∈ points
  point_arm : point.armId = left
  baseline_mem : baseline ∈ points
  baseline_arm : baseline.armId = right
  baseline_estimable : baseline.estimable
  same_key : point.key = baseline.key
  session : pair.session = point.sessionDate
  instrument : pair.instrumentId = some point.instrumentId
  baseline : some pair.baseline = baseline.prediction

theorem pairAt_ok {pair : ValidityPair} (h : pairAt points left right key = .ok pair) :
    ∃ point baseline, PairOf points left right pair point baseline ∧ point.key = key := by
  simp only [pairAt, bind_ok, pairOf, require_ok] at h
  obtain ⟨point, hpoint, baseline, hbaseline, _, hchecks, hpair⟩ := h
  obtain ⟨hmem, harm, hkey⟩ := rowAt_ok hpoint
  obtain ⟨hmem', harm', hkey'⟩ := rowAt_ok hbaseline
  refine ⟨point, baseline, ?_, hkey⟩
  split at hpair
  next model reference label hmodel hreference hlabel =>
    obtain rfl := Except.ok.inj hpair
    exact {
      point_mem := hmem
      point_arm := harm
      baseline_mem := hmem'
      baseline_arm := harm'
      baseline_estimable := hchecks.2.1
      same_key := hchecks.2.2.1
      session := rfl
      instrument := rfl
      baseline := hreference.symm }
  next => cases hpair

theorem mapM_filter_ok {α β ε : Type} {f g : α → Except ε β} {p : α → Bool} {q : β → Bool}
    {l : List α} {l' : List β} (hpq : ∀ a b, f a = .ok b → q b = p a) (hfg : ∀ a, p a → g a = f a)
    (h : l.mapM f = .ok l') : (l.filter p).mapM g = .ok (l'.filter q) := by
  induction l generalizing l' with
  | nil =>
    rw [mapM_nil, pure_ok] at h
    subst h
    rfl
  | cons a l ih =>
    simp only [mapM_cons, bind_ok, pure_ok] at h
    obtain ⟨b, hb, rest, hrest, rfl⟩ := h
    have hq := hpq a b hb
    by_cases hp : p a
    · rw [filter_cons_of_pos hp, filter_cons_of_pos (hq ▸ hp),
        mapM_cons, hfg a hp, hb, ih hrest]
      rfl
    · rw [filter_cons_of_neg hp, filter_cons_of_neg (hq ▸ hp)]
      exact ih hrest

variable {pairs : List ValidityPair} {parameters : ValidityParameters} {roster : List Session}

theorem pairsOf_without (h : pairsOf points left right = .ok pairs) :
    pairsOf (withoutInstrument points instrument) left right
      = .ok (withoutSecurity pairs instrument) := by
  unfold pairsOf at h ⊢
  rw [pairedKeys_without]
  refine mapM_filter_ok ?_ ?_ h
  · intro key pair hpair
    obtain ⟨point, baseline, hof, hkey⟩ := pairAt_ok hpair
    rw [hof.instrument, ← hkey, Bool.eq_iff_iff]
    simp only [otherKey, HistoricalEvaluationPoint.key, ofLex_toLex, ne_eq,
      Option.some.injEq, decide_eq_true_iff]
    exact decide_eq_true_iff.symm
  · intro key hkey
    unfold pairAt
    rw [rowAt_without hkey, rowAt_without hkey]

-- ==== the checks

theorem robustnessChecks_without {arms : List Arm} {sessions : List FoldSession}
    {instruments : List Nat} (h : robustnessChecks points arms sessions instruments = .ok ()) :
    robustnessChecks (withoutInstrument points instrument) arms sessions instruments = .ok () := by
  have hsub : (withoutInstrument points instrument).Sublist points := filter_sublist
  simp only [robustnessChecks, bind_ok, require_ok] at h ⊢
  obtain ⟨_, hnames, _, hdays, _, hidentities, hlabels⟩ := h
  refine ⟨(), hnames, (), hdays, (), ⟨?_, ?_⟩, ?_⟩
  · exact fun point hpoint => hidentities.1 point (hsub.subset hpoint)
  · exact hidentities.2.sublist (hsub.map _)
  · exact fun point hpoint other hother =>
      hlabels point (hsub.subset hpoint) other (hsub.subset hother)

variable (h : validityChecks pairs parameters (some roster) = .ok ())

include h in
/-- Pairs that pass the checks of the diagnostics pass them without a
security. -/
theorem validityChecks_without :
    validityChecks (withoutSecurity pairs instrument) parameters (some roster) = .ok () := by
  have hsub : (withoutSecurity pairs instrument).Sublist pairs := filter_sublist
  simp only [validityChecks, bind_ok, require_ok] at h ⊢
  obtain ⟨_, hparameters, _, hcommitments, _, hroster, _, hsessions, hinstruments⟩ := h
  refine ⟨(), hparameters, (), hcommitments.sublist (hsub.map _), (), hroster, (), ?_, ?_⟩
  · exact fun roster hmem pair hpair => hsessions roster hmem pair (hsub.subset hpair)
  · intro session hsession
    refine (hinstruments session hsession).sublist (Sublist.filterMap _ ?_)
    unfold grouped withoutSecurity
    rw [filter_comm, ← filter_sortBy]
    exact filter_sublist

include h in
theorem sessions_of_validityChecks : ∀ pair ∈ pairs, pair.session ∈ roster := by
  simp only [validityChecks, bind_ok, require_ok] at h
  obtain ⟨_, -, _, -, _, -, _, hsessions, -⟩ := h
  exact fun pair hpair => hsessions roster rfl pair hpair

end Points

-- ==== the comparisons

section Comparisons

variable {points : List HistoricalEvaluationPoint} {arms : List Arm} {sessions : List FoldSession}
  {instruments : List Nat} {names : String × String} {before : RobustnessComparison ℝ}

structure Compared (points : List HistoricalEvaluationPoint) (arms : List Arm)
    (sessions : List FoldSession) (instruments : List Nat)
    (names : String × String) (left right : Nat) (pairs : List ValidityPair)
    (comparison : RobustnessComparison ℝ) : Prop where
  model_arm : item (armNames arms) names.1 = .ok left
  reference_arm : item (armNames arms) names.2 = .ok right
  paired : pairsOf points left right = .ok pairs
  checks : validityChecks pairs diagnosticParameters (some (sessions.map (·.day))) = .ok ()
  model : comparison.model = names.1
  reference : comparison.reference = names.2
  figures : comparison.toPairedFigures = figuresOf names.2 sessions instruments pairs

theorem compared_of_ok
    (h : robustnessComparison realArithmetic points arms sessions instruments names = .ok before) :
    ∃ left right pairs, Compared points arms sessions instruments names left right
      pairs before := by
  simp only [robustnessComparison, bind_ok, pure_ok] at h
  obtain ⟨left, hleft, right, hright, pairs, hpairs, figures, hfigures, _, hchecks,
    rfl⟩ := h
  rw [pairedFigures_real] at hfigures
  obtain rfl := Except.ok.inj hfigures
  exact ⟨left, right, pairs, hleft, hright, hpairs, hchecks, rfl, rfl, rfl⟩

variable {left right : Nat} {pairs : List ValidityPair}

theorem exists_compared (hleft : item (armNames arms) names.1 = .ok left)
    (hright : item (armNames arms) names.2 = .ok right)
    (hpairs : pairsOf points left right = .ok pairs)
    (hchecks : validityChecks pairs diagnosticParameters (some (sessions.map (·.day))) = .ok ()) :
    ∃ comparison, robustnessComparison realArithmetic points arms sessions
        instruments names = .ok comparison
      ∧ Compared points arms sessions instruments names left right pairs
        comparison := by
  unfold robustnessComparison
  rw [hleft, ok_bind, hright, ok_bind, hpairs, ok_bind, pairedFigures_real]
  simp only [raiseSignal, ok_bind, hchecks]
  exact ⟨_, rfl, hleft, hright, hpairs, hchecks, rfl, rfl, rfl⟩

theorem Compared.pairs_eq {left right left' right' : Nat} {pairs pairs' : List ValidityPair}
    (h : Compared points arms sessions instruments names left right pairs before)
    (hleft : item (armNames arms) names.1 = .ok left')
    (hright : item (armNames arms) names.2 = .ok right')
    (hpairs : pairsOf points left' right' = .ok pairs') : pairs = pairs' := by
  obtain rfl := Except.ok.inj (h.model_arm.symm.trans hleft)
  obtain rfl := Except.ok.inj (h.reference_arm.symm.trans hright)
  exact Except.ok.inj (h.paired.symm.trans hpairs)

def DayConstant (points : List HistoricalEvaluationPoint) (arm : Nat) : Prop :=
  ∀ point ∈ points, ∀ other ∈ points, point.armId = arm → other.armId = arm →
    point.estimable → other.estimable → point.sessionDate = other.sessionDate →
    point.prediction = other.prediction

theorem pairs_constant
    (hpairs : pairsOf points left right = .ok pairs) (h : DayConstant points right) :
    ∀ p ∈ pairs, ∀ q ∈ pairs, p.session = q.session → p.baseline = q.baseline := by
  intro p hp q hq hsession
  obtain ⟨key, -, hkey⟩ := mem_mapM_ok hpairs p hp
  obtain ⟨key', -, hkey'⟩ := mem_mapM_ok hpairs q hq
  obtain ⟨point, baseline, hof, -⟩ := pairAt_ok hkey
  obtain ⟨point', baseline', hof', -⟩ := pairAt_ok hkey'
  -- a baseline is of the day of its point
  have hday : point.sessionDate = baseline.sessionDate :=
    congrArg (fun key => (ofLex key).1) hof.same_key
  have hday' : point'.sessionDate = baseline'.sessionDate :=
    congrArg (fun key => (ofLex key).1) hof'.same_key
  have hequal := h baseline hof.baseline_mem baseline' hof'.baseline_mem
    hof.baseline_arm hof'.baseline_arm hof.baseline_estimable
    hof'.baseline_estimable (by
      rw [← hday, ← hday', ← hof.session, ← hof'.session, hsession])
  rw [← hof.baseline, ← hof'.baseline] at hequal
  exact Option.some.inj hequal

/-- A comparison before and after one instrument is taken out of the points. -/
structure LeftOut (points : List HistoricalEvaluationPoint) (arms : List Arm)
    (instrument : Nat) (before after : RobustnessComparison ℝ) : Prop where
  model : after.model = before.model
  reference : after.reference = before.reference
  recomputed : ∀ row ∈ before.leaveOneSecurityOut, row.excludedInstrumentId = instrument →
      Recomputed row before.toPairedFigures after.toPairedFigures
  ranked : before.reference ∉ controls ∨ (∀ arm, item (armNames arms) before.reference = .ok arm →
        DayConstant points arm) →
    ∀ row ∈ before.leaveOneSecurityOut, row.excludedInstrumentId = instrument →
      RankRecomputed row after.toPairedFigures
  unranked : before.reference ∈ controls → ∀ row ∈ before.leaveOneSecurityOut,
    row.remainingMeanDailyRankIcDelta = none ∧ row.remainingEstimableIcDays = 0

/-- A comparison is recomputed with what its rows say. -/
theorem exists_leftOut (hdays : (sessions.map (·.day)).Nodup) (instrument : Nat)
    (h : robustnessComparison realArithmetic points arms sessions instruments names = .ok before) :
    ∃ after, robustnessComparison realArithmetic
        (withoutInstrument points instrument) arms sessions instruments names = .ok after
      ∧ LeftOut points arms instrument before after := by
  obtain ⟨left, right, pairs, hbefore⟩ := compared_of_ok h
  have hexists : ∃ after, robustnessComparison realArithmetic
        (withoutInstrument points instrument) arms sessions instruments names = .ok after
      ∧ Compared (withoutInstrument points instrument) arms sessions instruments
        names left right (withoutSecurity pairs instrument) after :=
    exists_compared hbefore.model_arm hbefore.reference_arm
      (pairsOf_without hbefore.paired) (validityChecks_without hbefore.checks)
  obtain ⟨after, hok, hafter⟩ := hexists
  have hsessions := sessions_of_validityChecks hbefore.checks
  have hrow : ∀ row ∈ before.leaveOneSecurityOut,
      ∃ i, row = sensitivityOf names.2 sessions pairs i := by
    intro row hrow
    rw [hbefore.figures] at hrow
    obtain ⟨i, -, rfl⟩ := mem_map.mp hrow
    exact ⟨i, rfl⟩
  refine ⟨after, hok, ?_⟩
  constructor
  case model => rw [hafter.model, hbefore.model]
  case reference => rw [hafter.reference, hbefore.reference]
  case recomputed =>
    intro row hmem hexcluded
    obtain ⟨i, rfl⟩ := hrow row hmem
    obtain rfl : i = instrument := hexcluded
    rw [hafter.figures, hbefore.figures]
    exact sensitivityOf_recomputed hdays hsessions i
  case ranked =>
    rw [hbefore.reference, hafter.figures]
    intro hreference row hmem hexcluded
    obtain ⟨i, rfl⟩ := hrow row hmem
    obtain rfl : i = instrument := hexcluded
    by_cases hcontrol : names.2 ∈ controls
    · have hconstant := hreference.resolve_left (not_not_intro hcontrol) right hbefore.reference_arm
      exact sensitivityOf_constant hcontrol (pairs_constant hbefore.paired hconstant) i
    · exact sensitivityOf_rank hcontrol i
  case unranked =>
    rw [hbefore.reference]
    intro hcontrol row hmem
    obtain ⟨i, rfl⟩ := hrow row hmem
    exact sensitivityOf_control hcontrol i

/-- The rows are one for each instrument, and the distinct ones add up to the
paired totals. -/
structure AddsUp (instruments : List Nat) (comparison : RobustnessComparison ℝ) : Prop where
  rows : comparison.leaveOneSecurityOut.map (·.excludedInstrumentId) = sortBy id instruments
  counts : (comparison.leaveOneSecurityOut.dedup.map (·.removedObservations)).sum
    = comparison.pairedObservations
  sums : (comparison.leaveOneSecurityOut.dedup.map
      (·.removedAbsoluteErrorDeltaSum)).sum
    = (comparison.perDay.map (·.absoluteErrorDeltaSum.getD 0)).sum

variable (h : robustnessChecks points arms sessions instruments = .ok ())

include h in
theorem days_nodup_of_checks : (sessions.map (·.day)).Nodup := by
  simp only [robustnessChecks, bind_ok, require_ok] at h
  obtain ⟨_, -, _, hdays, -⟩ := h
  exact hdays.imp fun hlt => hlt.ne

include h in
theorem instruments_of_checks (hpairs : pairsOf points left right = .ok pairs) :
    ∀ pair ∈ pairs, ∃ i ∈ instruments, pair.instrumentId = some i := by
  simp only [robustnessChecks, bind_ok, require_ok] at h
  obtain ⟨_, -, _, -, _, hidentities, -⟩ := h
  intro pair hpair
  obtain ⟨key, -, hkey⟩ := mem_mapM_ok hpairs pair hpair
  obtain ⟨point, baseline, hof, -⟩ := pairAt_ok hkey
  exact ⟨point.instrumentId, (hidentities.1 point hof.point_mem).2.1, hof.instrument⟩

variable (hchecks : robustnessChecks points arms sessions instruments = .ok ())

include hchecks in
theorem addsUp_of_ok (hdays : (sessions.map (·.day)).Nodup)
    (h : robustnessComparison realArithmetic points arms sessions instruments names = .ok before) :
    AddsUp instruments before := by
  obtain ⟨left, right, pairs, hbefore⟩ := compared_of_ok h
  have hvisited := visited_perm hdays (sessions_of_validityChecks hbefore.checks)
  have hinjective : Function.Injective (sensitivityOf names.2 sessions pairs) :=
    fun i j heq => congrArg SensitivityRow.excludedInstrumentId heq
  have hrows : before.leaveOneSecurityOut.dedup
      = (sortBy id instruments).dedup.map (sensitivityOf names.2 sessions pairs) := by
    rw [hbefore.figures]
    exact dedup_map_of_injective hinjective _
  obtain ⟨hcounts, hsums⟩ := sum_ofSecurity (nodup_dedup (sortBy id instruments))
    fun pair hpair => by
      obtain ⟨i, hi, heq⟩ := instruments_of_checks hchecks hbefore.paired pair
        (hvisited.subset hpair)
      exact ⟨i, mem_dedup.mpr ((sortBy_perm id instruments).mem_iff.mpr hi), heq⟩
  constructor
  case rows =>
    rw [hbefore.figures]
    unfold figuresOf
    rw [map_map]
    exact map_id _
  case counts =>
    rw [hrows, map_map, hbefore.figures]
    refine Eq.trans ?_ (hcounts.trans hvisited.length_eq)
    rfl
  case sums =>
    have hday : ∀ session : FoldSession, (dailyOf pairs session).absoluteErrorDeltaSum.getD 0
          = deltaSum (dailyPairs pairs session.day) := by
      intro session
      unfold dailyOf
      dsimp only
      by_cases hnil : dailyPairs pairs session.day = []
      · rw [if_pos hnil, hnil]
        rfl
      · rw [if_neg hnil]
        rfl
    rw [hrows, map_map, hbefore.figures]
    unfold figuresOf
    rw [map_map]
    refine Eq.trans ?_ (hsums.trans (deltaSum_visited.trans ?_))
    · rfl
    · congr 1
      exact map_congr_left fun session _ => (hday session).symm

/-- Mapped again, each entry of a list keeps what `R` says of its two results. -/
theorem mapM_again {α β ε : Type} {f g : α → Except ε β} {R : β → β → Prop} {l : List α}
    {before : List β} (hfg : ∀ a b, f a = .ok b → ∃ c, g a = .ok c ∧ R b c)
    (h : l.mapM f = .ok before) :
    ∃ after, l.mapM g = .ok after ∧ List.Forall₂ R before after := by
  induction l generalizing before with
  | nil =>
    rw [mapM_nil, pure_ok] at h
    subst h
    exact ⟨[], rfl, .nil⟩
  | cons a l ih =>
    simp only [mapM_cons, bind_ok, pure_ok] at h
    obtain ⟨b, hb, rest, hrest, rfl⟩ := h
    obtain ⟨c, hc, hR⟩ := hfg a b hb
    obtain ⟨after, hafter, hall⟩ := ih hrest
    refine ⟨c :: after, ?_, .cons hR hall⟩
    rw [mapM_cons, hc, hafter]
    rfl

def pairedChecks (points : List HistoricalEvaluationPoint) (arms : List Arm)
    (sessions : List FoldSession) (names : String × String) :
    Except Raised Unit := do
  let left ← item (armNames arms) names.1
  let right ← item (armNames arms) names.2
  let pairs ← pairsOf points left right
  validityChecks pairs diagnosticParameters (some (sessions.map (·.day)))

include hchecks in
theorem exists_report
    (hpaired : ∀ names ∈ comparisonNames arms, pairedChecks points arms sessions names = .ok ()) :
    ∃ report, robustnessStatistics realArithmetic points arms sessions instruments
      = .ok report := by
  have hall : ∀ names ∈ comparisonNames arms, ∃ comparison,
      robustnessComparison realArithmetic points arms sessions instruments names
        = .ok comparison := by
    intro names hnames
    have h := hpaired names hnames
    simp only [pairedChecks, bind_ok] at h
    obtain ⟨left, hleft, right, hright, pairs, hpairs, hvalid⟩ := h
    obtain ⟨comparison, hok, -⟩ := exists_compared hleft hright hpairs hvalid
    exact ⟨comparison, hok⟩
  obtain ⟨comparisons, hcomparisons, -⟩ := mapM_ok_length hall
  unfold robustnessStatistics
  rw [hchecks, ok_bind, hcomparisons, ok_bind]
  exact ⟨_, rfl⟩

/-- Accepted statistics are accepted without any one instrument, each comparison
with the figures its rows give; the rows of a comparison add up to its totals. -/
theorem leave_one_security_out {report : RobustnessStatistics ℝ}
    (haccepted : robustnessStatistics realArithmetic points arms sessions instruments = .ok report)
    :
    (∀ instrument, ∃ left, robustnessStatistics realArithmetic
          (withoutInstrument points instrument) arms sessions instruments = .ok left
        ∧ List.Forall₂ (LeftOut points arms instrument) report.comparisons
          left.comparisons)
      ∧ ∀ comparison ∈ report.comparisons, AddsUp instruments comparison := by
  simp only [robustnessStatistics, bind_ok, pure_ok] at haccepted
  obtain ⟨⟨⟩, hchecks, comparisons, hcomparisons, rfl⟩ := haccepted
  have hdays := days_nodup_of_checks hchecks
  constructor
  case left =>
    intro instrument
    obtain ⟨after, hafter, hall⟩ := mapM_again
      (fun names before h => exists_leftOut hdays instrument h) hcomparisons
    refine ⟨⟨after, sessions.length,
      (commonKeys (withoutInstrument points instrument) arms).length⟩, ?_, hall⟩
    unfold robustnessStatistics
    rw [robustnessChecks_without hchecks, ok_bind, hafter, ok_bind]
    rfl
  case right =>
    intro comparison hcomparison
    obtain ⟨names, -, hnames⟩ := mem_mapM_ok hcomparisons comparison hcomparison
    exact addsUp_of_ok hchecks hdays hnames

end Comparisons

-- ==== a sample

def sampleArms : List Arm :=
  [(0, "zero"), (1, "training_mean"), (2, "training_median"), (3, "ridge_v2")]

def sampleFoldSessions : List FoldSession := [⟨1, 1, 100⟩]

def samplePoint (arm instrument : Nat) (prediction : ℚ) : HistoricalEvaluationPoint where
  armId := arm
  foldId := 1
  sessionId := 1
  sessionDate := 100
  instrumentId := instrument
  commitmentId := 10 * arm + instrument
  inputState := "INCLUDED"
  forecastStatus := some "AVAILABLE"
  labelStatus := "COMPLETE"
  prediction := some prediction
  label := some instrument

variable (constant : Bool)

/-- Four instruments on one day. The ridge forecasts the labels, and the controls
one number each, or the labels too. -/
def sampleRobustness : List HistoricalEvaluationPoint :=
  [1, 2, 3, 4].flatMap fun instrument =>
    [0, 1, 2].map (fun arm => samplePoint arm instrument (if constant then arm else instrument))
    ++ [samplePoint 3 instrument instrument]

def samplePair (instrument : Nat) : ValidityPair where
  commitmentId := 30 + instrument
  session := 100
  model := instrument
  baseline := instrument
  label := instrument
  instrumentId := some instrument

theorem sampleRobustness_checks :
    robustnessChecks (sampleRobustness constant) sampleArms sampleFoldSessions
      [1, 2, 3, 4] = .ok () := by
  cases constant with
  | true => decide +kernel
  | false => decide +kernel

theorem sampleRobustness_paired :
    ∀ names ∈ comparisonNames sampleArms, pairedChecks (sampleRobustness constant)
      sampleArms sampleFoldSessions names = .ok () := by
  cases constant with
  | true => decide +kernel
  | false => decide +kernel

/-- Constant controls, and their statistics without the fourth instrument. -/
theorem leave_one_security_out_constant :
    ∃ report left, robustnessStatistics realArithmetic (sampleRobustness true)
        sampleArms sampleFoldSessions [1, 2, 3, 4] = .ok report
      ∧ robustnessStatistics realArithmetic
        (withoutInstrument (sampleRobustness true) 4) sampleArms sampleFoldSessions
        [1, 2, 3, 4] = .ok left
      ∧ List.Forall₂ (LeftOut (sampleRobustness true) sampleArms 4)
        report.comparisons left.comparisons := by
  obtain ⟨report, hreport⟩ := exists_report (sampleRobustness_checks true)
    (sampleRobustness_paired true)
  obtain ⟨left, hleft, hall⟩ := (leave_one_security_out hreport).1 4
  exact ⟨report, left, hreport, hleft, hall⟩

/-- A control that forecasts the labels: without the fourth instrument its
comparison with the ridge has a day with rank correlations, and the row of the
fourth instrument has none. -/
theorem control_with_rank_correlations : ∃ report left before after row,
      robustnessStatistics realArithmetic (sampleRobustness false) sampleArms
        sampleFoldSessions [1, 2, 3, 4] = .ok report
      ∧ robustnessStatistics realArithmetic
        (withoutInstrument (sampleRobustness false) 4) sampleArms sampleFoldSessions
        [1, 2, 3, 4] = .ok left
      ∧ before ∈ report.comparisons ∧ after ∈ left.comparisons
      ∧ (before.model, before.reference) = ("ridge_v2", "zero")
      ∧ (after.model, after.reference) = ("ridge_v2", "zero")
      ∧ row ∈ before.leaveOneSecurityOut ∧ row.excludedInstrumentId = 4
      ∧ row.remainingMeanDailyRankIcDelta = none
      ∧ row.remainingEstimableIcDays = 0
      ∧ after.meanDailyRankIcDelta ≠ none
      ∧ after.icDaySigns.estimableDays = 1 := by
  have hnames : ("ridge_v2", "zero") ∈ comparisonNames sampleArms := by decide
  obtain ⟨report, hreport⟩ := exists_report (sampleRobustness_checks false)
    (sampleRobustness_paired false)
  have hparts := hreport
  simp only [robustnessStatistics, bind_ok, pure_ok] at hparts
  obtain ⟨⟨⟩, hchecks, comparisons, hcomparisons, rfl⟩ := hparts
  obtain ⟨remaining, hremaining, -⟩ := mapM_again
    (fun names before h => exists_leftOut (days_nodup_of_checks hchecks) 4 h)
    hcomparisons
  obtain ⟨before, hbefore, hok⟩ := mapM_ok_mem hcomparisons _ hnames
  obtain ⟨after, hafter, hok'⟩ := mapM_ok_mem hremaining _ hnames
  obtain ⟨_, _, pairs, hcompared⟩ := compared_of_ok hok
  obtain ⟨_, _, pairs', hcompared'⟩ := compared_of_ok hok'
  have hpairs : pairsOf (sampleRobustness false) 3 0
      = .ok ([1, 2, 3, 4].map samplePair) := by decide +kernel
  obtain rfl := hcompared.pairs_eq (by decide) (by decide) hpairs
  obtain rfl := hcompared'.pairs_eq (by decide) (by decide) (pairsOf_without hpairs)
  have hitems : dailyPairs (withoutSecurity ([1, 2, 3, 4].map samplePair) 4) 100
      = [1, 2, 3].map samplePair := by decide
  -- three pairs that differ have rank correlations
  have hcorrelation : ∀ role : ValidityPair → ℚ, role (samplePair 1) ≠ role (samplePair 2) →
      ∃ rho, icOf role ([1, 2, 3].map samplePair) = some rho := by
    intro role hrole
    apply Option.ne_none_iff_exists'.mp
    exact icOf_ne_none (by decide) ⟨samplePair 1, by decide, samplePair 2, by decide, hrole⟩
      ⟨samplePair 1, by decide, samplePair 2, by decide, by decide⟩
  obtain ⟨rho, hrho⟩ := hcorrelation (·.model) (by decide)
  obtain ⟨rho', hrho'⟩ := hcorrelation (·.baseline) (by decide)
  have hdeltas : dayDeltas sampleFoldSessions (withoutSecurity ([1, 2, 3, 4].map samplePair) 4)
        = [realArithmetic.round (rho - rho')] := by
    show [dayDelta (dailyPairs (withoutSecurity ([1, 2, 3, 4].map samplePair) 4)
      100)].reduceOption = _
    rw [hitems, dayDelta, hrho, hrho']
    rfl
  refine ⟨_, ⟨remaining, 1, (commonKeys
      (withoutInstrument (sampleRobustness false) 4) sampleArms).length⟩, before, after,
    sensitivityOf "zero" sampleFoldSessions ([1, 2, 3, 4].map samplePair) 4, hreport,
    ?_, hbefore, hafter, ?_, ?_, ?_, rfl, rfl, rfl, ?_, ?_⟩
  · unfold robustnessStatistics
    rw [robustnessChecks_without hchecks, ok_bind, hremaining, ok_bind]
    rfl
  · rw [hcompared.model, hcompared.reference]
  · rw [hcompared'.model, hcompared'.reference]
  · rw [hcompared.figures]
    exact mem_map_of_mem (by decide)
  · rw [hcompared'.figures]
    unfold figuresOf
    rw [hdeltas]
    exact Option.some_ne_none _
  · rw [hcompared'.figures]
    unfold figuresOf
    rw [hdeltas]
    rfl

end MarketRegimeAlpha.ResearchQualification
