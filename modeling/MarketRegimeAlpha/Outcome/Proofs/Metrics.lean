/-
The observations and the metrics of an Outcome revision.

# What can fail

An observation is always accepted by its constructor: the checks of the
draft are those of its source. A metric is calculated only when every
dependency is complete, and then the roles its kind accepts give it the
observations and the reference that it asserts to be there. What is left
to fail is the decimal context, and for an `OBSERVATION_RETURN` two
checkpoints with different bars (`metric_ok`).
-/
import MarketRegimeAlpha.Outcome.Kernel

namespace MarketRegimeAlpha.Outcome

open Lib List

-- ==== the observations

theorem OutcomeBarSource.selected_pos (source : OutcomeBarSource)
    (field : OutcomeValueField) : 0 < source.selected field := by
  obtain ⟨hopen, hhigh, hlow, hclose⟩ := source.values_positive
  cases field with
  | openField => exact hopen
  | highField => exact hhigh
  | lowField => exact hlow
  | closeField => exact hclose

theorem OutcomeBarSource.ohlc (source : OutcomeBarSource) (selected : ℚ) :
    ohlcShape [selected, source.openValue, source.highValue, source.lowValue,
      source.closeValue] := by
  have hhigh := source.high_greatest
  have hlow := source.low_least
  simp only [max_le_iff, le_min_iff] at hhigh hlow
  simp [ohlcShape, hhigh, hlow]

variable (checkpoint : OutcomeCheckpoint)

theorem observation_ok (source : OutcomeObservationSource) :
    observation checkpoint source = .ok (observationDraft checkpoint source) := by
  unfold observation OutcomeObservationDraft.postInit
  cases source with
  | bar source =>
    obtain ⟨hstart, -, hknown⟩ := source.ordered
    obtain ⟨hopen, hhigh, hlow, hclose⟩ := source.values_positive
    have hselected := source.selected_pos checkpoint.valueField
    have hohlc := source.ohlc (source.selected checkpoint.valueField)
    simp [observationDraft, OutcomeStatus.usable,
      OutcomeObservationDraft.values, hstart, hknown, hopen, hhigh, hlow,
      hclose, hselected, hohlc, Lib.require, bind, Except.bind, pure,
      Except.pure]
  | gap source =>
    obtain ⟨hstart, -, hknown⟩ := source.ordered
    by_cases hkind : source.gapKind ∈ [.missing, .placeholder]
    · simp [observationDraft, OutcomeObservationSource.status, hkind,
        OutcomeStatus.usable, OutcomeStatus.emptyAvailability,
        OutcomeObservationDraft.values, hstart, hknown, Lib.require, bind,
        Except.bind, pure, Except.pure]
    · simp [observationDraft, OutcomeObservationSource.status, hkind,
        OutcomeStatus.usable, OutcomeStatus.emptyAvailability,
        OutcomeObservationDraft.values, hstart, hknown, Lib.require, bind,
        Except.bind, pure, Except.pure]

@[simp] theorem observationDraft_status (source : OutcomeObservationSource) :
    (observationDraft checkpoint source).status = source.status := by
  cases source with
  | bar source => rfl
  | gap source => rfl

@[simp] theorem observationDraft_checkpoint (source : OutcomeObservationSource) :
    (observationDraft checkpoint source).targetCheckpointId = source.scope.targetCheckpointId := by
  cases source with
  | bar source => rfl
  | gap source => rfl

structure Valued (o : OutcomeObservationDraft) : Prop where
  selected : o.selectedValue.isSome
  high : o.highValue.isSome
  low : o.lowValue.isSome

variable {source : OutcomeObservationSource}

theorem bar_of_complete (h : source.status = .complete) : ∃ bar, source = .bar bar := by
  cases source with
  | bar bar => exact ⟨bar, rfl⟩
  | gap gap =>
    unfold OutcomeObservationSource.status at h
    dsimp only at h
    split at h
    next => cases h
    next => cases h

theorem valued_of_complete {checkpoint : OutcomeCheckpoint} (h : source.status = .complete) :
    Valued (observationDraft checkpoint source) := by
  obtain ⟨bar, rfl⟩ := bar_of_complete h
  exact ⟨rfl, rfl, rfl⟩

-- ==== the values

/-- What the roles a kind accepts give it: `count` observations or path
members, and a reference where it needs one. -/
structure RolesGive (kind : OutcomeMetricKind) (count : Nat) (hasReference : Prop) : Prop where
  pair : kind = .observationReturn → count = 2
  one : kind = .observationValue ∨ kind = .simpleReturn → count = 1
  some : count ≠ 0
  reference : kind ≠ .observationReturn → kind ≠ .observationValue → hasReference

variable {kind : OutcomeMetricKind}

theorem rolesGive {roles : List OutcomeDependencyRole} (h : kind.acceptsRoles roles) :
    RolesGive kind (roles.filter (· ∈ [.observation, .pathMember])).length
      (.reference ∈ roles) := by
  have hpath : (kind = .maxFavorableExcursion ∨ kind = .maxAdverseExcursion
      ∨ kind = .barrierHit) → .reference ∈ roles ∧ .pathMember ∈ roles := by
    intro hkind
    have haccepts : roles.count .reference = 1 ∧ 1 ≤ roles.count .pathMember := by
      rcases hkind with rfl | rfl | rfl
      · simp only [OutcomeMetricKind.acceptsRoles, Bool.and_eq_true, decide_eq_true_eq] at h
        exact h.1
      · simp only [OutcomeMetricKind.acceptsRoles, Bool.and_eq_true, decide_eq_true_eq] at h
        exact h.1
      · simp only [OutcomeMetricKind.acceptsRoles, Bool.and_eq_true, decide_eq_true_eq] at h
        exact h.1
    constructor
    · exact count_pos_iff.mp (by omega)
    · exact count_pos_iff.mp haccepts.2
  have hsome : OutcomeDependencyRole.pathMember ∈ roles →
      (roles.filter (· ∈ [.observation, .pathMember])).length ≠ 0 := by
    intro hmem hzero
    have hin : OutcomeDependencyRole.pathMember ∈ roles.filter (· ∈ [.observation, .pathMember]) :=
      mem_filter.mpr ⟨hmem, rfl⟩
    rw [eq_nil_of_length_eq_zero hzero] at hin
    cases hin
  cases kind with
  | observationReturn =>
    have hroles : roles = [.observation, .observation] := by
      simpa [OutcomeMetricKind.acceptsRoles] using h
    subst hroles
    exact ⟨fun _ => rfl, nofun, by decide, fun hne => absurd rfl hne⟩
  | observationValue =>
    have hroles : roles = [.observation] := by simpa [OutcomeMetricKind.acceptsRoles] using h
    subst hroles
    exact ⟨nofun, fun _ => rfl, by decide, fun _ hne => absurd rfl hne⟩
  | simpleReturn =>
    have hroles : roles.Perm [.reference, .observation] := isPerm_iff.mp h
    have hlength : (roles.filter
        (· ∈ [.observation, .pathMember])).length = 1 :=
      (hroles.filter _).length_eq
    exact ⟨nofun, fun _ => hlength, by omega, fun _ _ => hroles.mem_iff.mpr mem_cons_self⟩
  | maxFavorableExcursion =>
    obtain ⟨hreference, hmember⟩ := hpath (by simp)
    exact ⟨nofun, nofun, hsome hmember, fun _ _ => hreference⟩
  | maxAdverseExcursion =>
    obtain ⟨hreference, hmember⟩ := hpath (by simp)
    exact ⟨nofun, nofun, hsome hmember, fun _ _ => hreference⟩
  | barrierHit =>
    obtain ⟨hreference, hmember⟩ := hpath (by simp)
    exact ⟨nofun, nofun, hsome hmember, fun _ _ => hreference⟩

def Typed (kind : OutcomeMetricKind) (value : Option ℚ × Option Bool × Option Instant) : Prop :=
  if kind = .barrierHit then value.1 = none ∧ value.2.1.isSome
  else value.1.isSome ∧ value.2.1 = none ∧ value.2.2 = none

theorem ratio_ok_or (x : ℚ) : (∃ y, ratio x = .ok y) ∨ ratio x = .error .invalidOperation := by
  unfold ratio Lib.require
  dsimp only
  split
  next => exact .inl ⟨_, rfl⟩
  next => exact .inr rfl

theorem ratio_value_ok (hkind : kind ≠ .barrierHit) (x : ℚ) : (∃ value, (do
        let y ← ratio x
        return (some y, none, none)) = Except.ok value ∧ Typed kind value)
      ∨ (do
        let y ← ratio x
        return ((some y, none, none) : Option ℚ × Option Bool × Option Instant))
          = .error .invalidOperation := by
  rcases ratio_ok_or x with ⟨y, hy⟩ | herr
  · rw [hy]
    refine .inl ⟨(some y, none, none), rfl, ?_⟩
    unfold Typed
    rw [if_neg hkind]
    exact ⟨rfl, rfl, rfl⟩
  · rw [herr]
    exact .inr rfl

theorem asserted_ok {α : Type _} {value : Option α} (h : value.isSome) :
    ∃ x, value = some x ∧ asserted value = .ok x := by
  cases value with
  | none => cases h
  | some x => exact ⟨x, rfl, rfl⟩

theorem mapM_asserted_ok {values : List (Option ℚ)} (h : ∀ v ∈ values, v.isSome) :
    ∃ l : List ℚ, values.mapM asserted = .ok l ∧ l.length = values.length := by
  induction values with
  | nil => exact ⟨[], rfl, rfl⟩
  | cons v values ih =>
    obtain ⟨x, -, hx⟩ := asserted_ok (h v mem_cons_self)
    obtain ⟨l, hl, hlength⟩ := ih fun w hw => h w (mem_cons_of_mem v hw)
    refine ⟨x :: l, ?_, congrArg (· + 1) hlength⟩
    rw [mapM_cons, hx, hl]
    rfl

variable (values : List (Option ℚ))

theorem maxAsserted_ok (hne : values.length ≠ 0)
    (h : ∀ v ∈ values, v.isSome) : ∃ x, maxAsserted values = .ok x := by
  obtain ⟨l, hl, hlength⟩ := mapM_asserted_ok h
  unfold maxAsserted
  rw [hl]
  cases l with
  | nil => exact absurd hlength.symm hne
  | cons x l => exact ⟨_, rfl⟩

theorem minAsserted_ok (hne : values.length ≠ 0)
    (h : ∀ v ∈ values, v.isSome) : ∃ x, minAsserted values = .ok x := by
  obtain ⟨l, hl, hlength⟩ := mapM_asserted_ok h
  unfold minAsserted
  rw [hl]
  cases l with
  | nil => exact absurd hlength.symm hne
  | cons x l => exact ⟨_, rfl⟩

variable {definition : OutcomeMetricDefinition}

/-- With its observations and its reference, a metric has a value of its
type, or the context signals. -/
theorem metricValue_ok {observations : List OutcomeObservationDraft} {referenceValue : Option ℚ}
    (hroles : RolesGive definition.metricKind observations.length referenceValue.isSome)
    (hvalued : ∀ o ∈ observations, Valued o)
    (hsame : definition.metricKind = .observationReturn →
      ∀ first last, observations = [first, last] →
        (first.sourceFactId, first.eventStart, first.eventEnd)
          = (last.sourceFactId, last.eventStart, last.eventEnd)) :
    (∃ value, metricValue definition observations referenceValue = .ok value
        ∧ Typed definition.metricKind value)
      ∨ metricValue definition observations referenceValue = .error .invalidOperation := by
  have hbarrier := definition.barrier
  unfold metricValue
  cases hkind : definition.metricKind with
  | observationValue =>
    rw [hkind] at hroles
    obtain ⟨first, rfl⟩ := length_eq_one_iff.mp (hroles.one (.inl rfl))
    have hfirst := (hvalued first mem_cons_self).selected
    exact .inl ⟨_, rfl, hfirst, rfl, rfl⟩
  | observationReturn =>
    rw [hkind] at hroles
    obtain ⟨first, last, rfl⟩ := length_eq_two.mp (hroles.pair rfl)
    obtain ⟨before, -, hbefore⟩ := asserted_ok (hvalued first (by simp)).selected
    obtain ⟨after, -, hafter⟩ := asserted_ok (hvalued last (by simp)).selected
    dsimp only
    rw [hsame hkind first last rfl, require_true rfl, hbefore, hafter]
    have hne : OutcomeMetricKind.observationReturn ≠ .barrierHit := nofun
    exact ratio_value_ok hne _
  | simpleReturn =>
    rw [hkind] at hroles
    obtain ⟨first, rfl⟩ := length_eq_one_iff.mp (hroles.one (.inr rfl))
    obtain ⟨reference, -, href⟩ := asserted_ok (hroles.reference nofun nofun)
    obtain ⟨observed, -, hobserved⟩ := asserted_ok (hvalued first mem_cons_self).selected
    dsimp only
    rw [href, hobserved]
    have hne : OutcomeMetricKind.simpleReturn ≠ .barrierHit := nofun
    exact ratio_value_ok hne _
  | maxFavorableExcursion =>
    rw [hkind] at hroles
    obtain ⟨reference, -, href⟩ := asserted_ok (hroles.reference nofun nofun)
    obtain ⟨high, hhigh⟩ := maxAsserted_ok (observations.map (·.highValue))
      (by simpa using hroles.some) (by
        intro v hv
        obtain ⟨o, ho, rfl⟩ := mem_map.mp hv
        exact (hvalued o ho).high)
    rw [href, hhigh]
    have hne : OutcomeMetricKind.maxFavorableExcursion ≠ .barrierHit := nofun
    exact ratio_value_ok hne _
  | maxAdverseExcursion =>
    rw [hkind] at hroles
    obtain ⟨reference, -, href⟩ := asserted_ok (hroles.reference nofun nofun)
    obtain ⟨low, hlow⟩ := minAsserted_ok (observations.map (·.lowValue))
      (by simpa using hroles.some) (by
        intro v hv
        obtain ⟨o, ho, rfl⟩ := mem_map.mp hv
        exact (hvalued o ho).low)
    rw [href, hlow]
    have hne : OutcomeMetricKind.maxAdverseExcursion ≠ .barrierHit := nofun
    exact ratio_value_ok hne _
  | barrierHit =>
    rw [hkind] at hroles
    rw [if_pos hkind] at hbarrier
    obtain ⟨reference, -, href⟩ := asserted_ok (hroles.reference nofun nofun)
    obtain ⟨direction, -, hdirection⟩ := asserted_ok hbarrier.1
    obtain ⟨threshold, -, hthreshold⟩ := asserted_ok hbarrier.2
    rw [href, hdirection, hthreshold]
    exact .inl ⟨_, rfl, rfl, rfl⟩

-- ==== the drafts

theorem OutcomeMetricDefinition.valueType_eq (d : OutcomeMetricDefinition) :
    d.valueType = d.metricKind.shape.1 :=
  congrArg Prod.fst d.shape

/-- A draft with a value of its type passes its checks, also when it is
made partial. -/
theorem metricDraft_postInit (definition : OutcomeMetricDefinition) (status : OutcomeStatus)
    (hstatus : status.usable) {value : Option ℚ × Option Bool × Option Instant}
    (h : Typed definition.metricKind value) :
    (metricDraft definition status .available value).postInit
      = .ok (metricDraft definition status .available value) := by
  obtain ⟨hordinal, hcode⟩ := definition.identity
  have halgorithm := definition.algorithm_valid
  have hcontent := definition.content_valid
  have htype := definition.valueType_eq
  unfold OutcomeMetricDraft.postInit
  unfold Typed at h
  by_cases hkind : definition.metricKind = .barrierHit
  · rw [if_pos hkind] at h
    have hboolean : definition.valueType = .boolean := by
      rw [htype, hkind]
      rfl
    simp [metricDraft, hstatus, OutcomeMetricDraft.typedValue,
      hboolean, hordinal, hcode, halgorithm, hcontent, hkind, h,
      Lib.require, bind, Except.bind, pure, Except.pure]
  · rw [if_neg hkind] at h
    have hdecimal : definition.valueType = .decimal := by
      rw [htype]
      cases hk : definition.metricKind with
      | barrierHit => exact absurd hk hkind
      | _ => rfl
    simp [metricDraft, hstatus, OutcomeMetricDraft.typedValue,
      hdecimal, hordinal, hcode, halgorithm, hcontent, h,
      Lib.require, bind, Except.bind, pure, Except.pure]

theorem emptyMetric_ok (definition : OutcomeMetricDefinition) {status : OutcomeStatus}
    (h : status = .failed ∨ status = .unavailable) :
    emptyMetric definition status = .ok (metricDraft definition status
      (if status = .unavailable then .unavailable else .failed)
      (none, none, none)) := by
  obtain ⟨hordinal, hcode⟩ := definition.identity
  have halgorithm := definition.algorithm_valid
  have hcontent := definition.content_valid
  unfold emptyMetric metricResult OutcomeMetricDraft.postInit
  rcases h with rfl | rfl
  · simp [metricDraft, OutcomeStatus.usable, OutcomeStatus.emptyAvailability,
      hordinal, hcode, halgorithm, hcontent, Lib.require, bind, Except.bind,
      pure, Except.pure]
  · simp [metricDraft, OutcomeStatus.usable, OutcomeStatus.emptyAvailability,
      hordinal, hcode, halgorithm, hcontent, Lib.require, bind, Except.bind,
      pure, Except.pure]

/-- The draft of a metric whose dependencies have these states. -/
inductive MetricOf (definition : OutcomeMetricDefinition)
    (states : List OutcomeStatus) : OutcomeMetricDraft → Prop
  | failed (h : .failed ∈ states) : MetricOf definition states
      (metricDraft definition .failed .failed (none, none, none))
  | unavailable (hnot : .failed ∉ states)
      (h : ∃ status ∈ states, status ≠ .complete) : MetricOf definition states
      (metricDraft definition .unavailable .unavailable (none, none, none))
  | complete (h : ∀ status ∈ states, status = .complete)
      (value : Option ℚ × Option Bool × Option Instant)
      (htyped : Typed definition.metricKind value) : MetricOf definition states
      (metricDraft definition .complete .available value)

theorem reference_isSome {reference : FrozenDecisionReference}
    (h : referenceStatus reference = .complete) :
    reference.decimalValue.isSome := by
  rw [reference.value_iff]
  unfold referenceStatus at h
  cases hstatus : reference.valueStatus with
  | present => rfl
  | unavailable =>
    rw [hstatus] at h
    cases h
  | failed =>
    rw [hstatus] at h
    cases h

/-- A metric is calculated from the observations of its dependencies, or
the context signals. -/
theorem metric_ok {dependencies : List OutcomeMetricDependency}
    {observations : List (Nat × OutcomeObservationDraft)}
    (reference : FrozenDecisionReference)
    {found : List OutcomeObservationDraft}
    (hroles : definition.metricKind.acceptsRoles (dependencies.map (·.role)))
    (hfound : ((dependencies.filter fun item =>
        item.role ∈ [.observation, .pathMember]).mapM fun item =>
      getItem observations item.targetCheckpointId) = .ok found)
    (hvalued : ∀ o ∈ found, o.status = .complete → Valued o)
    (hsame : definition.metricKind = .observationReturn → (∀ o ∈ found, o.status = .complete) →
      ∀ first last, found = [first, last] → (first.sourceFactId, first.eventStart, first.eventEnd)
          = (last.sourceFactId, last.eventStart, last.eventEnd)) :
    (∃ draft, metric definition dependencies observations reference = .ok draft
        ∧ MetricOf definition (dependencyStates dependencies found reference) draft)
      ∨ metric definition dependencies observations reference = .error .invalidOperation := by
  unfold metric
  rw [hfound]
  dsimp only [bind, Except.bind]
  by_cases hfailed : .failed ∈ dependencyStates dependencies found reference
  · left
    rw [if_pos hfailed, emptyMetric_ok definition (.inl rfl)]
    exact ⟨_, rfl, .failed hfailed⟩
  · rw [if_neg hfailed]
    by_cases hempty : ∃ status ∈ dependencyStates dependencies found reference, status ≠ .complete
    · left
      rw [if_pos hempty, emptyMetric_ok definition (.inr rfl)]
      exact ⟨_, rfl, .unavailable hfailed hempty⟩
    · rw [if_neg hempty]
      have hall : ∀ status ∈ dependencyStates dependencies found reference,
          status = .complete := fun status hmem =>
        not_not.mp fun hne => hempty ⟨status, hmem, hne⟩
      have hcomplete : ∀ o ∈ found, o.status = .complete := fun o ho =>
        hall _ (mem_append_left _ (mem_map_of_mem ho))
      have hreference : .reference ∈ dependencies.map (·.role) →
          reference.decimalValue.isSome := by
        intro hmem
        obtain ⟨d, hd, hrole⟩ := mem_map.mp hmem
        have hany : dependencies.any (·.role = .reference) :=
          any_eq_true.mpr ⟨d, hd, by simpa using hrole⟩
        apply reference_isSome
        apply hall
        unfold dependencyStates
        rw [if_pos hany]
        exact mem_append_right _ (mem_singleton_self _)
      have hgive := rolesGive hroles
      have hlength : ((dependencies.map (·.role)).filter
          (· ∈ [.observation, .pathMember])).length = found.length := by
        rw [length_mapM_ok hfound, filter_map, length_map]
        rfl
      rw [hlength] at hgive
      have hgive : RolesGive definition.metricKind found.length
          reference.decimalValue.isSome :=
        ⟨hgive.pair, hgive.one, hgive.some, fun h h' => hreference (hgive.reference h h')⟩
      rcases metricValue_ok hgive (fun o ho => hvalued o ho (hcomplete o ho))
          (fun hkind => hsame hkind hcomplete) with ⟨value, hvalue, htyped⟩ | herr
      · left
        refine ⟨metricDraft definition .complete .available value, ?_, .complete hall value htyped⟩
        rw [hvalue]
        exact metricDraft_postInit definition .complete rfl htyped
      · right
        rw [herr]

end MarketRegimeAlpha.Outcome
