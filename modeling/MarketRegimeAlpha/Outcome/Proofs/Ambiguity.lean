/-
The ambiguity of barriers that are reached in one bar.

# Two minima

`_apply_barrier_ambiguity` compares the first passage of all upper
barriers with that of all lower ones, and marks only when these two are
the same instant. So a bar in which barriers of both directions are first
reached is marked exactly when no barrier at all is reached before it
(`intrabar_law_iff`): an upper barrier reached earlier hides every later
bar in which the order cannot be observed.
-/
import MarketRegimeAlpha.Outcome.Proofs.PathMetrics

namespace MarketRegimeAlpha.Outcome

open Lib List

variable {target : OutcomeTargetDefinition} {reference : FrozenDecisionReference}
  {sessions : List OutcomeSessionSource} {sources : List OutcomeObservationSource}
  {combine : Int → Nat → String → Instant} {observationCutoff knowledgeCutoff : Instant}
  {draft : OutcomeRevisionDraft}

-- ==== the law

def OutcomeBarrierDirection.opposite : OutcomeBarrierDirection → OutcomeBarrierDirection
  | .up => .down
  | .down => .up

/-- The definition of a metric is a barrier of this direction. -/
def Faces (target : OutcomeTargetDefinition) (m : OutcomeMetricDraft)
    (direction : OutcomeBarrierDirection) : Prop :=
  ∃ d ∈ target.metrics, d.targetMetricDefinitionId = m.targetMetricDefinitionId
    ∧ d.metricKind = .barrierHit ∧ d.barrierDirection = some direction

/-- A hit barrier is partial and named as ambiguous if and only if some
barrier of the opposite direction has the same first passage. -/
def IntrabarLaw (target : OutcomeTargetDefinition) (draft : OutcomeRevisionDraft) : Prop :=
  ∀ m ∈ draft.metrics, m.metricKind = .barrierHit → m.booleanValue = some true →
      (m.status = .partialStatus ∧ Ambiguous draft m.targetMetricDefinitionId
        ↔ ∃ direction, Faces target m direction ∧ ∃ m' ∈ draft.metrics,
          Faces target m' direction.opposite ∧ m'.firstPassageAt = m.firstPassageAt)

def pathSources (target : OutcomeTargetDefinition)
    (sources : List OutcomeObservationSource) (d : OutcomeMetricDefinition) :
    List OutcomeObservationSource :=
  sources.filter fun s =>
    (dependenciesOf target.dependencies d.targetMetricDefinitionId).any
      fun item => item.role ≠ .reference && item.targetCheckpointId = s.scope.targetCheckpointId

def Reaches (reference : FrozenDecisionReference) (d : OutcomeMetricDefinition)
    (direction : OutcomeBarrierDirection) (bar : OutcomeBarSource) : Prop :=
  ∃ r ∈ reference.decimalValue, ∃ t ∈ d.barrierThreshold,
    match direction with
    | .up => barrierBoundary r .up t ≤ bar.highValue
    | .down => bar.lowValue ≤ barrierBoundary r .down t

/-- A barrier of this direction whose path is complete is first reached by
a bar that ends here. -/
structure FirstReached (target : OutcomeTargetDefinition) (reference : FrozenDecisionReference)
    (sources : List OutcomeObservationSource) (d : OutcomeMetricDefinition)
    (direction : OutcomeBarrierDirection) (e : Instant) : Prop where
  member : d ∈ target.metrics
  kind : d.metricKind = .barrierHit
  faces : d.barrierDirection = some direction
  complete : ∀ s ∈ pathSources target sources d, ∃ bar, s = .bar bar
  least : IsLeast {e | ∃ bar, .bar bar ∈ pathSources target sources d
    ∧ Reaches reference d direction bar ∧ bar.eventEnd = e} e

/-- A bar in which barriers of both directions are first reached comes
before every other first passage. -/
def SharedFirst (target : OutcomeTargetDefinition) (reference : FrozenDecisionReference)
    (sources : List OutcomeObservationSource) : Prop :=
  ∀ upper lower e, FirstReached target reference sources upper .up e →
    FirstReached target reference sources lower .down e →
      ∀ d direction e', FirstReached target reference sources d direction e' → e ≤ e'

-- ==== the ambiguity

def passages (target : OutcomeTargetDefinition)
    (metrics : List OutcomeMetricDraft) (direction : OutcomeBarrierDirection) :
    Set Instant :=
  {e | ∃ m ∈ hitBarriers target metrics direction, m.firstPassageAt = some e}

section Spec

variable {metrics metrics' : List OutcomeMetricDraft} {affected : List Nat}
  {direction : OutcomeBarrierDirection} {e : Instant}

theorem mem_filterMap_passages : e ∈ (hitBarriers target metrics direction).filterMap
      (·.firstPassageAt) ↔ e ∈ passages target metrics direction :=
  mem_filterMap

theorem isLeast_passages {es : List Instant}
    (h : (hitBarriers target metrics direction).filterMap (·.firstPassageAt) = e :: es) :
    IsLeast (passages target metrics direction) (es.foldl min e) := by
  have hset : insert e {x | x ∈ es} = passages target metrics direction := by
    ext x
    rw [← mem_filterMap_passages, h, mem_cons]
    rfl
  rw [← hset]
  exact isLeast_foldl_min e es

variable (h : applyBarrierAmbiguity target metrics = .ok (metrics', affected))

include h in
/-- The ambiguity names the barriers that are reached first, when the two
directions are first reached at one instant. -/
theorem mem_affected {id : Nat} : id ∈ affected ↔ ∃ e, IsLeast (passages target metrics .up) e
        ∧ IsLeast (passages target metrics .down) e
        ∧ ∃ direction, ∃ m ∈ hitBarriers target metrics direction,
          m.firstPassageAt = some e ∧ m.targetMetricDefinitionId = id := by
  have hempty : ∀ direction, (hitBarriers target metrics direction).filterMap
      (·.firstPassageAt) = [] → ∀ e, ¬ IsLeast (passages target metrics direction) e := by
    intro direction hnil e hleast
    have hmem := mem_filterMap_passages.mpr hleast.1
    rw [hnil] at hmem
    cases hmem
  unfold applyBarrierAmbiguity at h
  dsimp only at h
  split at h
  next up ups down downs hup hdown =>
    have hfirstUp := isLeast_passages hup
    have hfirstDown := isLeast_passages hdown
    split at h
    next hdiffer =>
      obtain ⟨-, rfl⟩ := Prod.mk.inj (pure_ok.mp h)
      constructor
      · exact nofun
      · rintro ⟨e, hleast, hleast', -⟩
        exact absurd ((hfirstUp.unique hleast).trans (hleast'.unique hfirstDown)) hdiffer
    next hsame =>
      simp only [bind_ok, pure_ok, Prod.mk.injEq] at h
      obtain ⟨_, -, -, rfl⟩ := h
      rw [not_not] at hsame
      rw [(sortBy_perm _ _).mem_iff, mem_dedup, mem_map]
      constructor
      · rintro ⟨m, hm, rfl⟩
        obtain ⟨hm, hpassage⟩ := mem_filter.mp hm
        refine ⟨_, hfirstUp, hsame ▸ hfirstDown, ?_⟩
        rcases mem_append.mp hm with hm | hm
        · exact ⟨.up, m, hm, of_decide_eq_true hpassage, rfl⟩
        · exact ⟨.down, m, hm, of_decide_eq_true hpassage, rfl⟩
      · rintro ⟨e, hleast, -, direction, m, hm, hpassage, rfl⟩
        rw [hleast.unique hfirstUp] at hpassage
        refine ⟨m, mem_filter.mpr ⟨?_, decide_eq_true hpassage⟩, rfl⟩
        cases direction with
        | up => exact mem_append_left _ hm
        | down => exact mem_append_right _ hm
  next hnone =>
    obtain ⟨-, rfl⟩ := Prod.mk.inj (pure_ok.mp h)
    constructor
    · exact nofun
    · rintro ⟨e, hleast, hleast', -⟩
      cases hup : (hitBarriers target metrics .up).filterMap
          (·.firstPassageAt) with
      | nil => exact absurd hleast (hempty _ hup e)
      | cons up ups =>
        cases hdown : (hitBarriers target metrics .down).filterMap
            (·.firstPassageAt) with
        | nil => exact absurd hleast' (hempty _ hdown e)
        | cons down downs => exact absurd hdown (hnone up ups down downs hup)

include h in
theorem marked : metrics' = metrics.map (mark affected) := by
  have hnone : metrics.map (mark []) = metrics := by rw [show mark [] = id from rfl, map_id]
  unfold applyBarrierAmbiguity at h
  dsimp only at h
  split at h
  next =>
    split at h
    next =>
      obtain ⟨rfl, rfl⟩ := Prod.mk.inj (pure_ok.mp h)
      exact hnone.symm
    next =>
      simp only [bind_ok, pure_ok, Prod.mk.injEq] at h
      obtain ⟨replaced, hreplaced, rfl, rfl⟩ := h
      rw [← map_id replaced]
      apply map_mapM_ok ?_ hreplaced
      intro m m' hm'
      unfold mark
      simp only [(sortBy_perm _ _).mem_iff, mem_dedup]
      split at hm'
      next hin =>
        rw [if_pos hin]
        exact OutcomeMetricDraft.eq_of_postInit hm'
      next hout =>
        rw [if_neg hout]
        exact (Except.ok.inj hm').symm
  next =>
    obtain ⟨rfl, rfl⟩ := Prod.mk.inj (pure_ok.mp h)
    exact hnone.symm

end Spec

-- ==== the passages

/-- Only a barrier has a first passage. -/
theorem metricValue_passage {definition : OutcomeMetricDefinition}
    {found : List OutcomeObservationDraft} {r : Option ℚ}
    {value : Option ℚ × Option Bool × Option Instant}
    (h : metricValue definition found r = .ok value) (hsome : value.2.2.isSome) :
    definition.metricKind = .barrierHit := by
  unfold metricValue at h
  split at h
  next hkind =>
    split at h
    next => rw [← pure_ok.mp h] at hsome; cases hsome
    next => cases h
  next hkind =>
    split at h
    next =>
      simp only [bind_ok, pure_ok] at h
      obtain ⟨_, -, _, -, _, -, _, -, rfl⟩ := h
      cases hsome
    next => cases h
  next hkind =>
    simp only [bind_ok] at h
    obtain ⟨_, -, h⟩ := h
    split at h
    next =>
      simp only [bind_ok, pure_ok] at h
      obtain ⟨_, -, _, -, rfl⟩ := h
      cases hsome
    next => cases h
  next hkind =>
    simp only [bind_ok, pure_ok] at h
    obtain ⟨_, -, _, -, _, -, rfl⟩ := h
    cases hsome
  next hkind =>
    simp only [bind_ok, pure_ok] at h
    obtain ⟨_, -, _, -, _, -, rfl⟩ := h
    cases hsome
  next hkind => exact hkind

section Metric

variable {definition : OutcomeMetricDefinition} {dependencies : List OutcomeMetricDependency}
  {observations : List (Nat × OutcomeObservationDraft)} {found : List OutcomeObservationDraft}
  {m : OutcomeMetricDraft}

/-- A metric is empty, or it has the value of its kind over complete
dependencies. -/
theorem metric_draft (hfound : ((dependencies.filter fun item =>
        item.role ∈ [.observation, .pathMember]).mapM fun item =>
      getItem observations item.targetCheckpointId) = .ok found)
    (h : metric definition dependencies observations reference = .ok m) :
    (∃ status availability, status ≠ .partialStatus ∧ status ≠ .complete
        ∧ (∃ s ∈ dependencyStates dependencies found reference, s ≠ .complete)
        ∧ m = metricDraft definition status availability (none, none, none))
      ∨ ∃ value, metricValue definition found reference.decimalValue = .ok value
        ∧ (∀ s ∈ dependencyStates dependencies found reference, s = .complete)
        ∧ m = metricDraft definition .complete .available value := by
  unfold metric at h
  rw [hfound, ok_bind] at h
  dsimp only at h
  split at h
  next hfailed =>
    exact .inl ⟨.failed, _, nofun, nofun, ⟨.failed, hfailed, nofun⟩,
      OutcomeMetricDraft.eq_of_postInit h⟩
  next hfailed =>
    split at h
    next hother =>
      exact .inl ⟨.unavailable, _, nofun, nofun, hother, OutcomeMetricDraft.eq_of_postInit h⟩
    next hcomplete =>
      simp only [bind_ok] at h
      obtain ⟨value, hvalue, hresult⟩ := h
      refine .inr ⟨value, hvalue, ?_, OutcomeMetricDraft.eq_of_postInit hresult⟩
      intro s hs
      by_contra hne
      exact hcomplete ⟨s, hs, hne⟩

/-- A metric is not yet partial, and it has the identity and the kind of
its definition. -/
theorem metric_identity (hfound : ((dependencies.filter fun item =>
        item.role ∈ [.observation, .pathMember]).mapM fun item =>
      getItem observations item.targetCheckpointId) = .ok found)
    (h : metric definition dependencies observations reference = .ok m) :
    m.status ≠ .partialStatus ∧ m.targetMetricDefinitionId = definition.targetMetricDefinitionId
      ∧ m.metricKind = definition.metricKind
      ∧ (m.firstPassageAt.isSome → m.metricKind = .barrierHit) := by
  rcases metric_draft hfound h with
    ⟨status, availability, hincomplete, -, -, rfl⟩ | ⟨value, hvalue, -, rfl⟩
  · exact ⟨hincomplete, rfl, rfl, nofun⟩
  · exact ⟨nofun, rfl, rfl, metricValue_passage hvalue⟩

/-- A barrier whose path is complete passes first where its boundary is
first crossed. -/
theorem metric_passage {direction : OutcomeBarrierDirection} {e : Instant}
    (hfound : ((dependencies.filter fun item =>
        item.role ∈ [.observation, .pathMember]).mapM fun item =>
      getItem observations item.targetCheckpointId) = .ok found)
    (h : metric definition dependencies observations reference = .ok m)
    (hkind : definition.metricKind = .barrierHit)
    (hdirection : definition.barrierDirection = some direction) :
    m.firstPassageAt = some e ↔ (∀ o ∈ found, o.status = .complete)
      ∧ ∃ r ∈ reference.decimalValue, ∃ t ∈ definition.barrierThreshold,
        IsLeast (crossings found direction (barrierBoundary r direction t))
          e := by
  rcases metric_draft hfound h with
    ⟨status, availability, -, -, ⟨s, hs, hne⟩, rfl⟩ | ⟨value, hvalue, hall, rfl⟩
  · constructor
    · exact nofun
    · rintro ⟨hcomplete, r, hr, -⟩
      have hpresent : reference.decimalValue.isSome := by
        rw [hr]
        rfl
      exact absurd (states_complete dependencies hpresent hcomplete s hs) hne
  · have hcomplete : ∀ o ∈ found, o.status = .complete := fun o ho =>
      hall _ (mem_append_left _ (mem_map_of_mem ho))
    unfold metricValue at hvalue
    rw [hkind] at hvalue
    simp only [bind_ok, pure_ok, hdirection] at hvalue
    obtain ⟨r, hr, _, hd, t, ht, rfl⟩ := hvalue
    obtain rfl := Except.ok.inj hd
    have hr' : reference.decimalValue = some r := asserted_eq hr
    have ht' : definition.barrierThreshold = some t := asserted_eq ht
    rw [hr', ht']
    simp only [Option.mem_some_iff, exists_eq_left', and_iff_right hcomplete]
    exact head_crossings

theorem hit_iff_passage (hfound : ((dependencies.filter fun item =>
        item.role ∈ [.observation, .pathMember]).mapM fun item =>
      getItem observations item.targetCheckpointId) = .ok found)
    (h : metric definition dependencies observations reference = .ok m)
    (hkind : definition.metricKind = .barrierHit) :
    m.booleanValue = some true ↔ m.firstPassageAt.isSome := by
  rcases metric_draft hfound h with
    ⟨status, availability, -, -, -, rfl⟩ | ⟨value, hvalue, -, rfl⟩
  · exact ⟨nofun, nofun⟩
  · unfold metricValue at hvalue
    rw [hkind] at hvalue
    simp only [bind_ok, pure_ok] at hvalue
    obtain ⟨r, -, direction, -, t, -, rfl⟩ := hvalue
    simp only [metricDraft, Option.some.injEq, decide_eq_true_eq,
      Option.isSome_map, isSome_head?]

end Metric

-- ==== the paths

section Path

variable (hsources : sources.map (·.scope.targetCheckpointId)
  = target.checkpoints.map (·.targetCheckpointId))
  {definition : OutcomeMetricDefinition} {found : List OutcomeObservationDraft}
  (hfound : (((dependenciesOf target.dependencies
      definition.targetMetricDefinitionId).filter fun item =>
        item.role ∈ [.observation, .pathMember]).mapM fun item =>
      getItem (byCheckpoint (observationsOf target sources)) item.targetCheckpointId) = .ok found)
include hsources hfound

/-- The observations of a metric are those of its path. -/
theorem mem_found {o : OutcomeObservationDraft} : o ∈ found
    ↔ ∃ s ∈ pathSources target sources definition, ∃ checkpoint,
      (checkpoint, s) ∈ target.checkpoints.zip sources ∧ o = observationDraft checkpoint s := by
  have hnodup := observationsOf_nodup hsources
  have hknown : ∀ d ∈ dependenciesOf target.dependencies
      definition.targetMetricDefinitionId, d.role ≠ .reference → d.targetCheckpointId
          ∈ (observationsOf target sources).map (·.targetCheckpointId) := by
    intro d hd hne
    have hknown := target.checkpoint_known d (mem_filter.mp hd).1
    rw [if_neg hne] at hknown
    rw [observationsOf_ids hsources]
    exact hknown
  obtain ⟨found', hfound', hall⟩ := found_ok _ _ hnodup hknown
  obtain rfl := Except.ok.inj (hfound.symm.trans hfound')
  constructor
  · intro ho
    obtain ⟨d, hd, hin, hid⟩ := forall₂_right hall ho
    obtain ⟨⟨checkpoint, s⟩, hpair, rfl⟩ := mem_map.mp hin
    refine ⟨s, mem_filter.mpr ⟨(of_mem_zip hpair).2, ?_⟩, checkpoint, hpair, rfl⟩
    obtain ⟨hd, hrole⟩ := mem_filter.mp hd
    have hother := (observed_iff _).mp (of_decide_eq_true hrole)
    rw [observationDraft_checkpoint] at hid
    refine any_eq_true.mpr ⟨d, hd, ?_⟩
    rw [Bool.and_eq_true]
    exact ⟨decide_eq_true hother, decide_eq_true hid.symm⟩
  · rintro ⟨s, hs, checkpoint, hpair, rfl⟩
    obtain ⟨d, hd, hmatch⟩ := any_eq_true.mp (mem_filter.mp hs).2
    obtain ⟨hother, hid⟩ := Bool.and_eq_true_iff.mp hmatch
    obtain ⟨o, ho, hin, hid'⟩ := forall₂_left hall (mem_filter.mpr
      ⟨hd, decide_eq_true ((observed_iff _).mpr (of_decide_eq_true hother))⟩)
    have hpaired : observationDraft checkpoint s ∈ observationsOf target sources :=
      mem_map_of_mem (f := fun pair => observationDraft pair.1 pair.2) hpair
    have hsame : o = observationDraft checkpoint s := by
      apply inj_on_of_nodup_map hnodup hin hpaired
      rw [hid', observationDraft_checkpoint]
      exact of_decide_eq_true hid
    rwa [← hsame]

omit hfound in
theorem exists_checkpoint {s : OutcomeObservationSource} (hs : s ∈ sources) :
    ∃ checkpoint, (checkpoint, s) ∈ target.checkpoints.zip sources := by
  rw [← zip_snd hsources] at hs
  obtain ⟨⟨checkpoint, s⟩, hpair, rfl⟩ := mem_map.mp hs
  exact ⟨checkpoint, hpair⟩

/-- The observations of a metric are complete when its path has bars
only. -/
theorem complete_found : (∀ o ∈ found, o.status = .complete)
    ↔ ∀ s ∈ pathSources target sources definition, ∃ bar, s = .bar bar := by
  constructor
  · intro hcomplete s hs
    obtain ⟨checkpoint, hpair⟩ := exists_checkpoint hsources (mem_filter.mp hs).1
    have ho := (mem_found hsources hfound).mpr ⟨s, hs, checkpoint, hpair, rfl⟩
    apply bar_of_complete
    rw [← observationDraft_status checkpoint]
    exact hcomplete _ ho
  · intro hbars o ho
    obtain ⟨s, hs, checkpoint, -, rfl⟩ := (mem_found hsources hfound).mp ho
    obtain ⟨bar, rfl⟩ := hbars s hs
    rfl

/-- The instants at which a boundary is crossed are those of the bars that
reach it. -/
theorem crossings_found {r t : ℚ} {direction : OutcomeBarrierDirection}
    (hr : reference.decimalValue = some r) (ht : definition.barrierThreshold = some t) :
    crossings found direction (barrierBoundary r direction t)
      = {e | ∃ bar, .bar bar ∈ pathSources target sources definition
        ∧ Reaches reference definition direction bar ∧ bar.eventEnd = e} := by
  have hreaches : ∀ checkpoint bar, crosses direction
      (barrierBoundary r direction t) (observationDraft checkpoint (.bar bar))
        ↔ Reaches reference definition direction bar := by
    unfold Reaches crosses
    rw [hr, ht]
    cases direction with
    | up => simp [observationDraft]
    | down => simp [observationDraft]
  ext e
  constructor
  · rintro ⟨o, ho, hcross, rfl⟩
    obtain ⟨s, hs, checkpoint, -, rfl⟩ := (mem_found hsources hfound).mp ho
    cases s with
    | bar bar => exact ⟨bar, hs, (hreaches checkpoint bar).mp hcross, rfl⟩
    | gap gap =>
      cases direction with
      | up => cases hcross
      | down => cases hcross
  · rintro ⟨bar, hs, hreach, rfl⟩
    obtain ⟨checkpoint, hpair⟩ := exists_checkpoint hsources (mem_filter.mp hs).1
    exact ⟨observationDraft checkpoint (.bar bar), (mem_found hsources hfound).mpr
      ⟨_, hs, checkpoint, hpair, rfl⟩, (hreaches checkpoint bar).mpr hreach, rfl⟩

end Path

-- ==== the reasons

section Reasons

variable {observations : List OutcomeObservationDraft} {metrics : List OutcomeMetricDraft}
  {affected : List Nat}

theorem mem_reasons {drafts : List OutcomeReasonDraft} {v : ReasonValue}
    (h : reasons observations metrics affected = .ok drafts) :
    v ∈ drafts.map (·.value) ↔ v ∈ reasonValues observations metrics affected := by
  have hmap := map_mapM_ok (g := OutcomeReasonDraft.value) (k := Prod.fst) (by
    rintro ⟨value, ordinal⟩ r hr
    unfold OutcomeReasonDraft.postInit at hr
    simp only [bind_ok, require_ok, pure_ok] at hr
    obtain ⟨_, -, _, -, rfl⟩ := hr
    rfl) h
  rw [hmap, zipIdx_map_fst, (sortBy_perm _ _).mem_iff, mem_dedup]

theorem ambiguous_iff_affected
    (h : reasons observations metrics affected = .ok draft.reasons) {id : Nat} :
    Ambiguous draft id ↔ id ∈ affected := by
  constructor
  · rintro ⟨r, hr, hcode, hid⟩
    have hin := (mem_reasons h).mp (mem_map_of_mem (f := OutcomeReasonDraft.value) hr)
    rcases mem_append.mp hin with hin | hin
    · rcases mem_append.mp hin with hin | hin
      · obtain ⟨o, -, heq⟩ := mem_map.mp hin
        have hnone : none = r.targetMetricDefinitionId :=
          congrArg (fun v : ReasonValue => v.2.2.2) heq
        rw [hid] at hnone
        cases hnone
      · obtain ⟨m, -, heq⟩ := mem_map.mp hin
        have hother : "METRIC_" ++ m.status.text = r.reasonCode :=
          congrArg (fun v : ReasonValue => v.2.1) heq
        exact absurd (hother.trans hcode) (metricReason_ne m.status)
    · obtain ⟨id', hid', heq⟩ := mem_map.mp hin
      have hsome : some id' = r.targetMetricDefinitionId :=
        congrArg (fun v : ReasonValue => v.2.2.2) heq
      rw [hid] at hsome
      rwa [← Option.some.inj hsome]
  · intro hin
    have hvalue : ((.metric, "INTRABAR_ORDERING_NOT_OBSERVABLE", none,
        some id) : ReasonValue) ∈ draft.reasons.map (·.value) :=
      (mem_reasons h).mpr (mem_append_right _ (mem_map_of_mem hin))
    obtain ⟨r, hr, heq⟩ := mem_map.mp hvalue
    exact ⟨r, hr, congrArg (fun v : ReasonValue => v.2.1) heq,
      congrArg (fun v : ReasonValue => v.2.2.2) heq⟩

end Reasons

-- ==== the revision

theorem OutcomeRevisionDraft.eq_of_postInit {r r' : OutcomeRevisionDraft}
    (h : r.postInit = .ok r') : r' = r := by
  unfold OutcomeRevisionDraft.postInit at h
  simp only [bind_ok, require_ok, pure_ok] at h
  obtain ⟨_, -, _, -, _, -, _, -, _, -, _, -, _, -, rfl⟩ := h
  rfl

theorem calculate_parts (h : calculateMarketTargetOutcome combine target
      reference sessions sources observationCutoff knowledgeCutoff = .ok draft) :
    ∃ calculated affected, (target.metrics.mapM fun definition =>
        metric definition (dependenciesOf target.dependencies definition.targetMetricDefinitionId)
          (byCheckpoint (observationsOf target sources)) reference)
          = .ok calculated
      ∧ applyBarrierAmbiguity target calculated = .ok (draft.metrics, affected)
      ∧ reasons (observationsOf target sources) draft.metrics affected = .ok draft.reasons := by
  obtain ⟨_, -, h⟩ := bind_ok.mp h
  rw [observations_ok, ok_bind] at h
  simp only [bind_ok] at h
  obtain ⟨calculated, hcalculated, ⟨metrics, affected⟩, hambiguity, _, -, _, -,
    drafts, hreasons, hdraft⟩ := h
  rw [OutcomeRevisionDraft.eq_of_postInit hdraft]
  exact ⟨calculated, affected, hcalculated, hambiguity, hreasons⟩

structure Drawn (target : OutcomeTargetDefinition) (reference : FrozenDecisionReference)
    (sources : List OutcomeObservationSource) (d : OutcomeMetricDefinition)
    (m : OutcomeMetricDraft) : Prop where
  member : d ∈ target.metrics
  id : m.targetMetricDefinitionId = d.targetMetricDefinitionId
  kind : m.metricKind = d.metricKind
  fresh : m.status ≠ .partialStatus
  hit_iff : d.metricKind = .barrierHit → (m.booleanValue = some true ↔ m.firstPassageAt.isSome)
  passage : ∀ direction e, FirstReached target reference sources d direction e
    ↔ d.metricKind = .barrierHit ∧ d.barrierDirection = some direction ∧ m.firstPassageAt = some e

theorem metric_drawn (hsources : sources.map (·.scope.targetCheckpointId)
      = target.checkpoints.map (·.targetCheckpointId))
    {d : OutcomeMetricDefinition} {m : OutcomeMetricDraft}
    (hd : d ∈ target.metrics)
    (h : metric d (dependenciesOf target.dependencies d.targetMetricDefinitionId)
      (byCheckpoint (observationsOf target sources)) reference = .ok m) :
    Drawn target reference sources d m := by
  obtain ⟨found, hfound, -⟩ := bind_ok.mp h
  obtain ⟨hfresh, hid, hkind, hpassage⟩ := metric_identity hfound h
  refine ⟨hd, hid, hkind, hfresh, hit_iff_passage hfound h, ?_⟩
  intro direction e
  constructor
  · rintro ⟨-, hbarrier, hdirection, hcomplete, hleast⟩
    refine ⟨hbarrier, hdirection, ?_⟩
    obtain ⟨bar, -, ⟨r, hr, t, ht, -⟩, -⟩ := hleast.1
    rw [← crossings_found hsources hfound hr ht] at hleast
    exact (metric_passage hfound h hbarrier hdirection).mpr
      ⟨(complete_found hsources hfound).mpr hcomplete, r, hr, t, ht, hleast⟩
  · rintro ⟨hbarrier, hdirection, he⟩
    obtain ⟨hcomplete, r, hr, t, ht, hleast⟩ := (metric_passage hfound h hbarrier hdirection).mp he
    rw [crossings_found hsources hfound hr ht] at hleast
    exact ⟨hd, hbarrier, hdirection, (complete_found hsources hfound).mp hcomplete, hleast⟩

section Law

variable {calculated : List OutcomeMetricDraft} {d : OutcomeMetricDefinition}
  {m : OutcomeMetricDraft}

theorem OutcomeMetricDefinition.direction_of_barrier
    (d : OutcomeMetricDefinition) (h : d.metricKind = .barrierHit) :
    ∃ direction, d.barrierDirection = some direction := by
  have hbarrier := d.barrier
  rw [if_pos h] at hbarrier
  exact Option.isSome_iff_exists.mp hbarrier.1

variable {direction : OutcomeBarrierDirection}

/-- A metric drawn from a definition faces the way that the definition
does. -/
theorem Drawn.faces_iff (h : Drawn target reference sources d m) : Faces target m direction
      ↔ d.metricKind = .barrierHit ∧ d.barrierDirection = some direction := by
  constructor
  · rintro ⟨d', hd', hid, hkind, hdirection⟩
    obtain rfl := inj_on_of_nodup_map target.metrics_unique hd' h.member (hid.trans h.id)
    exact ⟨hkind, hdirection⟩
  · rintro ⟨hkind, hdirection⟩
    exact ⟨d, h.member, h.id.symm, hkind, hdirection⟩

/-- The barriers of a direction that are hit are those with a first
passage. -/
theorem Drawn.mem_hitBarriers_iff (h : Drawn target reference sources d m) (hm : m ∈ calculated) :
    m ∈ hitBarriers target calculated direction
      ↔ d.metricKind = .barrierHit ∧ d.barrierDirection = some direction
        ∧ m.firstPassageAt.isSome := by
  have hkeys : (Lib.keys (target.metrics.map fun item =>
      (item.targetMetricDefinitionId, item))).Nodup := by
    unfold Lib.keys
    rw [map_map]
    exact target.metrics_unique
  have hlookup : (dictOf (target.metrics.map fun item =>
      (item.targetMetricDefinitionId, item))).lookup m.targetMetricDefinitionId = some d := by
    rw [dictOf_eq hkeys, h.id, lookup_eq_some_iff hkeys]
    exact mem_map_of_mem (f := fun item : OutcomeMetricDefinition =>
      (item.targetMetricDefinitionId, item)) h.member
  unfold hitBarriers
  rw [mem_filter, hlookup]
  simp [hm, h.kind, and_assoc]

@[simp] theorem mark_kind (affected : List Nat) (m : OutcomeMetricDraft) :
    (mark affected m).metricKind = m.metricKind := by
  unfold mark
  split
  next => rfl
  next => rfl

@[simp] theorem mark_boolean (affected : List Nat) (m : OutcomeMetricDraft) :
    (mark affected m).booleanValue = m.booleanValue := by
  unfold mark
  split
  next => rfl
  next => rfl

@[simp] theorem mark_passage (affected : List Nat) (m : OutcomeMetricDraft) :
    (mark affected m).firstPassageAt = m.firstPassageAt := by
  unfold mark
  split
  next => rfl
  next => rfl

variable {affected : List Nat} {e : Instant}

theorem mark_partial_iff (h : m.status ≠ .partialStatus) :
    (mark affected m).status = .partialStatus ↔ m.targetMetricDefinitionId ∈ affected := by
  unfold mark
  split
  next hin => exact ⟨fun _ => hin, fun _ => rfl⟩
  next hout => exact ⟨fun heq => absurd heq h, fun hin => absurd hin hout⟩

theorem faces_mark : Faces target (mark affected m) direction ↔ Faces target m direction := by
  unfold Faces
  rw [mark_id]

/-- The calculated metrics are those of the Target, each drawn from its
definition. -/
structure AllDrawn (target : OutcomeTargetDefinition) (reference : FrozenDecisionReference)
    (sources : List OutcomeObservationSource)
    (calculated : List OutcomeMetricDraft) : Prop where
  drawn : ∀ m ∈ calculated, ∃ d, Drawn target reference sources d m
  all : ∀ d ∈ target.metrics, ∃ m ∈ calculated, Drawn target reference sources d m
  nodup : (calculated.map (·.targetMetricDefinitionId)).Nodup

theorem allDrawn (hsources : sources.map (·.scope.targetCheckpointId)
      = target.checkpoints.map (·.targetCheckpointId))
    (h : (target.metrics.mapM fun definition =>
      metric definition (dependenciesOf target.dependencies definition.targetMetricDefinitionId)
        (byCheckpoint (observationsOf target sources)) reference)
        = .ok calculated) :
    AllDrawn target reference sources calculated := by
  constructor
  case drawn =>
    intro m hm
    obtain ⟨d, hd, hmetric⟩ := mem_mapM_ok h m hm
    exact ⟨d, metric_drawn hsources hd hmetric⟩
  case all =>
    intro d hd
    obtain ⟨m, hm, hmetric⟩ := mapM_ok_mem h d hd
    exact ⟨m, hm, metric_drawn hsources hd hmetric⟩
  case nodup =>
    have hids := map_mapM_ok (g := OutcomeMetricDraft.targetMetricDefinitionId)
      (k := OutcomeMetricDefinition.targetMetricDefinitionId) (by
        intro d m hmetric
        obtain ⟨found, hfound, -⟩ := bind_ok.mp hmetric
        exact (metric_identity hfound hmetric).2.1) h
    rw [hids]
    exact target.metrics_unique

variable (h : AllDrawn target reference sources calculated)

include h in
theorem AllDrawn.mem_passages : e ∈ passages target calculated direction
      ↔ ∃ d, FirstReached target reference sources d direction e := by
  constructor
  · rintro ⟨m, hm, he⟩
    have hin := (mem_hitBarriers hm).1
    obtain ⟨d, hdrawn⟩ := h.drawn m hin
    obtain ⟨hkind, hdirection, -⟩ := (hdrawn.mem_hitBarriers_iff hin).mp hm
    exact ⟨d, (hdrawn.passage direction e).mpr ⟨hkind, hdirection, he⟩⟩
  · rintro ⟨d, hd⟩
    obtain ⟨m, hm, hdrawn⟩ := h.all d hd.member
    obtain ⟨hkind, hdirection, he⟩ := (hdrawn.passage direction e).mp hd
    refine ⟨m, (hdrawn.mem_hitBarriers_iff hm).mpr ⟨hkind, hdirection, ?_⟩, he⟩
    rw [he]
    rfl

include h in
/-- A calculated barrier is named when its first passage is that of both
directions. -/
theorem AllDrawn.affected_iff {metrics : List OutcomeMetricDraft}
    (hambiguity : applyBarrierAmbiguity target calculated = .ok (metrics, affected))
    (hm : m ∈ calculated) (he : m.firstPassageAt = some e) (hfaces : Faces target m direction) :
    m.targetMetricDefinitionId ∈ affected ↔ IsLeast (passages target calculated .up) e
        ∧ IsLeast (passages target calculated .down) e := by
  rw [mem_affected hambiguity]
  constructor
  · rintro ⟨e', hup, hdown, _, m', hm', he', hid⟩
    obtain rfl := inj_on_of_nodup_map h.nodup (mem_hitBarriers hm').1 hm hid
    obtain rfl := Option.some.inj (he.symm.trans he')
    exact ⟨hup, hdown⟩
  · rintro ⟨hup, hdown⟩
    obtain ⟨d, hdrawn⟩ := h.drawn m hm
    obtain ⟨hkind, hdirection⟩ := hdrawn.faces_iff.mp hfaces
    refine ⟨e, hup, hdown, direction, m, ?_, he, rfl⟩
    apply (hdrawn.mem_hitBarriers_iff hm).mpr ⟨hkind, hdirection, ?_⟩
    rw [he]
    rfl

end Law

/-- The intrabar law holds of a revision if and only if every bar in which
barriers of both directions are first reached comes before every other
first passage. -/
theorem intrabar_law_iff (combine : Int → Nat → String → Instant)
    (target : OutcomeTargetDefinition) (reference : FrozenDecisionReference)
    (sessions : List OutcomeSessionSource)
    (sources : List OutcomeObservationSource)
    (observationCutoff knowledgeCutoff : Instant)
    (draft : OutcomeRevisionDraft)
    (h : calculateMarketTargetOutcome combine target reference sessions sources
      observationCutoff knowledgeCutoff = .ok draft) :
    IntrabarLaw target draft ↔ SharedFirst target reference sources := by
  obtain ⟨calculated, affected, hcalculated, hambiguity, hreasons⟩ :=
    calculate_parts h
  have hall := allDrawn (validateInputs_ok (validated h)).1 hcalculated
  have hmetrics := marked hambiguity
  constructor
  · intro hlaw upper lower e hupper hlower d direction e' hd
    obtain ⟨m, hm, hdrawn⟩ := hall.all upper hupper.member
    obtain ⟨hkind, hup, he⟩ := (hdrawn.passage .up e).mp hupper
    obtain ⟨m', hm', hdrawn'⟩ := hall.all lower hlower.member
    obtain ⟨hkind', hdown, he'⟩ := (hdrawn'.passage .down e).mp hlower
    have hfaces : Faces target m .up := hdrawn.faces_iff.mpr ⟨hkind, hup⟩
    have hnamed := hlaw (mark affected m) (by rw [hmetrics]; exact mem_map_of_mem hm)
      (by rw [mark_kind, hdrawn.kind, hkind])
      (by rw [mark_boolean, hdrawn.hit_iff hkind, he]; rfl)
    rw [mark_id, ambiguous_iff_affected hreasons, mark_partial_iff hdrawn.fresh, and_self] at hnamed
    have hin := hnamed.mpr ⟨.up, faces_mark.mpr hfaces, mark affected m',
      by rw [hmetrics]; exact mem_map_of_mem hm',
      faces_mark.mpr (hdrawn'.faces_iff.mpr ⟨hkind', hdown⟩),
      by rw [mark_passage, mark_passage, he, he']⟩
    obtain ⟨hleast, hleast'⟩ := (hall.affected_iff hambiguity hm he hfaces).mp hin
    have hmem := hall.mem_passages.mpr ⟨d, hd⟩
    cases direction with
    | up => exact hleast.2 hmem
    | down => exact hleast'.2 hmem
  · intro hshared marked hmarked hkind hhit
    rw [hmetrics] at hmarked
    obtain ⟨m, hm, rfl⟩ := mem_map.mp hmarked
    obtain ⟨d, hdrawn⟩ := hall.drawn m hm
    rw [mark_kind, hdrawn.kind] at hkind
    rw [mark_boolean, hdrawn.hit_iff hkind] at hhit
    obtain ⟨e, he⟩ := Option.isSome_iff_exists.mp hhit
    rw [mark_id, ambiguous_iff_affected hreasons, mark_partial_iff hdrawn.fresh, and_self]
    constructor
    · intro hin
      obtain ⟨direction, hdirection⟩ := d.direction_of_barrier hkind
      have hfaces : Faces target m direction := hdrawn.faces_iff.mpr ⟨hkind, hdirection⟩
      obtain ⟨hup, hdown⟩ := (hall.affected_iff hambiguity hm he hfaces).mp hin
      have hother : e ∈ passages target calculated direction.opposite := by
        cases direction with
        | up => exact hdown.1
        | down => exact hup.1
      obtain ⟨m', hm', he'⟩ := hother
      have hin' := (mem_hitBarriers hm').1
      obtain ⟨d', hdrawn'⟩ := hall.drawn m' hin'
      obtain ⟨hkind', hdirection', -⟩ := (hdrawn'.mem_hitBarriers_iff hin').mp hm'
      refine ⟨direction, faces_mark.mpr hfaces, mark affected m', ?_,
        faces_mark.mpr (hdrawn'.faces_iff.mpr ⟨hkind', hdirection'⟩), ?_⟩
      · rw [hmetrics]
        exact mem_map_of_mem hin'
      · rw [mark_passage, mark_passage, he, he']
    · rintro ⟨direction, hfaces, other, hother, hfaces', he'⟩
      rw [hmetrics] at hother
      obtain ⟨m', hm', rfl⟩ := mem_map.mp hother
      rw [mark_passage, mark_passage, he] at he'
      rw [faces_mark] at hfaces hfaces'
      obtain ⟨d', hdrawn'⟩ := hall.drawn m' hm'
      have hfirst := (hdrawn.passage direction e).mpr ⟨hkind, (hdrawn.faces_iff.mp hfaces).2, he⟩
      have hfirst' := (hdrawn'.passage direction.opposite e).mpr
        ⟨(hdrawn'.faces_iff.mp hfaces').1, (hdrawn'.faces_iff.mp hfaces').2, he'⟩
      obtain ⟨hup, hdown⟩ : (∃ d, FirstReached target reference sources d .up e)
          ∧ ∃ d, FirstReached target reference sources d .down e := by
        cases direction with
        | up => exact ⟨⟨d, hfirst⟩, d', hfirst'⟩
        | down => exact ⟨⟨d', hfirst'⟩, d, hfirst⟩
      obtain ⟨upper, hupper⟩ := hup
      obtain ⟨lower, hlower⟩ := hdown
      have hlower_bound : ∀ side e', e' ∈ passages target calculated side → e ≤ e' := by
        intro side e' hmem
        obtain ⟨first, hreached⟩ := hall.mem_passages.mp hmem
        exact hshared upper lower e hupper hlower first side e' hreached
      apply (hall.affected_iff hambiguity hm he hfaces).mpr
      exact ⟨⟨hall.mem_passages.mpr ⟨upper, hupper⟩, hlower_bound .up⟩,
        hall.mem_passages.mpr ⟨lower, hlower⟩, hlower_bound .down⟩

def barrierAt (id : Nat) (ordinal : Int) (h : 1 ≤ ordinal)
    (direction : OutcomeBarrierDirection) (t : ℚ) (ht : 0 < t) :
    OutcomeMetricDefinition :=
  { sampleBarrier with
    targetMetricDefinitionId := id
    ordinal := ordinal
    barrierDirection := some direction
    barrierThreshold := some t
    identity := ⟨h, sampleBarrier.identity.2⟩
    barrier := ⟨rfl, rfl⟩
    threshold_positive := by
      intro threshold hthreshold
      rwa [← Option.mem_some_iff.mp hthreshold] }

def twoCheckpoints : List OutcomeCheckpoint :=
  [{ sampleCheckpoint 11 .closeField 1 first_ordinal with
      localTime := 50400000000
      minute := by decide },
    sampleCheckpoint 12 .closeField 2 second_ordinal]

/-- Two barriers above, a twentieth and a tenth, and one below. -/
def threeBarriers : OutcomeTargetDefinition :=
  { sampleTarget with
    checkpoints := twoCheckpoints
    metrics := [barrierAt 21 1 first_ordinal .up (1 / 20) (by norm_num),
      barrierAt 22 2 second_ordinal .up (1 / 10) (by norm_num),
      barrierAt 23 3 third_ordinal .down (1 / 20) (by norm_num)]
    dependencies := [sampleDependency 1 first_ordinal 21 10 .reference,
      sampleDependency 2 second_ordinal 21 11 .pathMember,
      sampleDependency 3 third_ordinal 21 12 .pathMember,
      sampleDependency 4 fourth_ordinal 22 10 .reference,
      sampleDependency 5 (by decide) 22 11 .pathMember,
      sampleDependency 6 (by decide) 22 12 .pathMember,
      sampleDependency 7 (by decide) 23 10 .reference,
      sampleDependency 8 (by decide) 23 11 .pathMember,
      sampleDependency 9 (by decide) 23 12 .pathMember]
    nonempty := by simp [twoCheckpoints]
    checkpoints_ordered := sampleTarget.checkpoints_ordered
    metrics_contiguous := by decide
    dependencies_contiguous := by decide
    checkpoints_unique := by decide
    metrics_unique := by decide
    metric_known := by decide
    checkpoint_known := by decide
    bindings_unique := by decide
    roles := by decide
    daily_scope := by
      intro m hm hkind
      simp only [mem_cons, not_mem_nil, or_false] at hm
      rcases hm with rfl | rfl | rfl
      · cases hkind
      · cases hkind
      · cases hkind }

/-- The first bar reaches a twentieth above, the second the other two
barriers. -/
def twoBars : List OutcomeObservationSource :=
  [.bar { sampleBar 11 1 first_ordinal with
      eventEnd := 50400000000
      lowValue := 99
      ordered := by decide
      values_positive := by norm_num [sampleBar]
      high_greatest := by norm_num [sampleBar]
      low_least := by norm_num [sampleBar] },
    .bar { sampleBar 12 2 second_ordinal with
      highValue := 111
      values_positive := by norm_num [sampleBar]
      high_greatest := by norm_num [sampleBar]
      low_least := by norm_num [sampleBar] }]

set_option synthInstance.maxSize 256 in
theorem three_barriers_run : ∃ draft, calculateMarketTargetOutcome
      sampleCombine threeBarriers sampleReference [sampleSession] twoBars
        54000000000 54000000000 = .ok draft
    ∧ draft.metrics.map (fun m => (m.targetMetricDefinitionId, m.metricKind,
        m.booleanValue, m.status, m.firstPassageAt))
      = [(21, .barrierHit, some true, .complete, some 50400000000),
        (22, .barrierHit, some true, .complete, some 54000000000),
        (23, .barrierHit, some true, .complete, some 54000000000)] := by
  have hrun : ((calculateMarketTargetOutcome sampleCombine threeBarriers
      sampleReference [sampleSession] twoBars 54000000000
        54000000000).toOption.map fun draft => draft.metrics.map fun m =>
          (m.targetMetricDefinitionId, m.metricKind, m.booleanValue, m.status, m.firstPassageAt))
      = some [(21, .barrierHit, some true, .complete, some 50400000000),
        (22, .barrierHit, some true, .complete, some 54000000000),
        (23, .barrierHit, some true, .complete, some 54000000000)] := by
    decide +kernel
  obtain ⟨draft, hdraft, hmetrics⟩ := Option.map_eq_some_iff.mp hrun
  refine ⟨draft, ?_, hmetrics⟩
  cases hresult : calculateMarketTargetOutcome sampleCombine threeBarriers
      sampleReference [sampleSession] twoBars 54000000000 54000000000 with
  | error e =>
    rw [hresult] at hdraft
    cases hdraft
  | ok draft' =>
    rw [hresult] at hdraft
    rw [Option.some.inj hdraft]

/-- The law of the run, by its condition. -/
theorem intrabar_law_three_barriers : ∃ draft, calculateMarketTargetOutcome
      sampleCombine threeBarriers sampleReference [sampleSession] twoBars
        54000000000 54000000000 = .ok draft
    ∧ (IntrabarLaw threeBarriers draft ↔ SharedFirst threeBarriers sampleReference twoBars) := by
  obtain ⟨draft, hdraft, -⟩ := three_barriers_run
  exact ⟨draft, hdraft, intrabar_law_iff _ _ _ _ _ _ _ _ hdraft⟩

/-- The tenth above and the barrier below are reached in one bar, and
neither is marked. -/
theorem hidden_by_earlier_passage : ∃ draft, calculateMarketTargetOutcome
      sampleCombine threeBarriers sampleReference [sampleSession] twoBars
        54000000000 54000000000 = .ok draft
    ∧ ¬ IntrabarLaw threeBarriers draft := by
  obtain ⟨draft, hdraft, hmetrics⟩ := three_barriers_run
  refine ⟨draft, hdraft, fun hlaw => ?_⟩
  have hin : ∀ x ∈ [(21, OutcomeMetricKind.barrierHit, some true,
        OutcomeStatus.complete, some (50400000000 : Instant)),
      (22, .barrierHit, some true, .complete, some 54000000000),
      (23, .barrierHit, some true, .complete, some 54000000000)],
      ∃ m ∈ draft.metrics, (m.targetMetricDefinitionId, m.metricKind,
        m.booleanValue, m.status, m.firstPassageAt) = x := by
    rw [← hmetrics]
    exact fun x hx => mem_map.mp hx
  obtain ⟨m, hm, heq⟩ := hin _ (mem_cons_of_mem _ mem_cons_self)
  obtain ⟨m', hm', heq'⟩ := hin _ (mem_cons_of_mem _
    (mem_cons_of_mem _ mem_cons_self))
  simp only [Prod.mk.injEq] at heq heq'
  obtain ⟨hid, hkind, hhit, hstatus, hpassage⟩ := heq
  obtain ⟨hid', -, -, -, hpassage'⟩ := heq'
  have hincomplete := (hlaw m hm hkind hhit).mpr ⟨.up,
    ⟨barrierAt 22 2 second_ordinal .up (1 / 10) (by norm_num),
      by simp [threeBarriers], by rw [hid]; rfl, rfl, rfl⟩,
    m', hm', ⟨barrierAt 23 3 third_ordinal .down (1 / 20) (by norm_num),
      by simp [threeBarriers], by rw [hid']; rfl, rfl, rfl⟩,
    hpassage'.trans hpassage.symm⟩
  cases hstatus.symm.trans hincomplete.1

end MarketRegimeAlpha.Outcome
