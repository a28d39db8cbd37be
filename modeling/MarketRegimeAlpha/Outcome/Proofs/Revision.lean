/-
The parts of an Outcome revision, from its inputs to its aggregate.

# From the inputs to the parts

Accepted inputs have one source for each checkpoint, in order, so the
observations are found by their checkpoint and every metric has its
`MetricOf` draft (`calculated_ok`). The ambiguity makes some barriers
partial and leaves all else (`applyBarrierAmbiguity_ok`). The reasons
are then the statuses that are left, without duplicates
(`reasons_ok`), and the aggregate is read off the required metrics
(`rollUp_spec`).
-/
import MarketRegimeAlpha.Outcome.Proofs.Metrics

namespace MarketRegimeAlpha.Outcome

open Lib List

variable {target : OutcomeTargetDefinition} {reference : FrozenDecisionReference}
  {sessions : List OutcomeSessionSource} {sources : List OutcomeObservationSource}
  {combine : Int → Nat → String → Instant} {observationCutoff knowledgeCutoff : Instant}

-- ==== the inputs

theorem getItem_ok {ν : Type _} {dict : List (Nat × ν)} {key : Nat} {value : ν}
    (h : getItem dict key = .ok value) : dict.lookup key = some value := by
  unfold getItem at h
  split at h
  next v hv =>
    injection h with h
    rw [hv, h]
  next => cases h

theorem validateInputs_ok {u : Unit}
    (h : validateInputs combine target sessions sources observationCutoff knowledgeCutoff = .ok u) :
    sources.map (·.scope.targetCheckpointId) = target.checkpoints.map (·.targetCheckpointId)
      ∧ sessions ≠ [] := by
  unfold validateInputs at h
  simp only [bind_ok, require_ok] at h
  obtain ⟨-, -, -, hoffsets, -, -, -, -, -, -, ordered, hordered, -, rfl, -⟩ := h
  constructor
  · apply map_mapM_ok ?_ hordered
    intro checkpoint source hsource
    obtain ⟨before, after, hsplit, -⟩ := List.lookup_eq_some_iff.mp (getItem_ok hsource)
    have hitem : (checkpoint.targetCheckpointId, source)
        ∈ before ++ (checkpoint.targetCheckpointId, source) :: after := by simp
    rw [← hsplit] at hitem
    obtain ⟨source', -, heq⟩ := mem_map.mp (mem_dictOf hitem)
    obtain ⟨hid, rfl⟩ := Prod.mk.inj heq
    exact hid
  · rintro rfl
    obtain ⟨checkpoint, hcheckpoint⟩ := exists_mem_of_ne_nil _ target.nonempty.1
    have hin : checkpoint.sessionOffset ∈ (target.checkpoints.map (·.sessionOffset)).toFinset :=
      mem_toFinset.mpr (mem_map_of_mem hcheckpoint)
    rw [← hoffsets] at hin
    simp [Lib.keys, dictOf] at hin

def observationsOf (target : OutcomeTargetDefinition)
    (sources : List OutcomeObservationSource) : List OutcomeObservationDraft :=
  (target.checkpoints.zip sources).map fun pair => observationDraft pair.1 pair.2

theorem observations_ok : ((target.checkpoints.zip sources).mapM fun pair =>
      observation pair.1 pair.2) = .ok (observationsOf target sources) :=
  mapM_ok_map fun pair _ => observation_ok pair.1 pair.2

section Observations

variable (hsources : sources.map (·.scope.targetCheckpointId)
  = target.checkpoints.map (·.targetCheckpointId))
include hsources

theorem length_sources : sources.length = target.checkpoints.length := by
  simpa using congrArg List.length hsources

theorem zip_snd : (target.checkpoints.zip sources).map (·.2) = sources :=
  map_snd_zip (length_sources hsources).le

theorem observationsOf_status : (observationsOf target sources).map (fun o =>
      (o.targetCheckpointId, o.status))
    = sources.map fun s => (s.scope.targetCheckpointId, s.status) := by
  unfold observationsOf
  rw [map_map]
  conv_rhs => rw [← zip_snd hsources, map_map]
  apply map_congr_left
  simp

theorem observationsOf_ids : (observationsOf target sources).map
    (·.targetCheckpointId) = target.checkpoints.map (·.targetCheckpointId) := by
  have h := congrArg (List.map Prod.fst) (observationsOf_status hsources)
  rw [map_map, map_map] at h
  exact h.trans hsources

theorem observationsOf_nodup :
    ((observationsOf target sources).map (·.targetCheckpointId)).Nodup := by
  rw [observationsOf_ids hsources]
  exact target.checkpoints_unique

end Observations

def byCheckpoint (observations : List OutcomeObservationDraft) :
    List (Nat × OutcomeObservationDraft) :=
  dictOf (observations.map fun item => (item.targetCheckpointId, item))

theorem getItem_byCheckpoint {observations : List OutcomeObservationDraft}
    (hnodup : (observations.map (·.targetCheckpointId)).Nodup) {id : Nat}
    (hid : id ∈ observations.map (·.targetCheckpointId)) :
    ∃ o ∈ observations, o.targetCheckpointId = id
      ∧ getItem (byCheckpoint observations) id = .ok o := by
  obtain ⟨o, ho, rfl⟩ := mem_map.mp hid
  have hkeys : (Lib.keys (observations.map fun item =>
      (item.targetCheckpointId, item))).Nodup := by
    unfold Lib.keys
    rw [map_map]
    exact hnodup
  refine ⟨o, ho, rfl, ?_⟩
  unfold getItem byCheckpoint
  rw [dictOf_eq hkeys, (lookup_eq_some_iff hkeys).mpr
    (mem_map_of_mem (f := fun item : OutcomeObservationDraft =>
      (item.targetCheckpointId, item)) ho)]

-- ==== the metrics

/-- A dependency has this status: the reference has it, or the
observation at the dependency's checkpoint. -/
def DependencyHas (reference : FrozenDecisionReference)
    (observations : List OutcomeObservationDraft) (d : OutcomeMetricDependency)
    (status : OutcomeStatus) : Prop :=
  if d.role = .reference then referenceStatus reference = status
  else ∃ o ∈ observations, o.targetCheckpointId = d.targetCheckpointId ∧ o.status = status

/-- The same bar is behind the two checkpoints of every
`OBSERVATION_RETURN`. -/
def SameBar (target : OutcomeTargetDefinition) (sources : List OutcomeObservationSource) : Prop :=
  ∀ m ∈ target.metrics, m.metricKind = .observationReturn →
    ∀ first last, .bar first ∈ sources → .bar last ∈ sources →
      (dependenciesOf target.dependencies m.targetMetricDefinitionId).map
          (·.targetCheckpointId)
        = [first.targetCheckpointId, last.targetCheckpointId] →
      (first.barRevisionId, first.eventStart, first.eventEnd)
        = (last.barRevisionId, last.eventStart, last.eventEnd)

theorem found_ok (observations : List OutcomeObservationDraft)
    (dependencies : List OutcomeMetricDependency)
    (hnodup : (observations.map (·.targetCheckpointId)).Nodup)
    (hknown : ∀ d ∈ dependencies, d.role ≠ .reference →
      d.targetCheckpointId ∈ observations.map (·.targetCheckpointId)) :
    ∃ found, ((dependencies.filter fun item =>
        item.role ∈ [.observation, .pathMember]).mapM fun item =>
      getItem (byCheckpoint observations) item.targetCheckpointId) = .ok found
      ∧ List.Forall₂ (fun d o => o ∈ observations ∧ o.targetCheckpointId = d.targetCheckpointId)
        (dependencies.filter fun item =>
          item.role ∈ [.observation, .pathMember]) found := by
  apply mapM_ok_forall₂
  intro d hd
  obtain ⟨hd, hrole⟩ := mem_filter.mp hd
  have hne : d.role ≠ .reference := by
    intro heq
    rw [heq] at hrole
    exact absurd hrole (by decide)
  obtain ⟨o, ho, hid, hget⟩ := getItem_byCheckpoint hnodup (hknown d hd hne)
  exact ⟨o, hget, ho, hid⟩

theorem observed_iff (role : OutcomeDependencyRole) :
    role ∈ [.observation, .pathMember] ↔ role ≠ .reference := by
  cases role with
  | reference => decide
  | observation => decide
  | pathMember => decide

/-- The states of a metric are the statuses of its dependencies. -/
theorem mem_dependencyStates {observations found : List OutcomeObservationDraft}
    {dependencies : List OutcomeMetricDependency}
    (hnodup : (observations.map (·.targetCheckpointId)).Nodup)
    (hfound : List.Forall₂ (fun d o => o ∈ observations
        ∧ o.targetCheckpointId = d.targetCheckpointId)
      (dependencies.filter fun item => item.role ∈ [.observation, .pathMember]) found)
    {status : OutcomeStatus} :
    status ∈ dependencyStates dependencies found reference
      ↔ ∃ d ∈ dependencies, DependencyHas reference observations d status := by
  unfold dependencyStates
  rw [mem_append]
  constructor
  · rintro (hmem | hmem)
    · obtain ⟨o, ho, rfl⟩ := mem_map.mp hmem
      obtain ⟨d, hd, hin, hid⟩ := forall₂_right hfound ho
      obtain ⟨hd, hkind⟩ := mem_filter.mp hd
      refine ⟨d, hd, ?_⟩
      unfold DependencyHas
      rw [if_neg ((observed_iff _).mp (of_decide_eq_true hkind))]
      exact ⟨o, hin, hid, rfl⟩
    · by_cases hany : dependencies.any (·.role = .reference)
      · rw [if_pos hany] at hmem
        obtain ⟨d, hd, hreference⟩ := any_eq_true.mp hany
        refine ⟨d, hd, ?_⟩
        unfold DependencyHas
        rw [if_pos (of_decide_eq_true hreference)]
        exact (mem_singleton.mp hmem).symm
      · rw [if_neg hany] at hmem
        cases hmem
  · rintro ⟨d, hd, hhas⟩
    unfold DependencyHas at hhas
    by_cases hreference : d.role = .reference
    · right
      rw [if_pos hreference] at hhas
      have hany : dependencies.any (·.role = .reference) :=
        any_eq_true.mpr ⟨d, hd, decide_eq_true hreference⟩
      rw [if_pos hany]
      exact mem_singleton.mpr hhas.symm
    · left
      rw [if_neg hreference] at hhas
      obtain ⟨o, ho, hid, rfl⟩ := hhas
      obtain ⟨o', ho', hin, hid'⟩ := forall₂_left hfound (mem_filter.mpr
          ⟨hd, decide_eq_true ((observed_iff _).mpr hreference)⟩)
      have heq : o' = o := inj_on_of_nodup_map hnodup hin ho (hid'.trans hid.symm)
      exact mem_map_of_mem (heq ▸ ho')

/-- The draft of a metric before the ambiguity, with the states of its
dependencies. -/
def Calculated (target : OutcomeTargetDefinition) (reference : FrozenDecisionReference)
    (observations : List OutcomeObservationDraft)
    (definition : OutcomeMetricDefinition) (draft : OutcomeMetricDraft) :
    Prop :=
  ∃ states, MetricOf definition states draft
    ∧ ∀ status, status ∈ states ↔ ∃ d ∈ dependenciesOf target.dependencies
      definition.targetMetricDefinitionId, DependencyHas reference observations d status

theorem mem_observationsOf {o : OutcomeObservationDraft}
    (h : o ∈ observationsOf target sources) : ∃ checkpoint, ∃ source ∈ sources,
      o = observationDraft checkpoint source := by
  obtain ⟨⟨checkpoint, source⟩, hpair, rfl⟩ := mem_map.mp h
  exact ⟨checkpoint, source, (of_mem_zip hpair).2, rfl⟩

/-- Every metric is calculated from the states of its dependencies, or
the context signals. -/
theorem calculated_ok (reference : FrozenDecisionReference)
    (hsources : sources.map (·.scope.targetCheckpointId)
      = target.checkpoints.map (·.targetCheckpointId))
    (hsame : SameBar target sources) :
    (∃ calculated, (target.metrics.mapM fun definition =>
        metric definition (dependenciesOf target.dependencies definition.targetMetricDefinitionId)
          (byCheckpoint (observationsOf target sources)) reference)
          = .ok calculated
        ∧ List.Forall₂ (Calculated target reference
          (observationsOf target sources)) target.metrics calculated)
      ∨ (target.metrics.mapM fun definition =>
        metric definition (dependenciesOf target.dependencies definition.targetMetricDefinitionId)
          (byCheckpoint (observationsOf target sources)) reference)
          = .error .invalidOperation := by
  apply mapM_ok_or
  intro definition hdefinition
  have hnodup := observationsOf_nodup hsources
  obtain ⟨found, hget, hfound⟩ := found_ok (observationsOf target sources) (dependenciesOf
      target.dependencies definition.targetMetricDefinitionId) hnodup <| by
    intro d hd hne
    have hknown := target.checkpoint_known d (mem_filter.mp hd).1
    rw [if_neg hne] at hknown
    rw [observationsOf_ids hsources]
    exact hknown
  have hvalued : ∀ o ∈ found, o.status = .complete → Valued o := by
    intro o ho hcomplete
    obtain ⟨d, -, hin, -⟩ := forall₂_right hfound ho
    obtain ⟨checkpoint, source, -, rfl⟩ := mem_observationsOf hin
    rw [observationDraft_status] at hcomplete
    exact valued_of_complete hcomplete
  have hbars : definition.metricKind = .observationReturn → (∀ o ∈ found, o.status = .complete) →
      ∀ first last, found = [first, last] → (first.sourceFactId, first.eventStart, first.eventEnd)
          = (last.sourceFactId, last.eventStart, last.eventEnd) := by
    rintro hkind hcomplete first last rfl
    have hroles := target.roles definition hdefinition
    rw [hkind] at hroles
    have hpair : (dependenciesOf target.dependencies
        definition.targetMetricDefinitionId).map (·.role) = [.observation, .observation] := by
      simpa [OutcomeMetricKind.acceptsRoles] using hroles
    have hall : (dependenciesOf target.dependencies
        definition.targetMetricDefinitionId).filter (fun item =>
          item.role ∈ [.observation, .pathMember])
        = dependenciesOf target.dependencies
          definition.targetMetricDefinitionId := by
      apply filter_eq_self.mpr
      intro d hd
      have hrole := mem_map_of_mem (f := OutcomeMetricDependency.role) hd
      rw [hpair] at hrole
      simp only [mem_cons, not_mem_nil, or_false, or_self] at hrole
      rw [hrole]
      decide
    have hids := map_forall₂ hfound (g := OutcomeMetricDependency.targetCheckpointId)
      (k := OutcomeObservationDraft.targetCheckpointId)
      fun d o h => h.2.symm
    rw [hall] at hids
    obtain ⟨-, -, hin, -⟩ := forall₂_right hfound (b := first) (by simp)
    obtain ⟨c, s, hs, hfirst⟩ := mem_observationsOf hin
    obtain ⟨-, -, hin', -⟩ := forall₂_right hfound (b := last) (by simp)
    obtain ⟨c', s', hs', hlast⟩ := mem_observationsOf hin'
    have hdone := hcomplete first (by simp)
    have hdone' := hcomplete last (by simp)
    rw [hfirst, observationDraft_status] at hdone
    rw [hlast, observationDraft_status] at hdone'
    obtain ⟨bar, rfl⟩ := bar_of_complete hdone
    obtain ⟨bar', rfl⟩ := bar_of_complete hdone'
    rw [hfirst, hlast] at hids ⊢
    exact hsame definition hdefinition hkind bar bar' hs hs' hids
  rcases metric_ok reference (target.roles definition hdefinition) hget hvalued hbars with
    ⟨draft, hdraft, hof⟩ | herr
  · exact .inl ⟨draft, hdraft, _, hof, fun _ => mem_dependencyStates hnodup hfound⟩
  · exact .inr herr

variable {definition : OutcomeMetricDefinition} {states : List OutcomeStatus}
  {draft : OutcomeMetricDraft}

theorem MetricOf.definition_eq (h : MetricOf definition states draft) :
    draft.targetMetricDefinitionId = definition.targetMetricDefinitionId
      ∧ draft.ordinal = definition.ordinal
      ∧ draft.metricKind = definition.metricKind
      ∧ draft.completionRule = definition.completionRule := by
  cases h with
  | failed h => exact ⟨rfl, rfl, rfl, rfl⟩
  | unavailable hnot h => exact ⟨rfl, rfl, rfl, rfl⟩
  | complete h value htyped => exact ⟨rfl, rfl, rfl, rfl⟩

/-- A metric with a first passage is a complete barrier, whose draft may
be made partial. -/
theorem MetricOf.of_passage (h : MetricOf definition states draft)
    (hpassage : draft.firstPassageAt.isSome) :
    draft.metricKind = .barrierHit ∧ draft.status = .complete
      ∧ { draft with status := .partialStatus : OutcomeMetricDraft }.postInit
        = .ok { draft with status := .partialStatus } := by
  cases h with
  | failed h => cases hpassage
  | unavailable hnot h => cases hpassage
  | complete h value htyped =>
    refine ⟨?_, rfl, metricDraft_postInit definition .partialStatus
      rfl htyped⟩
    by_contra hkind
    have hkind : definition.metricKind ≠ .barrierHit := hkind
    unfold Typed at htyped
    rw [if_neg hkind] at htyped
    rw [show (metricDraft definition .complete .available value).firstPassageAt
      = value.2.2 from rfl, htyped.2.2] at hpassage
    cases hpassage

-- ==== the ambiguity

variable (affected : List Nat) (m : OutcomeMetricDraft)

/-- The metrics with these identities made partial. -/
def mark : OutcomeMetricDraft :=
  if m.targetMetricDefinitionId ∈ affected then
    { m with status := .partialStatus }
  else m

@[simp] theorem mark_id :
    (mark affected m).targetMetricDefinitionId = m.targetMetricDefinitionId := by
  unfold mark
  split
  next => rfl
  next => rfl

variable {metrics : List OutcomeMetricDraft}

theorem mem_hitBarriers {direction : OutcomeBarrierDirection}
    {m : OutcomeMetricDraft} (h : m ∈ hitBarriers target metrics direction) :
    m ∈ metrics ∧ m.firstPassageAt.isSome := by
  obtain ⟨hm, hcond⟩ := mem_filter.mp h
  simp only [Bool.and_eq_true] at hcond
  exact ⟨hm, hcond.2⟩

/-- The ambiguity makes some hit barriers partial, and names them. -/
theorem applyBarrierAmbiguity_ok (target : OutcomeTargetDefinition)
    (hnodup : (metrics.map (·.targetMetricDefinitionId)).Nodup)
    (hsplit : ∀ m ∈ metrics, m.firstPassageAt.isSome →
      { m with status := .partialStatus : OutcomeMetricDraft }.postInit
        = .ok { m with status := .partialStatus }) :
    ∃ affected : List Nat, affected.Nodup
      ∧ (∀ id ∈ affected, ∃ m ∈ metrics, m.targetMetricDefinitionId = id ∧ m.firstPassageAt.isSome)
      ∧ applyBarrierAmbiguity target metrics = .ok (metrics.map (mark affected), affected) := by
  have hnone : metrics.map (mark []) = metrics := by rw [show mark [] = id from rfl, map_id]
  unfold applyBarrierAmbiguity
  dsimp only
  split
  next firstUp ups firstDown downs hup hdown =>
    by_cases hdiffer : ups.foldl min firstUp ≠ downs.foldl min firstDown
    · rw [if_pos hdiffer]
      refine ⟨[], nodup_nil, nofun, ?_⟩
      rw [hnone]
      rfl
    · rw [if_neg hdiffer]
      generalize hraw : ((hitBarriers target metrics .up
        ++ hitBarriers target metrics .down).filter fun item =>
          item.firstPassageAt = some (ups.foldl min firstUp)).map
            (·.targetMetricDefinitionId) = raw
      have hsource : ∀ id ∈ raw, ∃ m ∈ metrics,
          m.targetMetricDefinitionId = id ∧ m.firstPassageAt.isSome := by
        rintro id hid
        rw [← hraw] at hid
        obtain ⟨m, hm, rfl⟩ := mem_map.mp hid
        rcases mem_append.mp (mem_filter.mp hm).1 with hm | hm
        · exact ⟨m, (mem_hitBarriers hm).1, rfl, (mem_hitBarriers hm).2⟩
        · exact ⟨m, (mem_hitBarriers hm).1, rfl, (mem_hitBarriers hm).2⟩
      have hmem : ∀ id, id ∈ sortBy uuidText raw.dedup ↔ id ∈ raw := by
        intro id
        rw [(sortBy_perm _ _).mem_iff, mem_dedup]
      refine ⟨sortBy uuidText raw.dedup, (sortBy_perm _ _).nodup_iff.mpr raw.nodup_dedup,
        fun id hid => hsource id ((hmem id).mp hid), ?_⟩
      have hmark : (metrics.mapM fun item =>
          if item.targetMetricDefinitionId ∈ raw then
            OutcomeMetricDraft.postInit { item with status := .partialStatus }
          else .ok item)
          = .ok (metrics.map (mark (sortBy uuidText raw.dedup))) := by
        apply mapM_ok_map
        intro m hm
        unfold mark
        by_cases hin : m.targetMetricDefinitionId ∈ raw
        · obtain ⟨m', hm', hid, hpassage⟩ := hsource _ hin
          obtain rfl := inj_on_of_nodup_map hnodup hm' hm hid
          rw [if_pos hin, if_pos ((hmem _).mpr hin)]
          exact hsplit m' hm' hpassage
        · rw [if_neg hin, if_neg fun h => hin ((hmem _).mp h)]
      rw [hmark]
      rfl
  next =>
    refine ⟨[], nodup_nil, nofun, ?_⟩
    rw [hnone]
    rfl

-- ==== the reasons

def OutcomeReasonDraft.value (r : OutcomeReasonDraft) : ReasonValue :=
  (r.dimension, r.reasonCode, r.targetCheckpointId, r.targetMetricDefinitionId)

section Reasons

variable {observations : List OutcomeObservationDraft} {metrics : List OutcomeMetricDraft}
  {ambiguous : List Nat}

/-- Every reason has a code of the right form and the shape of its
dimension. -/
theorem reasonValues_valid {r : ReasonValue}
    (h : r ∈ reasonValues observations metrics ambiguous) (ordinal : Int) :
    isReasonCode r.2.1 ∧ (OutcomeReasonDraft.mk ordinal r.1 r.2.1 r.2.2.1 r.2.2.2).validShape := by
  rcases mem_append.mp h with h | h
  · rcases mem_append.mp h with h | h
    · obtain ⟨o, -, rfl⟩ := mem_map.mp h
      refine ⟨?_, rfl⟩
      dsimp only
      cases o.status with
      | partialStatus => decide
      | complete => decide
      | unavailable => decide
      | failed => decide
    · obtain ⟨m, -, rfl⟩ := mem_map.mp h
      refine ⟨?_, rfl⟩
      dsimp only
      cases m.status with
      | partialStatus => decide
      | complete => decide
      | unavailable => decide
      | failed => decide
  · obtain ⟨id, -, rfl⟩ := mem_map.mp h
    have hcode : isReasonCode "INTRABAR_ORDERING_NOT_OBSERVABLE" := by decide
    exact ⟨hcode, rfl⟩

theorem metricReason_ne (status : OutcomeStatus) :
    "METRIC_" ++ status.text ≠ "INTRABAR_ORDERING_NOT_OBSERVABLE" := by
  cases status with
  | partialStatus => decide
  | complete => decide
  | unavailable => decide
  | failed => decide

/-- No reason is given twice. -/
theorem reasonValues_nodup (hobservations : (observations.map (·.targetCheckpointId)).Nodup)
    (hmetrics : (metrics.map (·.targetMetricDefinitionId)).Nodup) (hambiguous : ambiguous.Nodup) :
    (reasonValues observations metrics ambiguous).Nodup := by
  unfold reasonValues
  have hfirst : ((observations.filter (·.status ≠ .complete)).map fun o =>
      ((.observation, "OBSERVATION_" ++ o.status.text,
        some o.targetCheckpointId, none) : ReasonValue)).Nodup := by
    apply Nodup.of_map fun r : ReasonValue => r.2.2.1
    rw [map_map]
    have hsub := hobservations.sublist (filter_sublist (p := (·.status ≠ .complete)).map _)
    have hmapped := hsub.map (Option.some_injective Nat)
    rwa [map_map] at hmapped
  have hsecond : ((metrics.filter (·.status ≠ .complete)).map fun m =>
      ((.metric, "METRIC_" ++ m.status.text, none,
        some m.targetMetricDefinitionId) : ReasonValue)).Nodup := by
    apply Nodup.of_map fun r : ReasonValue => r.2.2.2
    rw [map_map]
    have hsub := hmetrics.sublist (filter_sublist (p := (·.status ≠ .complete)).map _)
    have hmapped := hsub.map (Option.some_injective Nat)
    rwa [map_map] at hmapped
  have hthird : (ambiguous.map fun id =>
      ((.metric, "INTRABAR_ORDERING_NOT_OBSERVABLE", none, some id) : ReasonValue)).Nodup := by
    apply Nodup.of_map fun r : ReasonValue => r.2.2.2
    rw [map_map]
    exact hambiguous.map (Option.some_injective Nat)
  rw [nodup_append, nodup_append]
  refine ⟨⟨hfirst, hsecond, ?_⟩, hthird, ?_⟩
  · rintro r hr r' hr' rfl
    obtain ⟨o, -, rfl⟩ := mem_map.mp hr
    obtain ⟨m, -, heq⟩ := mem_map.mp hr'
    cases congrArg Prod.fst heq
  · rintro r hr r' hr' rfl
    obtain ⟨id, -, rfl⟩ := mem_map.mp hr'
    rcases mem_append.mp hr with hr | hr
    · obtain ⟨o, -, heq⟩ := mem_map.mp hr
      cases congrArg Prod.fst heq
    · obtain ⟨m, -, heq⟩ := mem_map.mp hr
      exact metricReason_ne m.status (congrArg (fun r : ReasonValue => r.2.1) heq)

/-- The reasons are the values, sorted and numbered. -/
theorem reasons_ok (hnodup : (reasonValues observations metrics ambiguous).Nodup) :
    ∃ drafts, reasons observations metrics ambiguous = .ok drafts
      ∧ (drafts.map (·.value)).Perm (reasonValues observations metrics ambiguous)
      ∧ drafts.map (·.ordinal) = ordinals drafts.length := by
  unfold reasons
  dsimp only
  rw [hnodup.dedup]
  generalize hordered : sortBy reasonKey (reasonValues observations metrics ambiguous) = ordered
  have hperm : ordered.Perm (reasonValues observations metrics ambiguous) :=
    hordered ▸ sortBy_perm _ _
  have hrun : ((ordered.zipIdx 1).mapM fun pair =>
      OutcomeReasonDraft.postInit
        { ordinal := pair.2
          dimension := pair.1.1
          reasonCode := pair.1.2.1
          targetCheckpointId := pair.1.2.2.1
          targetMetricDefinitionId := pair.1.2.2.2 })
      = .ok ((ordered.zipIdx 1).map fun pair : ReasonValue × Nat =>
        { ordinal := pair.2
          dimension := pair.1.1
          reasonCode := pair.1.2.1
          targetCheckpointId := pair.1.2.2.1
          targetMetricDefinitionId := pair.1.2.2.2 }) := by
    apply mapM_ok_map
    rintro ⟨r, ordinal⟩ hpair
    have hmem : r ∈ ordered := by
      have h := mem_map_of_mem (f := Prod.fst) hpair
      rwa [zipIdx_map_fst] at h
    have hpos : 1 ≤ ordinal := le_snd_of_mem_zipIdx hpair
    obtain ⟨hcode, hshape⟩ := reasonValues_valid (hperm.mem_iff.mp hmem) ordinal
    have hordinal : (1 : Int) ≤ ordinal := by exact_mod_cast hpos
    unfold OutcomeReasonDraft.postInit
    dsimp only
    rw [require_true ⟨hordinal, hcode⟩, require_true hshape]
    rfl
  refine ⟨_, hrun, ?_, ?_⟩
  · rw [map_map]
    have hself : (ordered.zipIdx 1).map (fun pair => pair.1) = ordered :=
      zipIdx_map_fst 1 ordered
    refine List.Perm.trans (Perm.of_eq ?_) hperm
    exact hself
  · rw [map_map, length_map, length_zipIdx]
    unfold ordinals
    rw [← zipIdx_map_snd 1 ordered, map_map]
    rfl

end Reasons

-- ==== the aggregate

def requiredMetrics (metrics : List OutcomeMetricDraft) :
    List OutcomeMetricDraft :=
  metrics.filter (·.completionRule = .required)

/-- What the status of a revision says of its required metrics. -/
structure AggregateOf (required : List OutcomeMetricDraft) (status : OutcomeStatus) : Prop where
  failed_iff : status = .failed ↔ ∃ m ∈ required, m.status = .failed
  complete_iff : status = .complete ↔ ∀ m ∈ required, m.status = .complete
  unavailable_iff : status = .unavailable ↔ required ≠ [] ∧ ∀ m ∈ required, m.status = .unavailable
  partial_iff : status = .partialStatus ↔ ¬ (∃ m ∈ required, m.status = .failed)
      ∧ ¬ (∀ m ∈ required, m.status = .complete)
      ∧ ¬ (required ≠ [] ∧ ∀ m ∈ required, m.status = .unavailable)

/-- The aggregate is read off the required metrics, with an availability
that belongs to it. -/
theorem rollUp_spec (metrics : List OutcomeMetricDraft) :
    AggregateOf (requiredMetrics metrics) (rollUp metrics).1
      ∧ (rollUp metrics).2 ∈ (rollUp metrics).1.aggregateAvailability := by
  have hmem : ∀ status : OutcomeStatus, status ∈ (requiredMetrics metrics).map (·.status)
        ↔ ∃ m ∈ requiredMetrics metrics, m.status = status := fun _ => by
    rw [mem_map]
  have hforall : ∀ status : OutcomeStatus,
      (∀ s ∈ (requiredMetrics metrics).map (·.status), s = status)
        ↔ ∀ m ∈ requiredMetrics metrics, m.status = status := fun _ => by
    rw [forall_mem_map]
  unfold rollUp
  rw [show (metrics.filter (·.completionRule = .required)) = requiredMetrics metrics from rfl]
  by_cases hfailed : .failed ∈ (requiredMetrics metrics).map (·.status)
  · rw [if_pos hfailed]
    obtain ⟨m, hm, hstatus⟩ := (hmem _).mp hfailed
    refine ⟨⟨?_, ?_, ?_, ?_⟩, by decide⟩
    · exact ⟨fun _ => ⟨m, hm, hstatus⟩, fun _ => rfl⟩
    · refine ⟨nofun, fun hall => ?_⟩
      rw [hall m hm] at hstatus
      cases hstatus
    · refine ⟨nofun, fun hall => ?_⟩
      rw [hall.2 m hm] at hstatus
      cases hstatus
    · exact ⟨nofun, fun hnot => absurd ⟨m, hm, hstatus⟩ hnot.1⟩
  · rw [if_neg hfailed]
    have hno : ¬ ∃ m ∈ requiredMetrics metrics, m.status = .failed :=
      fun h => hfailed ((hmem _).mpr h)
    by_cases hcomplete : ∀ s ∈ (requiredMetrics metrics).map (·.status), s = .complete
    · rw [if_pos hcomplete]
      have hall := (hforall _).mp hcomplete
      refine ⟨⟨?_, ?_, ?_, ?_⟩, by decide⟩
      · exact ⟨nofun, fun h => absurd h hno⟩
      · exact ⟨fun _ => hall, fun _ => rfl⟩
      · refine ⟨nofun, fun ⟨hne, hunavailable⟩ => ?_⟩
        obtain ⟨m, hm⟩ := exists_mem_of_ne_nil _ hne
        cases (hall m hm).symm.trans (hunavailable m hm)
      · exact ⟨nofun, fun hnot => absurd hall hnot.2.1⟩
    · rw [if_neg hcomplete]
      have hsome : ¬ ∀ m ∈ requiredMetrics metrics, m.status = .complete :=
        fun h => hcomplete ((hforall _).mpr h)
      have hne : requiredMetrics metrics ≠ [] := by
        intro hnil
        apply hsome
        intro m hm
        rw [hnil] at hm
        cases hm
      by_cases hunavailable : ∀ s ∈ (requiredMetrics metrics).map (·.status), s = .unavailable
      · rw [if_pos hunavailable]
        have hall := (hforall _).mp hunavailable
        refine ⟨⟨?_, ?_, ?_, ?_⟩, by decide⟩
        · exact ⟨nofun, fun h => absurd h hno⟩
        · exact ⟨nofun, fun h => absurd h hsome⟩
        · exact ⟨fun _ => ⟨hne, hall⟩, fun _ => rfl⟩
        · exact ⟨nofun, fun hnot => absurd ⟨hne, hall⟩ hnot.2.2⟩
      · rw [if_neg hunavailable]
        have hmixed : ¬ (requiredMetrics metrics ≠ []
            ∧ ∀ m ∈ requiredMetrics metrics, m.status = .unavailable) :=
          fun h => hunavailable ((hforall _).mpr h.2)
        refine ⟨⟨?_, ?_, ?_, ?_⟩, ?_⟩
        · exact ⟨nofun, fun h => absurd h hno⟩
        · exact ⟨nofun, fun h => absurd h hsome⟩
        · exact ⟨nofun, fun h => absurd h hmixed⟩
        · exact ⟨fun _ => ⟨hno, hsome, hmixed⟩, fun _ => rfl⟩
        · dsimp only
          split
          next => decide
          next => decide

end MarketRegimeAlpha.Outcome
