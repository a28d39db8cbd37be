/-
The soundness of an Outcome revision.

# The revision

`Made` is what the calculation leaves: the metrics of the Target, each
with the states of its dependencies, and of them the hit barriers that
the ambiguity names made partial. `RevisionSound` is what a reader of the
draft can rely on, in terms of the draft itself.
-/
import MarketRegimeAlpha.Outcome.Proofs.Revision

namespace MarketRegimeAlpha.Outcome

open Lib List

variable {target : OutcomeTargetDefinition} {reference : FrozenDecisionReference}
  {sessions : List OutcomeSessionSource} {sources : List OutcomeObservationSource}
  {combine : Int → Nat → String → Instant} {observationCutoff knowledgeCutoff : Instant}

-- ==== the revision

/-- The reasons that the observations and the metrics of a revision
call for. -/
def expectedReasons (draft : OutcomeRevisionDraft) : List ReasonValue :=
  ((draft.observations.filter (·.status ≠ .complete)).map fun o =>
      (.observation, "OBSERVATION_" ++ o.status.text, some o.targetCheckpointId, none))
    ++ ((draft.metrics.filter (·.status ≠ .complete)).map fun m =>
      (.metric, "METRIC_" ++ m.status.text, none, some m.targetMetricDefinitionId))
    ++ (draft.metrics.filter (·.status = .partialStatus)).map fun m =>
      (.metric, "INTRABAR_ORDERING_NOT_OBSERVABLE", none, some m.targetMetricDefinitionId)

def Ambiguous (draft : OutcomeRevisionDraft) (metricId : Nat) : Prop :=
  ∃ r ∈ draft.reasons, r.reasonCode = "INTRABAR_ORDERING_NOT_OBSERVABLE"
    ∧ r.targetMetricDefinitionId = some metricId

/-- What a revision says of its Target, its reference and its
sources. -/
structure RevisionSound (target : OutcomeTargetDefinition) (reference : FrozenDecisionReference)
    (sources : List OutcomeObservationSource)
    (draft : OutcomeRevisionDraft) : Prop where
  observations : draft.observations.map (fun o =>
      (o.targetCheckpointId, o.status))
    = sources.map fun s => (s.scope.targetCheckpointId, s.status)
  metrics : draft.metrics.map (fun m =>
      (m.targetMetricDefinitionId, m.metricKind, m.completionRule))
    = target.metrics.map fun m => (m.targetMetricDefinitionId, m.metricKind, m.completionRule)
  failed_iff : ∀ m ∈ draft.metrics, m.status = .failed
    ↔ ∃ d ∈ dependenciesOf target.dependencies m.targetMetricDefinitionId,
      DependencyHas reference draft.observations d .failed
  unavailable_iff : ∀ m ∈ draft.metrics, m.status = .unavailable
    ↔ (¬ ∃ d ∈ dependenciesOf target.dependencies m.targetMetricDefinitionId,
        DependencyHas reference draft.observations d .failed)
      ∧ ∃ d ∈ dependenciesOf target.dependencies m.targetMetricDefinitionId,
        ∃ status, DependencyHas reference draft.observations d status ∧ status ≠ .complete
  partial_barrier : ∀ m ∈ draft.metrics, m.status = .partialStatus → m.metricKind = .barrierHit
  aggregate : AggregateOf (requiredMetrics draft.metrics) draft.status
  rolled : (draft.status, draft.availabilityStatus) = rollUp draft.metrics
  reasons : (draft.reasons.map (·.value)).Perm (expectedReasons draft)
  reasons_nodup : (draft.reasons.map (·.value)).Nodup
  reasons_ordinals : draft.reasons.map (·.ordinal) = ordinals draft.reasons.length

theorem referenceDependencies_ok (reference : FrozenDecisionReference)
    (dependencies : List OutcomeMetricDependency) :
    ∃ drafts, ((dependencies.filter (·.role = .reference)).mapM fun item =>
        OutcomeReferenceDependencyDraft.postInit
          { targetMetricDependencyId := item.targetMetricDependencyId
            targetMetricDefinitionId := item.targetMetricDefinitionId
            targetCheckpointId := item.targetCheckpointId
            dependencyRole := item.role
            decisionReferenceObservationId :=
              reference.decisionReferenceObservationId }) = .ok drafts
      ∧ drafts.length = (dependencies.filter (·.role = .reference)).length := by
  apply mapM_ok_length
  intro item hitem
  have hrole := of_decide_eq_true (mem_filter.mp hitem).2
  unfold OutcomeReferenceDependencyDraft.postInit
  rw [require_true hrole]
  exact ⟨_, rfl⟩

theorem observationDependencies_ok (dependencies : List OutcomeMetricDependency) :
    ∃ drafts, ((dependencies.filter fun item =>
        item.role ∈ [.observation, .pathMember]).mapM fun item =>
        OutcomeObservationDependencyDraft.postInit
          { targetMetricDependencyId := item.targetMetricDependencyId
            targetMetricDefinitionId := item.targetMetricDefinitionId
            targetCheckpointId := item.targetCheckpointId
            dependencyRole := item.role }) = .ok drafts
      ∧ drafts.length = (dependencies.filter fun item =>
        item.role ∈ [.observation, .pathMember]).length := by
  apply mapM_ok_length
  intro item hitem
  have hrole := of_decide_eq_true (mem_filter.mp hitem).2
  unfold OutcomeObservationDependencyDraft.postInit
  rw [require_true hrole]
  exact ⟨_, rfl⟩

theorem dependencies_some {dependencies : List OutcomeMetricDependency} (h : dependencies ≠ []) :
    (dependencies.filter (·.role = .reference)).length ≠ 0 ∨ (dependencies.filter fun item =>
        item.role ∈ [.observation, .pathMember]).length ≠ 0 := by
  obtain ⟨d, hd⟩ := exists_mem_of_ne_nil _ h
  by_cases hrole : d.role = .reference
  · left
    exact (length_pos_of_mem (mem_filter.mpr ⟨hd, decide_eq_true hrole⟩)).ne'
  · right
    have hother : d.role ∈ [.observation, .pathMember] := by
      cases hkind : d.role with
      | reference => exact absurd hkind hrole
      | observation => decide
      | pathMember => decide
    exact (length_pos_of_mem (mem_filter.mpr ⟨hd, decide_eq_true hother⟩)).ne'

section Sound

variable {calculated : List OutcomeMetricDraft} {affected : List Nat} {draft : OutcomeRevisionDraft}
  {observations : List OutcomeObservationDraft}

/-- The metrics of a Target, calculated and marked, are those of the
Target. -/
theorem marked_ids (affected : List Nat)
    (hcalculated : List.Forall₂ (Calculated target reference observations)
      target.metrics calculated) :
    (calculated.map (mark affected)).map (fun m =>
        (m.targetMetricDefinitionId, m.ordinal, m.metricKind, m.completionRule))
      = target.metrics.map fun m =>
        (m.targetMetricDefinitionId, m.ordinal, m.metricKind, m.completionRule) := by
  rw [map_map]
  symm
  apply map_forall₂ hcalculated
  rintro definition m ⟨states, hof, -⟩
  obtain ⟨hid, hordinal, hkind, hrule⟩ := hof.definition_eq
  unfold mark
  simp only [Function.comp_apply]
  split
  next => rw [← hid, ← hordinal, ← hkind, ← hrule]
  next => rw [hid, hordinal, hkind, hrule]

theorem calculated_nodup (hcalculated : List.Forall₂ (Calculated target reference observations)
      target.metrics calculated) :
    (calculated.map (·.targetMetricDefinitionId)).Nodup := by
  rw [← map_forall₂ hcalculated (g := OutcomeMetricDefinition.targetMetricDefinitionId)]
  · exact target.metrics_unique
  · rintro definition m ⟨states, hof, -⟩
    exact hof.definition_eq.1.symm

variable {m : OutcomeMetricDraft}

theorem Calculated.status_spec {definition : OutcomeMetricDefinition}
    (h : Calculated target reference observations definition m) :
    m.status ≠ .partialStatus ∧ (m.status = .failed ↔ ∃ d ∈ dependenciesOf target.dependencies
          m.targetMetricDefinitionId, DependencyHas reference observations d .failed)
      ∧ (m.status = .unavailable ↔ (¬ ∃ d ∈ dependenciesOf target.dependencies
            m.targetMetricDefinitionId, DependencyHas reference observations d .failed)
          ∧ ∃ d ∈ dependenciesOf target.dependencies m.targetMetricDefinitionId, ∃ status,
              DependencyHas reference observations d status ∧ status ≠ .complete) := by
  obtain ⟨states, hof, hstates⟩ := h
  have hid := hof.definition_eq.1
  have hother : (∃ d ∈ dependenciesOf target.dependencies
        definition.targetMetricDefinitionId, ∃ status,
          DependencyHas reference observations d status ∧ status ≠ .complete)
      ↔ ∃ status ∈ states, status ≠ .complete := by
    constructor
    · rintro ⟨d, hd, status, hhas, hne⟩
      exact ⟨status, (hstates status).mpr ⟨d, hd, hhas⟩, hne⟩
    · rintro ⟨status, hmem, hne⟩
      obtain ⟨d, hd, hhas⟩ := (hstates status).mp hmem
      exact ⟨d, hd, status, hhas, hne⟩
  rw [hid, hother, ← hstates .failed]
  cases hof with
  | failed h => exact ⟨nofun, ⟨fun _ => h, fun _ => rfl⟩, ⟨nofun, fun hno => absurd h hno.1⟩⟩
  | unavailable hnot h =>
    exact ⟨nofun, ⟨nofun, fun hin => absurd hin hnot⟩, ⟨fun _ => ⟨hnot, h⟩, fun _ => rfl⟩⟩
  | complete h value htyped =>
    refine ⟨nofun, ⟨nofun, fun hin => ?_⟩, ⟨nofun, fun hno => ?_⟩⟩
    · cases h _ hin
    · obtain ⟨status, hmem, hne⟩ := hno.2
      exact absurd (h status hmem) hne

/-- What a revision is made of. -/
structure Made (target : OutcomeTargetDefinition) (reference : FrozenDecisionReference)
    (sources : List OutcomeObservationSource)
    (calculated : List OutcomeMetricDraft) (affected : List Nat)
    (draft : OutcomeRevisionDraft) : Prop where
  observations : draft.observations = observationsOf target sources
  of_states : List.Forall₂ (Calculated target reference
    (observationsOf target sources)) target.metrics calculated
  metrics : draft.metrics = calculated.map (mark affected)
  nodup : affected.Nodup
  barriers : ∀ id ∈ affected, ∃ m ∈ calculated,
    m.targetMetricDefinitionId = id ∧ m.firstPassageAt.isSome
  reasons : (draft.reasons.map (·.value)).Perm
    (reasonValues draft.observations draft.metrics affected)
  ordinals : draft.reasons.map (·.ordinal) = ordinals draft.reasons.length
  status : draft.status = (rollUp draft.metrics).1
  availability : draft.availabilityStatus = (rollUp draft.metrics).2

theorem Made.partial_iff (h : Made target reference sources calculated affected
    draft) (hm : m ∈ draft.metrics) :
    m.status = .partialStatus ↔ m.targetMetricDefinitionId ∈ affected := by
  rw [h.metrics] at hm
  obtain ⟨m₀, hm₀, rfl⟩ := mem_map.mp hm
  obtain ⟨definition, -, hcalculated⟩ := forall₂_right h.of_states hm₀
  have hnot := hcalculated.status_spec.1
  unfold mark
  split
  next hin => exact ⟨fun _ => hin, fun _ => rfl⟩
  next hout => exact ⟨fun heq => absurd heq hnot, fun hin => absurd hin hout⟩

theorem Made.of_affected (h : Made target reference sources calculated affected draft)
    (hm : m ∈ calculated) (hin : m.targetMetricDefinitionId ∈ affected) :
    m.metricKind = .barrierHit ∧ m.status = .complete := by
  obtain ⟨m', hm', hid, hpassage⟩ := h.barriers _ hin
  obtain rfl := inj_on_of_nodup_map (calculated_nodup h.of_states) hm' hm hid
  obtain ⟨definition, -, states, hof, -⟩ := forall₂_right h.of_states hm'
  obtain ⟨hkind, hcomplete, -⟩ := hof.of_passage hpassage
  exact ⟨hkind, hcomplete⟩

theorem Made.affected_perm (h : Made target reference sources calculated affected
    draft) : ((draft.metrics.filter (·.status = .partialStatus)).map
      (·.targetMetricDefinitionId)).Perm affected := by
  have hids : (draft.metrics.map (·.targetMetricDefinitionId)).Nodup := by
    rw [h.metrics, map_map]
    simpa [Function.comp_def] using calculated_nodup h.of_states
  have hnodup : ((draft.metrics.filter (·.status = .partialStatus)).map
      (·.targetMetricDefinitionId)).Nodup :=
    hids.sublist (filter_sublist.map _)
  apply (perm_ext_iff_of_nodup hnodup h.nodup).mpr
  intro id
  constructor
  · intro hid
    obtain ⟨m, hm, rfl⟩ := mem_map.mp hid
    obtain ⟨hm, hstatus⟩ := mem_filter.mp hm
    exact (h.partial_iff hm).mp (of_decide_eq_true hstatus)
  · intro hid
    obtain ⟨m₀, hm₀, rfl, -⟩ := h.barriers id hid
    have hm : mark affected m₀ ∈ draft.metrics := by
      rw [h.metrics]
      exact mem_map_of_mem hm₀
    refine mem_map.mpr ⟨mark affected m₀, mem_filter.mpr ⟨hm, ?_⟩, mark_id affected m₀⟩
    apply decide_eq_true
    rw [h.partial_iff hm, mark_id]
    exact hid

/-- A revision made so is sound. -/
theorem Made.sound (hsources : sources.map (·.scope.targetCheckpointId)
      = target.checkpoints.map (·.targetCheckpointId))
    (h : Made target reference sources calculated affected draft) :
    RevisionSound target reference sources draft := by
  have hspec : ∀ m ∈ draft.metrics, ∃ m₀ ∈ calculated, m = mark affected m₀
      ∧ (m.status ≠ .partialStatus → m.status = m₀.status) := by
    intro m hm
    have hm' := hm
    rw [h.metrics] at hm'
    obtain ⟨m₀, hm₀, rfl⟩ := mem_map.mp hm'
    refine ⟨m₀, hm₀, rfl, fun hne => ?_⟩
    have hout := mt (h.partial_iff hm).mpr hne
    rw [mark_id] at hout
    unfold mark
    rw [if_neg hout]
  have hids := marked_ids affected h.of_states
  have hreasons : (draft.reasons.map (·.value)).Perm (expectedReasons draft) := by
    refine h.reasons.trans ?_
    apply Perm.append_left
    have hperm := h.affected_perm.symm.map fun id =>
      ((.metric, "INTRABAR_ORDERING_NOT_OBSERVABLE", none, some id) : ReasonValue)
    rwa [map_map] at hperm
  have hmetrics : (draft.metrics.map (·.targetMetricDefinitionId)).Nodup := by
    rw [h.metrics, map_map]
    simpa [Function.comp_def] using calculated_nodup h.of_states
  constructor
  case observations =>
    rw [h.observations]
    exact observationsOf_status hsources
  case metrics =>
    have hproj := congrArg (List.map fun x : Nat × Int × OutcomeMetricKind
      × OutcomeCompletionRule => (x.1, x.2.2)) hids
    rw [h.metrics]
    simpa only [map_map, Function.comp_def] using hproj
  case failed_iff =>
    intro m hm
    obtain ⟨m₀, hm₀, rfl, hsame⟩ := hspec m hm
    obtain ⟨definition, -, hcalculated⟩ := forall₂_right h.of_states hm₀
    obtain ⟨-, hfailed, -⟩ := hcalculated.status_spec
    rw [h.observations, mark_id, ← hfailed]
    by_cases hin : m₀.targetMetricDefinitionId ∈ affected
    · have hmarked := (h.partial_iff hm).mpr (by rwa [mark_id])
      rw [hmarked, (h.of_affected hm₀ hin).2]
      exact ⟨nofun, nofun⟩
    · have hne := mt (h.partial_iff hm).mp (by rwa [mark_id])
      rw [hsame hne]
  case unavailable_iff =>
    intro m hm
    obtain ⟨m₀, hm₀, rfl, hsame⟩ := hspec m hm
    obtain ⟨definition, -, hcalculated⟩ := forall₂_right h.of_states hm₀
    obtain ⟨-, -, hunavailable⟩ := hcalculated.status_spec
    rw [h.observations, mark_id, ← hunavailable]
    by_cases hin : m₀.targetMetricDefinitionId ∈ affected
    · have hmarked := (h.partial_iff hm).mpr (by rwa [mark_id])
      rw [hmarked, (h.of_affected hm₀ hin).2]
      exact ⟨nofun, nofun⟩
    · have hne := mt (h.partial_iff hm).mp (by rwa [mark_id])
      rw [hsame hne]
  case partial_barrier =>
    intro m hm hincomplete
    obtain ⟨m₀, hm₀, rfl, -⟩ := hspec m hm
    have hin := (h.partial_iff hm).mp hincomplete
    rw [mark_id] at hin
    rw [show (mark affected m₀).metricKind = m₀.metricKind by
      unfold mark
      split
      next => rfl
      next => rfl]
    exact (h.of_affected hm₀ hin).1
  case aggregate =>
    rw [h.status]
    exact (rollUp_spec draft.metrics).1
  case rolled => rw [h.status, h.availability]
  case reasons => exact hreasons
  case reasons_nodup =>
    apply h.reasons.nodup_iff.mpr
    apply reasonValues_nodup _ hmetrics h.nodup
    rw [h.observations]
    exact observationsOf_nodup hsources
  case reasons_ordinals => exact h.ordinals

end Sound

theorem revision_postInit {r : OutcomeRevisionDraft} (hhash : isSha256 r.targetDefinitionSha256)
    (hfinality : r.finalityStatus = .unknown)
    (haggregate : r.availabilityStatus ∈ r.status.aggregateAvailability)
    (hrosters : r.sessions ≠ [] ∧ r.sources ≠ [] ∧ r.observations ≠ []
      ∧ r.metrics ≠ [] ∧ (r.referenceDependencies ≠ [] ∨ r.observationDependencies ≠ []))
    (hlength : r.sources.length = r.observations.length)
    (hmetrics : r.metrics.map (·.ordinal) = ordinals r.metrics.length)
    (hreasons : r.reasons.map (·.ordinal) = ordinals r.reasons.length) :
    r.postInit = .ok r := by
  have hreasons' : r.reasons = []
      ∨ r.reasons.map (·.ordinal) = ordinals r.reasons.length := .inr hreasons
  unfold OutcomeRevisionDraft.postInit
  rw [require_true hhash, require_true hfinality, require_true haggregate,
    require_true hrosters, require_true hlength, require_true hmetrics,
    require_true hreasons']
  rfl

/-- Accepted inputs are made into a revision, or the context signals. -/
theorem calculate_made (reference : FrozenDecisionReference) {u : Unit}
    (hvalid : validateInputs combine target sessions sources observationCutoff
      knowledgeCutoff = .ok u) (hsame : SameBar target sources) :
    (∃ draft, calculateMarketTargetOutcome combine target reference sessions
        sources observationCutoff knowledgeCutoff = .ok draft
      ∧ ∃ calculated affected, Made target reference sources calculated affected draft)
      ∨ calculateMarketTargetOutcome combine target reference sessions sources
        observationCutoff knowledgeCutoff = .error .invalidOperation := by
  obtain ⟨hsources, hsessions⟩ := validateInputs_ok hvalid
  have hfind : dictOf ((observationsOf target sources).map fun item =>
      (item.targetCheckpointId, item))
    = byCheckpoint (observationsOf target sources) := rfl
  unfold calculateMarketTargetOutcome
  rw [hvalid, ok_bind, observations_ok, ok_bind]
  dsimp only
  rw [hfind]
  rcases calculated_ok reference hsources hsame with
    ⟨calculated, hcalculated, hall⟩ | herr
  · left
    have hnodup := calculated_nodup hall
    obtain ⟨affected, haffected, hbarriers, hambiguity⟩ :=
      applyBarrierAmbiguity_ok target hnodup <| by
        intro m hm hpassage
        obtain ⟨definition, -, states, hof, -⟩ := forall₂_right hall hm
        exact (hof.of_passage hpassage).2.2
    obtain ⟨references, hreferences, hreferencesLength⟩ :=
      referenceDependencies_ok reference target.dependencies
    obtain ⟨others, hothers, hothersLength⟩ := observationDependencies_ok target.dependencies
    have hmetrics : ((calculated.map (mark affected)).map
        (·.targetMetricDefinitionId)).Nodup := by
      simpa [Function.comp_def] using hnodup
    obtain ⟨drafts, hdrafts, hperm, hordinals⟩ := reasons_ok
      (reasonValues_nodup (observationsOf_nodup hsources) hmetrics haffected)
    rw [hcalculated, ok_bind, hambiguity, ok_bind]
    rw [hreferences, ok_bind, hothers, ok_bind, hdrafts, ok_bind]
    have hlength : sources.length = (observationsOf target sources).length := by
      unfold observationsOf
      rw [length_map, length_zip, length_sources hsources, min_self]
    have hcheckpoints := length_pos_iff.mpr target.nonempty.1
    have hsourcesNe : sources ≠ [] := by
      apply ne_nil_of_length_pos
      rw [length_sources hsources]
      exact hcheckpoints
    have hobservationsNe : observationsOf target sources ≠ [] := by
      apply ne_nil_of_length_pos
      rw [← hlength, length_sources hsources]
      exact hcheckpoints
    have hordinal : (calculated.map (mark affected)).map (·.ordinal)
        = ordinals (calculated.map (mark affected)).length := by
      have hids := congrArg (List.map fun x : Nat × Int × OutcomeMetricKind
        × OutcomeCompletionRule => x.2.1) (marked_ids affected hall)
      rw [length_map, ← hall.length_eq, ← target.metrics_contiguous]
      simpa only [map_map, Function.comp_def] using hids
    have hmetricsNe : calculated.map (mark affected) ≠ [] := by
      apply ne_nil_of_length_pos
      rw [length_map, ← hall.length_eq]
      exact length_pos_iff.mpr target.nonempty.2.1
    have hdependencies : references ≠ [] ∨ others ≠ [] := by
      have hsome := dependencies_some target.nonempty.2.2
      rw [← hreferencesLength, ← hothersLength] at hsome
      rcases hsome with hsome | hsome
      · exact .inl fun hnil => hsome (by rw [hnil]; rfl)
      · exact .inr fun hnil => hsome (by rw [hnil]; rfl)
    have haggregate := (rollUp_spec (calculated.map (mark affected))).2
    exact ⟨_, revision_postInit target.content_valid rfl haggregate
      ⟨hsessions, hsourcesNe, hobservationsNe, hmetricsNe, hdependencies⟩
      hlength hordinal hordinals, calculated, affected, rfl, hall, rfl,
      haffected, hbarriers, hperm, hordinals, rfl, rfl⟩
  · right
    rw [herr]
    rfl

-- ==== optional metrics

section Optional

variable {draft draft' : OutcomeRevisionDraft} {target' : OutcomeTargetDefinition}
  {reference' : FrozenDecisionReference} {sources' : List OutcomeObservationSource}

def requiredIds (target : OutcomeTargetDefinition) : List Nat :=
  (target.metrics.filter (·.completionRule = .required)).map
    (·.targetMetricDefinitionId)

/-- Two revisions have the same required metrics, with the same statuses
of their dependencies and the same of them named as ambiguous. -/
structure SameRequired (target : OutcomeTargetDefinition)
    (reference : FrozenDecisionReference) (draft : OutcomeRevisionDraft)
    (target' : OutcomeTargetDefinition) (reference' : FrozenDecisionReference)
    (draft' : OutcomeRevisionDraft) : Prop where
  ids : ∀ id, id ∈ requiredIds target ↔ id ∈ requiredIds target'
  states : ∀ id ∈ requiredIds target, ∀ status, (∃ d ∈ dependenciesOf target.dependencies id,
        DependencyHas reference draft.observations d status)
      ↔ ∃ d ∈ dependenciesOf target'.dependencies id,
        DependencyHas reference' draft'.observations d status
  ambiguity : ∀ id ∈ requiredIds target, Ambiguous draft id ↔ Ambiguous draft' id

theorem SameRequired.symm (h : SameRequired target reference draft target' reference' draft') :
    SameRequired target' reference' draft' target reference draft where
  ids id := (h.ids id).symm
  states id hid status := (h.states id ((h.ids id).mpr hid) status).symm
  ambiguity id hid := (h.ambiguity id ((h.ids id).mpr hid)).symm

namespace RevisionSound

variable (h : RevisionSound target reference sources draft)
include h

theorem metrics_nodup : (draft.metrics.map (·.targetMetricDefinitionId)).Nodup := by
  have hids := congrArg (List.map Prod.fst) h.metrics
  simp only [map_map, Function.comp_def] at hids
  rw [hids]
  exact target.metrics_unique

theorem required_ids : (requiredMetrics draft.metrics).map
    (·.targetMetricDefinitionId) = requiredIds target := by
  have hfilter := congrArg (fun l : List (Nat × OutcomeMetricKind
    × OutcomeCompletionRule) => (l.filter (·.2.2 = .required)).map (·.1))
    h.metrics
  simp only [filter_map, map_map, Function.comp_def] at hfilter
  exact hfilter

/-- The metrics named as ambiguous are the partial ones. -/
theorem ambiguous_iff {m : OutcomeMetricDraft} (hm : m ∈ draft.metrics) :
    Ambiguous draft m.targetMetricDefinitionId ↔ m.status = .partialStatus := by
  constructor
  · rintro ⟨r, hr, hcode, hid⟩
    have hin := h.reasons.mem_iff.mp (mem_map_of_mem (f := OutcomeReasonDraft.value) hr)
    rcases mem_append.mp hin with hin | hin
    · rcases mem_append.mp hin with hin | hin
      · obtain ⟨o, -, heq⟩ := mem_map.mp hin
        have hnone : none = r.targetMetricDefinitionId :=
          congrArg (fun v : ReasonValue => v.2.2.2) heq
        rw [hid] at hnone
        cases hnone
      · obtain ⟨m', -, heq⟩ := mem_map.mp hin
        have hother : "METRIC_" ++ m'.status.text = r.reasonCode :=
          congrArg (fun v : ReasonValue => v.2.1) heq
        exact absurd (hother.trans hcode) (metricReason_ne m'.status)
    · obtain ⟨m', hm', heq⟩ := mem_map.mp hin
      obtain ⟨hm', hmarked⟩ := mem_filter.mp hm'
      have hsome : some m'.targetMetricDefinitionId = r.targetMetricDefinitionId :=
        congrArg (fun v : ReasonValue => v.2.2.2) heq
      rw [hid] at hsome
      have hsame := inj_on_of_nodup_map h.metrics_nodup hm' hm (Option.some.inj hsome)
      rw [← hsame]
      exact of_decide_eq_true hmarked
  · intro hincomplete
    have hin : ((.metric, "INTRABAR_ORDERING_NOT_OBSERVABLE", none,
        some m.targetMetricDefinitionId) : ReasonValue) ∈ draft.reasons.map (·.value) := by
      apply h.reasons.mem_iff.mpr
      apply mem_append_right
      exact mem_map_of_mem (f := fun m : OutcomeMetricDraft =>
        ((.metric, "INTRABAR_ORDERING_NOT_OBSERVABLE", none,
          some m.targetMetricDefinitionId) : ReasonValue))
        (mem_filter.mpr ⟨hm, decide_eq_true hincomplete⟩)
    obtain ⟨r, hr, heq⟩ := mem_map.mp hin
    exact ⟨r, hr, congrArg (fun v : ReasonValue => v.2.1) heq,
      congrArg (fun v : ReasonValue => v.2.2.2) heq⟩

/-- A required metric has the status it has in the other revision. -/
theorem required_status (h' : RevisionSound target' reference' sources' draft')
    (hsame : SameRequired target reference draft target' reference' draft') {status : OutcomeStatus}
    (hstatus : status ∈ (requiredMetrics draft.metrics).map (·.status)) :
    status ∈ (requiredMetrics draft'.metrics).map (·.status) := by
  obtain ⟨m, hm, rfl⟩ := mem_map.mp hstatus
  have hid : m.targetMetricDefinitionId ∈ requiredIds target := by
    rw [← h.required_ids]
    exact mem_map_of_mem hm
  have hid' := (hsame.ids _).mp hid
  rw [← h'.required_ids] at hid'
  obtain ⟨m', hm', heq⟩ := mem_map.mp hid'
  have hmem := (mem_filter.mp hm).1
  have hmem' := (mem_filter.mp hm').1
  have hfailed : m.status = .failed ↔ m'.status = .failed := by
    rw [h.failed_iff m hmem, h'.failed_iff m' hmem', heq]
    exact hsame.states _ hid .failed
  have hunavailable : m.status = .unavailable ↔ m'.status = .unavailable := by
    rw [h.unavailable_iff m hmem, h'.unavailable_iff m' hmem', heq, hsame.states _ hid .failed]
    apply and_congr_right
    intro _
    constructor
    · rintro ⟨d, hd, s, hhas, hne⟩
      obtain ⟨d', hd', hhas'⟩ := (hsame.states _ hid s).mp ⟨d, hd, hhas⟩
      exact ⟨d', hd', s, hhas', hne⟩
    · rintro ⟨d, hd, s, hhas, hne⟩
      obtain ⟨d', hd', hhas'⟩ := (hsame.states _ hid s).mpr ⟨d, hd, hhas⟩
      exact ⟨d', hd', s, hhas', hne⟩
  have hincomplete : m.status = .partialStatus ↔ m'.status = .partialStatus := by
    rw [← h.ambiguous_iff hmem, ← h'.ambiguous_iff hmem', heq]
    exact hsame.ambiguity _ hid
  refine mem_map.mpr ⟨m', hm', ?_⟩
  cases hm : m.status with
  | failed => exact hfailed.mp hm
  | unavailable => exact hunavailable.mp hm
  | partialStatus => exact hincomplete.mp hm
  | complete =>
    rw [hm] at hfailed hunavailable hincomplete
    cases hm' : m'.status with
    | failed => cases hfailed.mpr hm'
    | unavailable => cases hunavailable.mpr hm'
    | partialStatus => cases hincomplete.mpr hm'
    | complete => rfl

end RevisionSound

theorem rollUp_congr {metrics metrics' : List OutcomeMetricDraft}
    (h : ∀ status, status ∈ (requiredMetrics metrics).map (·.status)
      ↔ status ∈ (requiredMetrics metrics').map (·.status)) :
    rollUp metrics = rollUp metrics' := by
  unfold rollUp
  unfold requiredMetrics at h
  simp only [h]

end Optional

theorem validated {draft : OutcomeRevisionDraft}
    (h : calculateMarketTargetOutcome combine target reference sessions sources
      observationCutoff knowledgeCutoff = .ok draft) :
    validateInputs combine target sessions sources observationCutoff knowledgeCutoff = .ok () := by
  obtain ⟨⟨⟩, hu, -⟩ := bind_ok.mp h
  exact hu

/-- Accepted inputs are made into a sound revision, and two revisions
that agree on their required metrics have the same aggregate, whatever
their optional ones are. -/
theorem outcome_revision_sound (combine : Int → Nat → String → Instant)
    (target : OutcomeTargetDefinition) (reference : FrozenDecisionReference)
    (sessions : List OutcomeSessionSource)
    (sources : List OutcomeObservationSource)
    (observationCutoff knowledgeCutoff : Instant)
    (hvalid : validateInputs combine target sessions sources observationCutoff
      knowledgeCutoff = .ok ())
    (hsame : SameBar target sources)
    (hoverflow : calculateMarketTargetOutcome combine target reference sessions
      sources observationCutoff knowledgeCutoff ≠ .error .invalidOperation) :
    ∃ draft, calculateMarketTargetOutcome combine target reference sessions
        sources observationCutoff knowledgeCutoff = .ok draft
      ∧ RevisionSound target reference sources draft
      ∧ ∀ (target' : OutcomeTargetDefinition) (reference' : FrozenDecisionReference)
          (sessions' : List OutcomeSessionSource)
          (sources' : List OutcomeObservationSource)
          (observationCutoff' knowledgeCutoff' : Instant)
          (draft' : OutcomeRevisionDraft),
        SameBar target' sources' →
        calculateMarketTargetOutcome combine target' reference' sessions'
          sources' observationCutoff' knowledgeCutoff' = .ok draft' →
        SameRequired target reference draft target' reference' draft' →
        draft'.status = draft.status ∧ draft'.availabilityStatus = draft.availabilityStatus := by
  rcases calculate_made reference hvalid hsame with
    ⟨draft, hdraft, calculated, affected, hmade⟩ | herr
  · have hsound := hmade.sound (validateInputs_ok hvalid).1
    refine ⟨draft, hdraft, hsound, ?_⟩
    intro target' reference' sessions' sources' cutoff cutoff' draft' hsame' hrun hrequired
    have hvalid' := validated hrun
    rcases calculate_made reference' hvalid' hsame' with
      ⟨draft'', hdraft', calculated', affected', hmade'⟩ | herr
    · obtain rfl := Except.ok.inj (hrun.symm.trans hdraft')
      have hsound' := hmade'.sound (validateInputs_ok hvalid').1
      have hroll := rollUp_congr fun status =>
        ⟨hsound'.required_status hsound hrequired.symm, hsound.required_status hsound' hrequired⟩
      have hpair := hsound'.rolled.trans (hroll.trans hsound.rolled.symm)
      exact ⟨congrArg Prod.fst hpair, congrArg Prod.snd hpair⟩
    · exact nomatch hrun.symm.trans herr
  · exact absurd herr hoverflow

def sampleCombine (date : Int) (time : Nat) (_ : String) : Instant := date * 86400000000 + time

def sampleHash : String := String.ofList (List.replicate 64 'a')

def sampleAlgorithm : AlgorithmIdentity where
  algorithmCode := "market_target"
  algorithmVersion := "1.0"
  algorithmSha256 := sampleHash
  codeArtifactId := 1
  codeContentSha256 := sampleHash
  codeSizeBytes := 10
  configArtifactId := 2
  configContentSha256 := sampleHash
  configSizeBytes := 10

theorem first_ordinal : (1 : Int) ≤ 1 := le_rfl

theorem second_ordinal : (1 : Int) ≤ 2 := by
  decide

theorem third_ordinal : (1 : Int) ≤ 3 := by
  decide

theorem fourth_ordinal : (1 : Int) ≤ 4 := by
  decide

def sampleCheckpoint (id : Nat) (field : OutcomeValueField) (ordinal : Int)
    (h : 1 ≤ ordinal) : OutcomeCheckpoint where
  targetCheckpointId := id
  ordinal := ordinal
  checkpointCode := "daily"
  sessionOffset := 1
  localTime := 54000000000
  timezoneName := "UTC"
  timeframe := "DAILY"
  priceBasis := "RAW_UNADJUSTED"
  valueField := field
  positive := ⟨h, by decide⟩
  code := by decide
  minute := by decide
  timeframe_known := by decide
  basis_known := by decide

def sampleBarrier : OutcomeMetricDefinition where
  targetMetricDefinitionId := 22
  ordinal := 2
  metricCode := "barrier"
  metricKind := .barrierHit
  valueType := .boolean
  unit := "BOOLEAN"
  completionRule := .optional
  algorithm := sampleAlgorithm
  contentSha256 := sampleHash
  barrierDirection := some .up
  barrierThreshold := some (1 / 20)
  identity := by decide
  algorithm_valid := by decide
  content_valid := by decide
  shape := rfl
  barrier := ⟨rfl, rfl⟩
  threshold_positive := by decide +kernel

def sampleReturn : OutcomeMetricDefinition where
  targetMetricDefinitionId := 21
  ordinal := 1
  metricCode := "daily_return"
  metricKind := .observationReturn
  valueType := .decimal
  unit := "RATIO"
  completionRule := .required
  algorithm := sampleAlgorithm
  contentSha256 := sampleHash
  barrierDirection := none
  barrierThreshold := none
  identity := by decide
  algorithm_valid := by decide
  content_valid := by decide
  shape := rfl
  barrier := ⟨rfl, rfl⟩
  threshold_positive := nofun

def sampleDependency (ordinal : Int) (h : 1 ≤ ordinal) (metric checkpoint : Nat)
    (role : OutcomeDependencyRole) : OutcomeMetricDependency where
  targetMetricDependencyId := 100 + ordinal.toNat
  ordinal := ordinal
  targetMetricDefinitionId := metric
  targetCheckpointId := checkpoint
  role := role
  positive := h

def sampleTarget : OutcomeTargetDefinition where
  targetDefinitionId := 1
  targetCode := "daily_target"
  version := 1
  contentSha256 := sampleHash
  referenceCheckpointId := 10
  algorithm := sampleAlgorithm
  checkpoints := [sampleCheckpoint 11 .openField 1 first_ordinal,
    sampleCheckpoint 12 .closeField 2 second_ordinal]
  metrics := [sampleReturn, sampleBarrier]
  dependencies := [sampleDependency 1 first_ordinal 21 11 .observation,
    sampleDependency 2 second_ordinal 21 12 .observation,
    sampleDependency 3 third_ordinal 22 10 .reference,
    sampleDependency 4 fourth_ordinal 22 12 .pathMember]
  identity := by decide
  content_valid := by decide
  algorithm_valid := by decide
  nonempty := by simp
  checkpoints_ordered := by decide +kernel
  metrics_contiguous := by decide
  dependencies_contiguous := by decide
  checkpoints_unique := by decide
  metrics_unique := by decide
  metric_known := by decide
  checkpoint_known := by decide
  bindings_unique := by decide
  roles := by decide
  daily_scope := by decide

def sampleReference : FrozenDecisionReference where
  decisionReferenceObservationId := 1
  valueStatus := .present
  availabilityStatus := .available
  finalityStatus := .unknown
  decimalValue := some 100
  availability := rfl
  value_iff := by decide
  value_positive := by decide +kernel

def sampleSession : OutcomeSessionSource where
  sessionId := 1
  sessionOffset := 1
  exchange := "SSE"
  sessionDate := 0
  timezoneName := "UTC"
  openAt := 0
  closeAt := 54000000000
  sourceCaptureId := 1
  providerProductId := 1
  recordedAt := 0
  knownAt := 0
  offset_positive := first_ordinal
  exchange_named := (by decide : ¬ "SSE" = "")
  ordered := by decide

def sampleBar (checkpoint : Nat) (ordinal : Int) (h : 1 ≤ ordinal) : OutcomeBarSource where
  targetCheckpointId := checkpoint
  sourceOrdinal := ordinal
  providerProductId := 1
  captureId := 1
  instrumentId := 1
  sessionId := 1
  timeframe := "DAILY"
  priceBasis := "RAW_UNADJUSTED"
  eventStart := 0
  eventEnd := 54000000000
  recordedAt := 54000000000
  knownAt := 54000000000
  ordinal_positive := h
  ordered := by decide
  barRevisionId := 7
  revision := 1
  openValue := 101
  highValue := 106
  lowValue := 94
  closeValue := 103
  revision_positive := by decide
  values_positive := by decide +kernel
  high_greatest := by decide +kernel
  low_least := by decide +kernel

def sampleSources : List OutcomeObservationSource :=
  [.bar (sampleBar 11 1 first_ordinal), .bar (sampleBar 12 2 second_ordinal)]

/-- The sample is made into a sound revision. -/
theorem outcome_revision_sound_sample : ∃ draft,
    calculateMarketTargetOutcome sampleCombine sampleTarget sampleReference
        [sampleSession] sampleSources 54000000000 54000000000 = .ok draft
      ∧ RevisionSound sampleTarget sampleReference sampleSources draft := by
  obtain ⟨_, hrun⟩ := exists_of_isOk (show (calculateMarketTargetOutcome sampleCombine sampleTarget
      sampleReference [sampleSession] sampleSources 54000000000 54000000000).isOk by decide +kernel)
  have hsame : SameBar sampleTarget sampleSources := by
    intro m _ _ first last hfirst hlast _
    simp only [sampleSources, mem_cons, not_mem_nil, or_false,
      OutcomeObservationSource.bar.injEq] at hfirst hlast
    rcases hfirst with rfl | rfl
    · rcases hlast with rfl | rfl
      · rfl
      · rfl
    · rcases hlast with rfl | rfl
      · rfl
      · rfl
  obtain ⟨draft, hdraft, hsound, -⟩ := outcome_revision_sound sampleCombine
    sampleTarget sampleReference [sampleSession] sampleSources 54000000000
    54000000000 (validated hrun) hsame (by rw [hrun]; exact nofun)
  exact ⟨draft, hdraft, hsound⟩

end MarketRegimeAlpha.Outcome
