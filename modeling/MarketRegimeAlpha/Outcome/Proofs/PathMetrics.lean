/-
The metrics of one path: its excursions, the returns on its checkpoints
and its barriers.

# The values first

A metric that is calculated over complete bars has the value of its kind
(`Measured.value`), and for each kind that value is a number of the path
as a set: the greatest high, the least low, the boundary crossed and the
first bar that crosses it. So the order of the dependencies is gone, and
what is left to compare are numbers (`Outcome.Proofs.Excursion`).
-/
import MarketRegimeAlpha.Outcome.Proofs.Excursion
import MarketRegimeAlpha.Outcome.Proofs.Soundness

namespace MarketRegimeAlpha.Outcome

open Lib List

variable {reference : FrozenDecisionReference} {observations : List (Nat × OutcomeObservationDraft)}
  {path : List (OutcomeCheckpoint × OutcomeBarSource)} {definition : OutcomeMetricDefinition}
  {m : OutcomeMetricDraft} {values : List (Option ℚ)} {α : Type _}
  {observed : List OutcomeObservationDraft} {found : List OutcomeObservationDraft}

/-- The observations of complete bars. -/
def drafts (path : List (OutcomeCheckpoint × OutcomeBarSource)) :
    List OutcomeObservationDraft :=
  path.map fun item => observationDraft item.1 (.bar item.2)

/-- `m` is what `_metric` makes of a definition whose dependencies are the
path, in some order. -/
def Measured (reference : FrozenDecisionReference)
    (observations : List (Nat × OutcomeObservationDraft)) (path : List OutcomeObservationDraft)
    (definition : OutcomeMetricDefinition) (m : OutcomeMetricDraft) : Prop :=
  ∃ dependencies found,
    definition.metricKind.acceptsRoles (dependencies.map (·.role))
      ∧ ((dependencies.filter fun item =>
          item.role ∈ [.observation, .pathMember]).mapM fun item =>
        getItem observations item.targetCheckpointId) = .ok found
      ∧ found.Perm path
      ∧ metric definition dependencies observations reference = .ok m

-- ==== the values

theorem OutcomeMetricDraft.eq_of_postInit {m m' : OutcomeMetricDraft}
    (h : m.postInit = .ok m') : m' = m := by
  unfold OutcomeMetricDraft.postInit at h
  simp only [bind_ok, require_ok] at h
  obtain ⟨_, -, _, -, _, -, h⟩ := h
  split at h
  · simp only [bind_ok, require_ok, pure_ok] at h
    obtain ⟨_, -, _, -, rfl⟩ := h
    rfl
  · simp only [bind_ok, require_ok, pure_ok] at h
    obtain ⟨_, -, _, -, rfl⟩ := h
    rfl

theorem mem_drafts {o : OutcomeObservationDraft} (ho : o ∈ drafts path) :
    o.status = .complete ∧ ∃ high low selected, o.highValue = some high
      ∧ o.lowValue = some low ∧ o.selectedValue = some selected
      ∧ 0 < low ∧ low ≤ selected ∧ selected ≤ high := by
  obtain ⟨⟨checkpoint, bar⟩, -, rfl⟩ := mem_map.mp ho
  obtain ⟨-, -, hpos, -⟩ := bar.values_positive
  have hhigh := bar.high_greatest
  have hlow := bar.low_least
  simp only [max_le_iff, le_min_iff] at hhigh hlow
  refine ⟨rfl, _, _, _, rfl, rfl, rfl, hpos, ?_, ?_⟩
  · cases checkpoint.valueField with
    | openField => exact hlow.1.1.1
    | highField => exact hlow.1.1.2
    | lowField => exact le_rfl
    | closeField => exact hlow.2
  · cases checkpoint.valueField with
    | openField => exact hhigh.1.1.1
    | highField => exact le_rfl
    | lowField => exact hhigh.1.2
    | closeField => exact hhigh.2

variable (dependencies : List OutcomeMetricDependency) (hpresent : reference.decimalValue.isSome)

include hpresent in
/-- Over complete observations and a reference that is present, every state
is complete. -/
theorem states_complete (hcomplete : ∀ o ∈ found, o.status = .complete) :
    ∀ status ∈ dependencyStates dependencies found reference,
      status = .complete := by
  have hreference : referenceStatus reference = .complete := by
    unfold referenceStatus
    rw [reference.value_iff.mp hpresent]
  intro status hstatus
  rcases mem_append.mp hstatus with hmem | hmem
  · obtain ⟨o, ho, rfl⟩ := mem_map.mp hmem
    exact hcomplete o ho
  · split at hmem
    · rw [mem_singleton.mp hmem]
      exact hreference
    · cases hmem

include hpresent in
/-- Over complete observations, the value of its kind is what a metric
comes to. -/
theorem metric_eq {dependencies : List OutcomeMetricDependency}
    (hcomplete : ∀ o ∈ found, o.status = .complete)
    (hfound : ((dependencies.filter fun item =>
        item.role ∈ [.observation, .pathMember]).mapM fun item =>
      getItem observations item.targetCheckpointId) = .ok found) :
    metric definition dependencies observations reference = (do
      let value ← metricValue definition found reference.decimalValue
      metricResult definition .complete .available value) := by
  have hall := states_complete dependencies hpresent hcomplete
  have hfailed : .failed ∉ dependencyStates dependencies found reference := by
    intro hmem
    cases hall _ hmem
  unfold metric
  rw [hfound, ok_bind]
  rw [if_neg hfailed,
    if_neg fun ⟨status, hmem, hne⟩ => hne (hall status hmem)]

include hpresent in
theorem Measured.value (hcomplete : ∀ o ∈ observed, o.status = .complete)
    (h : Measured reference observations observed definition m) :
    ∃ found value, found.Perm observed
      ∧ metricValue definition found reference.decimalValue = .ok value
      ∧ m = metricDraft definition .complete .available value := by
  obtain ⟨dependencies, found, -, hfound, hperm, hmetric⟩ := h
  rw [metric_eq hpresent (fun o ho => hcomplete o (hperm.mem_iff.mp ho))
    hfound] at hmetric
  simp only [bind_ok] at hmetric
  obtain ⟨value, hvalue, hresult⟩ := hmetric
  exact ⟨found, value, hperm, hvalue,
    OutcomeMetricDraft.eq_of_postInit hresult⟩

theorem measured_of_value {value : Option ℚ × Option Bool × Option Instant}
    (hroles : definition.metricKind.acceptsRoles (dependencies.map (·.role)))
    (hpresent : reference.decimalValue.isSome)
    (hcomplete : ∀ o ∈ observed, o.status = .complete)
    (hfound : ((dependencies.filter fun item =>
        item.role ∈ [.observation, .pathMember]).mapM fun item =>
      getItem observations item.targetCheckpointId) = .ok observed)
    (hvalue : metricValue definition observed reference.decimalValue = .ok value)
    (htyped : Typed definition.metricKind value) :
    Measured reference observations observed definition
      (metricDraft definition .complete .available value) := by
  refine ⟨dependencies, observed, hroles, hfound, .refl _, ?_⟩
  rw [metric_eq hpresent hcomplete hfound, hvalue]
  exact metricDraft_postInit definition .complete rfl htyped

theorem asserted_eq {value : Option α} {x : α}
    (h : asserted value = .ok x) : value = some x := by
  cases value with
  | none => cases h
  | some y => rw [Except.ok.inj h]

theorem mapM_asserted_eq {values : List (Option α)} {l : List α}
    (h : values.mapM asserted = .ok l) : values = l.map some := by
  have hmap := map_mapM_ok (f := asserted) (g := some) (k := id)
    (fun value x hx => (asserted_eq hx).symm) h
  rw [map_id] at hmap
  exact hmap.symm

theorem maxAsserted_spec {x : ℚ}
    (h : maxAsserted values = .ok x) : IsGreatest {v | some v ∈ values} x := by
  unfold maxAsserted at h
  simp only [bind_ok] at h
  obtain ⟨l, hl, hx⟩ := h
  rw [mapM_asserted_eq hl]
  cases l with
  | nil => cases hx
  | cons a l =>
    cases hx
    have hgreatest := isGreatest_foldl_max a l
    have hset : {v | some v ∈ (a :: l).map some} = insert a {v | v ∈ l} := by
      ext v
      simp
    rw [hset]
    exact hgreatest

theorem minAsserted_spec {x : ℚ}
    (h : minAsserted values = .ok x) : IsLeast {v | some v ∈ values} x := by
  unfold minAsserted at h
  simp only [bind_ok] at h
  obtain ⟨l, hl, hx⟩ := h
  rw [mapM_asserted_eq hl]
  cases l with
  | nil => cases hx
  | cons a l =>
    cases hx
    have hleast := isLeast_foldl_min a l
    have hset : {v | some v ∈ (a :: l).map some} = insert a {v | v ∈ l} := by
      ext v
      simp
    rw [hset]
    exact hleast

theorem ratio_ok {x y : ℚ} (h : ratio x = .ok y) :
    y = quantize halfEven ratioQuantum x := by
  unfold ratio at h
  simp only [bind_ok, require_ok, pure_ok] at h
  obtain ⟨_, -, rfl⟩ := h
  rfl

theorem ratio_of_lt {x : ℚ} (h : |quantize halfEven ratioQuantum x| < 10 ^ 20) :
    ratio x = .ok (quantize halfEven ratioQuantum x) := by
  show (do
    Lib.require (|quantize halfEven ratioQuantum x| < 10 ^ 20)
      KernelError.invalidOperation
    return quantize halfEven ratioQuantum x) = _
  rw [require_true h]
  rfl

section Values

variable {r : ℚ} (hr : reference.decimalValue = some r)
include hr

theorem Measured.metricValue_of (h : Measured reference observations (drafts path) definition m) :
    ∃ found value, found.Perm (drafts path)
      ∧ metricValue definition found (some r) = .ok value
      ∧ m = metricDraft definition .complete .available value := by
  have hpresent : reference.decimalValue.isSome := by
    rw [hr]
    rfl
  obtain ⟨found, value, hperm, hvalue, hm⟩ := h.value hpresent fun o ho => (mem_drafts ho).1
  rw [hr] at hvalue
  exact ⟨found, value, hperm, hvalue, hm⟩

theorem Measured.favorable (hkind : definition.metricKind = .maxFavorableExcursion)
    (h : Measured reference observations (drafts path) definition m) :
    ∃ high, IsGreatest {x | ∃ o ∈ drafts path, o.highValue = some x} high
      ∧ m.decimalValue = some (favorable r high) := by
  obtain ⟨found, value, hperm, hvalue, rfl⟩ := h.metricValue_of hr
  unfold metricValue at hvalue
  rw [hkind] at hvalue
  simp only [asserted, ok_bind, bind_ok, pure_ok] at hvalue
  obtain ⟨high, hhigh, ratio, hratio, rfl⟩ := hvalue
  refine ⟨high, ?_, ?_⟩
  · have hgreatest := maxAsserted_spec hhigh
    have hset : {x | some x ∈ found.map (·.highValue)}
        = {x | ∃ o ∈ drafts path, o.highValue = some x} := by
      simp [hperm.mem_iff]
    rwa [hset] at hgreatest
  · rw [ratio_ok hratio]
    rfl

theorem Measured.adverse (hkind : definition.metricKind = .maxAdverseExcursion)
    (h : Measured reference observations (drafts path) definition m) :
    ∃ low, IsLeast {x | ∃ o ∈ drafts path, o.lowValue = some x} low
      ∧ m.decimalValue = some (adverse r low) := by
  obtain ⟨found, value, hperm, hvalue, rfl⟩ := h.metricValue_of hr
  unfold metricValue at hvalue
  rw [hkind] at hvalue
  simp only [asserted, ok_bind, bind_ok, pure_ok] at hvalue
  obtain ⟨low, hlow, ratio, hratio, rfl⟩ := hvalue
  refine ⟨low, ?_, ?_⟩
  · have hleast := minAsserted_spec hlow
    have hset : {x | some x ∈ found.map (·.lowValue)}
        = {x | ∃ o ∈ drafts path, o.lowValue = some x} := by
      simp [hperm.mem_iff]
    rwa [hset] at hleast
  · rw [ratio_ok hratio]
    rfl

theorem Measured.simpleReturn {item : OutcomeCheckpoint × OutcomeBarSource}
    (hkind : definition.metricKind = .simpleReturn)
    (h : Measured reference observations (drafts [item]) definition m) :
    m.decimalValue = some (quantize halfEven ratioQuantum
      (gain r (item.2.selected item.1.valueField))) := by
  obtain ⟨found, value, hperm, hvalue, rfl⟩ := h.metricValue_of hr
  obtain rfl : found = drafts [item] := perm_singleton.mp hperm
  unfold metricValue at hvalue
  rw [hkind] at hvalue
  simp only [asserted, ok_bind, drafts, map_cons, observationDraft,
    bind_ok, pure_ok] at hvalue
  obtain ⟨ratio, hratio, rfl⟩ := hvalue
  exact congrArg some (ratio_ok hratio)

def crossings (path : List OutcomeObservationDraft)
    (direction : OutcomeBarrierDirection) (boundary : ℚ) : Set Instant :=
  {e | ∃ o ∈ path, crosses direction boundary o ∧ o.eventEnd = e}

variable {direction : OutcomeBarrierDirection} {boundary : ℚ}

omit hr in
/-- The first of the sorted bars that cross is the earliest. -/
theorem head_crossings {found : List OutcomeObservationDraft} {e : Instant} :
    (((sortBy (·.eventEnd) found).filter (crosses direction boundary)).head?.map
        (·.eventEnd)) = some e
      ↔ IsLeast (crossings found direction boundary) e := by
  have hmem : ∀ o, o ∈ (sortBy (·.eventEnd) found).filter
      (crosses direction boundary)
        ↔ o ∈ found ∧ crosses direction boundary o := by
    intro o
    rw [mem_filter, (sortBy_perm _ _).mem_iff]
  have hsorted := (sortBy_pairwise (·.eventEnd) found).filter
    (crosses direction boundary)
  cases hhits : (sortBy (·.eventEnd) found).filter
      (crosses direction boundary) with
  | nil =>
    simp only [head?_nil, Option.map_none, reduceCtorEq, false_iff]
    rintro ⟨⟨o, ho, hcross, -⟩, -⟩
    have hin := (hmem o).mpr ⟨ho, hcross⟩
    rw [hhits] at hin
    cases hin
  | cons first rest =>
    rw [hhits] at hmem hsorted
    have hleast : IsLeast (crossings found direction boundary)
        first.eventEnd := by
      constructor
      · obtain ⟨ho, hcross⟩ := (hmem first).mp mem_cons_self
        exact ⟨first, ho, hcross, rfl⟩
      · rintro _ ⟨o, ho, hcross, rfl⟩
        rcases mem_cons.mp ((hmem o).mpr ⟨ho, hcross⟩) with rfl | hrest
        · exact le_rfl
        · exact rel_of_pairwise_cons hsorted hrest
    simp only [head?_cons, Option.map_some, Option.some.injEq]
    constructor
    · rintro rfl
      exact hleast
    · exact hleast.unique

omit hr in
theorem exists_first {observed : List OutcomeObservationDraft}
    (h : (crossings observed direction boundary).Nonempty) :
    ∃ e, IsLeast (crossings observed direction boundary) e := by
  obtain ⟨_, o, ho, hcross, -⟩ := h
  have hin : o ∈ (sortBy (·.eventEnd) observed).filter
      (crosses direction boundary) :=
    mem_filter.mpr ⟨(sortBy_perm _ _).mem_iff.mpr ho, hcross⟩
  cases hhits : (sortBy (·.eventEnd) observed).filter
      (crosses direction boundary) with
  | nil =>
    rw [hhits] at hin
    cases hin
  | cons first rest =>
    refine ⟨first.eventEnd, head_crossings.mp ?_⟩
    rw [hhits]
    rfl

theorem Measured.boolean_isSome (hkind : definition.metricKind = .barrierHit)
    (h : Measured reference observations (drafts path) definition m) :
    m.booleanValue.isSome := by
  obtain ⟨found, value, -, hvalue, rfl⟩ := h.metricValue_of hr
  unfold metricValue at hvalue
  rw [hkind] at hvalue
  simp only [bind_ok, pure_ok] at hvalue
  obtain ⟨_, -, _, -, _, -, rfl⟩ := hvalue
  rfl

/-- A barrier is hit by a bar that crosses its boundary, first at the
earliest of them. -/
theorem Measured.barrier {t : ℚ} (hkind : definition.metricKind = .barrierHit)
    (hdirection : definition.barrierDirection = some direction)
    (hthreshold : definition.barrierThreshold = some t)
    (h : Measured reference observations (drafts path) definition m) :
    (m.booleanValue = some true ↔ (crossings (drafts path) direction
        (barrierBoundary r direction t)).Nonempty)
      ∧ ∀ e, m.firstPassageAt = some e ↔ IsLeast (crossings (drafts path)
        direction (barrierBoundary r direction t)) e := by
  obtain ⟨found, value, hperm, hvalue, rfl⟩ := h.metricValue_of hr
  unfold metricValue at hvalue
  rw [hkind, hdirection, hthreshold] at hvalue
  simp only [asserted, ok_bind, pure_ok] at hvalue
  subst hvalue
  have hset : crossings (drafts path) direction (barrierBoundary r direction t)
      = crossings found direction (barrierBoundary r direction t) := by
    simp only [crossings, hperm.mem_iff]
  rw [hset]
  refine ⟨?_, fun e => head_crossings⟩
  simp only [metricDraft, Option.some.injEq, decide_eq_true_eq]
  constructor
  · intro hne
    obtain ⟨o, ho⟩ := exists_mem_of_ne_nil _ hne
    obtain ⟨hin, hcross⟩ := mem_filter.mp ho
    exact ⟨o.eventEnd, o, (sortBy_perm _ _).mem_iff.mp hin, hcross, rfl⟩
  · rintro ⟨_, o, ho, hcross, -⟩
    apply ne_nil_of_mem (a := o)
    exact mem_filter.mpr ⟨(sortBy_perm _ _).mem_iff.mpr ho, hcross⟩

end Values

-- ==== the law

structure OutcomeMetricDefinition.IsBarrier (d : OutcomeMetricDefinition)
    (direction : OutcomeBarrierDirection) (t : ℚ) : Prop where
  kind : d.metricKind = .barrierHit
  direction : d.barrierDirection = some direction
  threshold : d.barrierThreshold = some t

theorem OutcomeMetricDefinition.IsBarrier.value_exists {direction : OutcomeBarrierDirection} {t : ℚ}
    (h : definition.IsBarrier direction t) (observed : List OutcomeObservationDraft) (r : ℚ) :
    ∃ value, metricValue definition observed (some r) = .ok value
      ∧ Typed definition.metricKind value := by
  unfold metricValue Typed
  rw [h.kind, h.direction, h.threshold]
  exact ⟨_, rfl, rfl, rfl⟩

/-- The metrics of a path are consistent, for the upper thresholds that
are in a range. -/
structure PathLaw (inRange : ℚ → Prop) (reference : FrozenDecisionReference)
    (observations : List (Nat × OutcomeObservationDraft))
    (path : List (OutcomeCheckpoint × OutcomeBarSource)) : Prop where
  favorable_nonneg : ∀ d m, d.metricKind = .maxFavorableExcursion →
    Measured reference observations (drafts path) d m →
    ∃ f, m.decimalValue = some f ∧ 0 ≤ f
  adverse_nonpos : ∀ d m, d.metricKind = .maxAdverseExcursion →
    Measured reference observations (drafts path) d m →
    ∃ a, m.decimalValue = some a ∧ a ≤ 0
  /-- A return on a checkpoint of the path is between the excursions. -/
  between : ∀ favorableDefinition favorable adverseDefinition adverse d m,
    favorableDefinition.metricKind = .maxFavorableExcursion →
    Measured reference observations (drafts path) favorableDefinition favorable →
    adverseDefinition.metricKind = .maxAdverseExcursion →
    Measured reference observations (drafts path) adverseDefinition adverse →
    d.metricKind = .simpleReturn →
    ∀ item ∈ path, Measured reference observations (drafts [item]) d m →
    ∃ a x f, adverse.decimalValue = some a ∧ m.decimalValue = some x
      ∧ favorable.decimalValue = some f ∧ a ≤ x ∧ x ≤ f
  /-- An excursion beyond a threshold hits the barrier, and a barrier is
  hit by an excursion as far as its threshold. -/
  up : ∀ favorableDefinition favorable d m t,
    favorableDefinition.metricKind = .maxFavorableExcursion →
    Measured reference observations (drafts path) favorableDefinition favorable →
    d.IsBarrier .up t → OnGrid t → inRange t →
    Measured reference observations (drafts path) d m →
    ∃ f, favorable.decimalValue = some f
      ∧ (t < f → m.booleanValue = some true)
      ∧ (m.booleanValue = some true → t ≤ f)
  down : ∀ adverseDefinition adverse d m t,
    adverseDefinition.metricKind = .maxAdverseExcursion →
    Measured reference observations (drafts path) adverseDefinition adverse →
    d.IsBarrier .down t → OnGrid t →
    Measured reference observations (drafts path) d m →
    ∃ a, adverse.decimalValue = some a
      ∧ (a < -t → m.booleanValue = some true)
      ∧ (m.booleanValue = some true → a ≤ -t)
  /-- What hits a barrier hits those before it, no later. -/
  monotone : ∀ direction d m t d' m' t', d.IsBarrier direction t →
    d'.IsBarrier direction t' → t ≤ t' →
    Measured reference observations (drafts path) d m →
    Measured reference observations (drafts path) d' m' →
    m'.booleanValue = some true → m.booleanValue = some true
      ∧ ∃ e e', m.firstPassageAt = some e ∧ m'.firstPassageAt = some e'
        ∧ e ≤ e'
  /-- The first passage is the earliest of the crossing bars. -/
  first : ∀ direction d m t r, d.IsBarrier direction t →
    reference.decimalValue = some r →
    Measured reference observations (drafts path) d m →
    (m.booleanValue = some true ↔ (crossings (drafts path) direction
        (barrierBoundary r direction t)).Nonempty)
      ∧ ∀ e, m.firstPassageAt = some e ↔ IsLeast (crossings (drafts path)
        direction (barrierBoundary r direction t)) e
  /-- The order of the dependencies makes no difference. -/
  order : ∀ direction d m m' t, d.IsBarrier direction t →
    Measured reference observations (drafts path) d m →
    Measured reference observations (drafts path) d m' →
    m.booleanValue = m'.booleanValue ∧ m.firstPassageAt = m'.firstPassageAt

section Crossings

variable {boundary high low : ℚ}

theorem crossings_up (hhigh : IsGreatest {x | ∃ o ∈ drafts path, o.highValue = some x} high) :
    (crossings (drafts path) .up boundary).Nonempty ↔ boundary ≤ high := by
  constructor
  · rintro ⟨_, o, ho, hcross, -⟩
    obtain ⟨-, x, -, -, hx, -⟩ := mem_drafts ho
    simp only [crosses, hx, Option.any_some, decide_eq_true_eq] at hcross
    exact hcross.trans (hhigh.2 ⟨o, ho, hx⟩)
  · intro hle
    obtain ⟨o, ho, hx⟩ := hhigh.1
    refine ⟨o.eventEnd, o, ho, ?_, rfl⟩
    simpa only [crosses, hx, Option.any_some, decide_eq_true_eq] using hle

theorem crossings_down (hlow : IsLeast {x | ∃ o ∈ drafts path, o.lowValue = some x} low) :
    (crossings (drafts path) .down boundary).Nonempty ↔ low ≤ boundary := by
  constructor
  · rintro ⟨_, o, ho, hcross, -⟩
    obtain ⟨-, -, x, -, -, hx, -⟩ := mem_drafts ho
    simp only [crosses, hx, Option.any_some, decide_eq_true_eq] at hcross
    exact (hlow.2 ⟨o, ho, hx⟩).trans hcross
  · intro hle
    obtain ⟨o, ho, hx⟩ := hlow.1
    refine ⟨o.eventEnd, o, ho, ?_, rfl⟩
    simpa only [crosses, hx, Option.any_some, decide_eq_true_eq] using hle

theorem crossings_anti {r t t' : ℚ} (hr : 0 < r) (hle : t ≤ t')
    (direction : OutcomeBarrierDirection) (observed : List OutcomeObservationDraft) :
    crossings observed direction (barrierBoundary r direction t')
      ⊆ crossings observed direction (barrierBoundary r direction t) := by
  rintro e ⟨o, ho, hcross, he⟩
  refine ⟨o, ho, ?_, he⟩
  cases direction with
  | up =>
    have hboundary := barrierBoundary_up_mono hr hle
    cases hhigh : o.highValue with
    | none => simp [crosses, hhigh] at hcross
    | some x =>
      simp only [crosses, hhigh, Option.any_some,
        decide_eq_true_eq] at hcross ⊢
      exact hboundary.trans hcross
  | down =>
    have hboundary := barrierBoundary_down_anti hr hle
    cases hlow : o.lowValue with
    | none => simp [crosses, hlow] at hcross
    | some x =>
      simp only [crosses, hlow, Option.any_some,
        decide_eq_true_eq] at hcross ⊢
      exact hcross.trans hboundary

end Crossings

theorem quantize_zero : quantize halfEven ratioQuantum 0 = 0 := by
  have hzero := quantize_units ratioQuantum_pos.ne' 0
  rwa [Int.cast_zero, zero_mul] at hzero

theorem favorable_nonneg (r h : ℚ) : 0 ≤ favorable r h :=
  quantize_zero.symm.le.trans (quantize_mono ratioQuantum_pos (le_max_left _ _))

theorem adverse_nonpos (r l : ℚ) : adverse r l ≤ 0 :=
  (quantize_mono ratioQuantum_pos (min_le_left _ _)).trans quantize_zero.le

/-- The metrics of a path of complete bars are consistent, for upper
thresholds that come to less than `9 * 10 ^ 18` references. -/
theorem path_metrics_consistent (reference : FrozenDecisionReference)
    (observations : List (Nat × OutcomeObservationDraft))
    (path : List (OutcomeCheckpoint × OutcomeBarSource)) (r : ℚ)
    (hr : reference.decimalValue = some r) :
    PathLaw InRange reference observations path := by
  have hpos : 0 < r := reference.value_positive r (by rw [hr]; rfl)
  constructor
  case favorable_nonneg =>
    intro d m hkind h
    obtain ⟨high, -, hvalue⟩ := h.favorable hr hkind
    exact ⟨_, hvalue, favorable_nonneg r high⟩
  case adverse_nonpos =>
    intro d m hkind h
    obtain ⟨low, -, hvalue⟩ := h.adverse hr hkind
    exact ⟨_, hvalue, adverse_nonpos r low⟩
  case between =>
    intro df mf da ma d m hfkind hf hakind ha hkind item hitem h
    obtain ⟨high, hhigh, hfvalue⟩ := hf.favorable hr hfkind
    obtain ⟨low, hlow, havalue⟩ := ha.adverse hr hakind
    have hvalue := h.simpleReturn hr hkind
    have hin : observationDraft item.1 (.bar item.2) ∈ drafts path := mem_map_of_mem hitem
    obtain ⟨-, oh, ol, os, hoh, hol, hos, -, hlo, hhi⟩ := mem_drafts hin
    obtain rfl : item.2.selected item.1.valueField = os := Option.some.inj hos
    have hlower := gain_mono hpos ((hlow.2 ⟨_, hin, hol⟩).trans hlo)
    have hupper := gain_mono hpos (hhi.trans (hhigh.2 ⟨_, hin, hoh⟩))
    refine ⟨_, _, _, havalue, hvalue, hfvalue, ?_, ?_⟩
    · exact quantize_mono ratioQuantum_pos ((min_le_right _ _).trans hlower)
    · exact quantize_mono ratioQuantum_pos (hupper.trans (le_max_right _ _))
  case up =>
    intro df mf d m t hfkind hf hbarrier hgrid hrange h
    obtain ⟨high, hhigh, hfvalue⟩ := hf.favorable hr hfkind
    obtain ⟨hhit, -⟩ := h.barrier hr hbarrier.kind hbarrier.direction
      hbarrier.threshold
    have h0 : 0 < t := d.threshold_positive t (by rw [hbarrier.threshold]; rfl)
    obtain ⟨o, ho, hoh⟩ := hhigh.1
    obtain ⟨-, x, low, selected, hx, -, -, hlow, hlo, hhi⟩ := mem_drafts ho
    obtain rfl : x = high := Option.some.inj (hx.symm.trans hoh)
    have hhighPos : 0 < x := hlow.trans_le (hlo.trans hhi)
    rw [crossings_up hhigh] at hhit
    refine ⟨_, hfvalue, fun hlt => ?_, fun hown => ?_⟩
    · exact hhit.mpr (le_of_lt_favorable hpos hgrid h0 hrange x hhighPos hlt)
    · exact le_favorable hpos hgrid h0 hrange x (hhit.mp hown)
  case down =>
    intro da ma d m t hakind ha hbarrier hgrid h
    obtain ⟨low, hlow, havalue⟩ := ha.adverse hr hakind
    obtain ⟨hhit, -⟩ := h.barrier hr hbarrier.kind hbarrier.direction
      hbarrier.threshold
    have h0 : 0 < t := d.threshold_positive t (by rw [hbarrier.threshold]; rfl)
    obtain ⟨o, ho, hol⟩ := hlow.1
    obtain ⟨-, -, x, -, -, hx, -, hlowPos, -, -⟩ := mem_drafts ho
    obtain rfl : x = low := Option.some.inj (hx.symm.trans hol)
    rw [crossings_down hlow] at hhit
    refine ⟨_, havalue, fun hlt => ?_, fun hown => ?_⟩
    · exact hhit.mpr (le_of_adverse_lt hpos hgrid h0 x hlowPos hlt)
    · exact adverse_le hpos hgrid h0 x hlowPos (hhit.mp hown)
  case monotone =>
    intro direction d m t d' m' t' hbarrier hbarrier' hle h h' hown
    obtain ⟨hhit, hfirst⟩ := h.barrier hr hbarrier.kind hbarrier.direction
      hbarrier.threshold
    obtain ⟨hhit', hfirst'⟩ := h'.barrier hr hbarrier'.kind
      hbarrier'.direction hbarrier'.threshold
    have hsubset := crossings_anti hpos hle direction (drafts path)
    have hsome := (hhit'.mp hown).mono hsubset
    obtain ⟨e, he⟩ := exists_first hsome
    obtain ⟨e', he'⟩ := exists_first (hhit'.mp hown)
    exact ⟨hhit.mpr hsome, e, e', (hfirst e).mpr he, (hfirst' e').mpr he',
      he.2 (hsubset he'.1)⟩
  case first =>
    intro direction d m t r' hbarrier hr' h
    exact h.barrier hr' hbarrier.kind hbarrier.direction hbarrier.threshold
  case order =>
    intro direction d m m' t hbarrier h h'
    obtain ⟨hhit, hfirst⟩ := h.barrier hr hbarrier.kind hbarrier.direction
      hbarrier.threshold
    obtain ⟨hhit', hfirst'⟩ := h'.barrier hr hbarrier.kind
      hbarrier.direction hbarrier.threshold
    constructor
    · obtain ⟨b, hb⟩ := Option.isSome_iff_exists.mp
        (h.boolean_isSome hr hbarrier.kind)
      obtain ⟨b', hb'⟩ := Option.isSome_iff_exists.mp
        (h'.boolean_isSome hr hbarrier.kind)
      rw [hb, Option.some.injEq] at hhit
      rw [hb', Option.some.injEq] at hhit'
      rw [hb, hb', Bool.eq_iff_iff.mpr (hhit.trans hhit'.symm)]
    · exact Option.ext fun e => (hfirst e).trans (hfirst' e).symm

-- ==== the samples

section Samples

def sampleFavorable : OutcomeMetricDefinition :=
  { sampleReturn with
    targetMetricDefinitionId := 23
    metricCode := "favorable"
    metricKind := .maxFavorableExcursion
    identity := by decide
    shape := rfl
    barrier := ⟨rfl, rfl⟩ }

def samplePath : List (OutcomeCheckpoint × OutcomeBarSource) :=
  [(sampleCheckpoint 12 .closeField 1 first_ordinal, sampleBar 12 1 first_ordinal)]

def pathDependencies : List OutcomeMetricDependency :=
  [sampleDependency 1 first_ordinal 23 10 .reference,
    sampleDependency 2 second_ordinal 23 12 .pathMember]

def observationsOfPath (path : List (OutcomeCheckpoint × OutcomeBarSource)) :
    List (Nat × OutcomeObservationDraft) :=
  (drafts path).map fun o => (o.targetCheckpointId, o)

/-- The sample is consistent. -/
theorem path_metrics_consistent_sample : PathLaw InRange sampleReference
    (observationsOfPath samplePath) samplePath :=
  path_metrics_consistent _ _ _ 100 rfl

/-- A barrier at so many references that one part in `10 ^ 38` is more
than a quantum. -/
def distantBarrier : OutcomeMetricDefinition :=
  { sampleBarrier with
    barrierThreshold := some 59999999999999999999
    barrier := ⟨rfl, rfl⟩
    threshold_positive := by simp }

def distantReference : FrozenDecisionReference :=
  { sampleReference with
    decimalValue := some (16666666666666666666666666666666666667 / 10 ^ 37)
    value_iff := by simp [sampleReference]
    value_positive := by norm_num }

def distantBar : OutcomeBarSource :=
  { sampleBar 12 1 first_ordinal with
    highValue := 10 ^ 20
    values_positive := by norm_num [sampleBar]
    high_greatest := by norm_num [sampleBar]
    low_least := by norm_num [sampleBar] }

def distantPath : List (OutcomeCheckpoint × OutcomeBarSource) :=
  [(sampleCheckpoint 12 .closeField 1 first_ordinal, distantBar)]

theorem distant_boundary : barrierBoundary
    (16666666666666666666666666666666666667 / 10 ^ 37) .up
      59999999999999999999 ≤ 10 ^ 20 := by
  have hsum : decimal (1 + 59999999999999999999) = 6 * 10 ^ 19 := by
    have hgrid : OnGrid (6 * 10 ^ 19) := ⟨6 * 10 ^ 37, by norm_num [ratioQuantum]⟩
    rw [show (1 + 59999999999999999999 : ℚ) = 6 * 10 ^ 19 by norm_num]
    exact hgrid.decimal_eq (by norm_num)
  unfold barrierBoundary
  rw [hsum]
  have hproduct : (16666666666666666666666666666666666667 / 10 ^ 37 : ℚ)
      * (6 * 10 ^ 19) = 10 ^ 20 + 2 / 10 ^ 18 := by norm_num
  unfold decimal
  rw [roundSignificant_of_bounds (e := 20) (by norm_num) (by norm_num)]
  apply (quantize_le_of_lt (n := 10 ^ 37) (by norm_num) (by norm_num)).trans
  norm_num

theorem distant_favorable : favorable
    (16666666666666666666666666666666666667 / 10 ^ 37) (10 ^ 20)
      ≤ 59999999999999999999 - ratioQuantum := by
  have hgrid : OnGrid (59999999999999999999 - ratioQuantum) :=
    ⟨59999999999999999999 * 10 ^ 18 - 1, by norm_num [ratioQuantum]⟩
  have hexact : decimal (59999999999999999999 - ratioQuantum)
      = 59999999999999999999 - ratioQuantum :=
    hgrid.decimal_eq (by norm_num [ratioQuantum])
  have hsum : decimal (6 * 10 ^ 19 - ratioQuantum)
      = 6 * 10 ^ 19 - ratioQuantum := by
    apply OnGrid.decimal_eq
    · exact ⟨6 * 10 ^ 37 - 1, by norm_num [ratioQuantum]⟩
    · norm_num [ratioQuantum]
  have hquotient : decimal
      (10 ^ 20 / (16666666666666666666666666666666666667 / 10 ^ 37))
        ≤ 6 * 10 ^ 19 - ratioQuantum := by
    rw [← hsum]
    apply decimal_mono
    norm_num [ratioQuantum]
  have hgain : gain (16666666666666666666666666666666666667 / 10 ^ 37)
      (10 ^ 20) ≤ 59999999999999999999 - ratioQuantum := by
    rw [← hexact]
    apply decimal_mono
    linarith only [hquotient]
  apply hgrid.quantize_le
  apply max_lt
  · norm_num [ratioQuantum]
  · linarith only [hgain]

/-- The barrier is hit, and the favorable excursion is a quantum below its
threshold. -/
theorem distant_barrier_inconsistent : ¬ PathLaw (fun _ => True)
    distantReference (observationsOfPath distantPath) distantPath := by
  intro law
  have hcomplete : ∀ o ∈ drafts distantPath, o.status = .complete := fun o ho => (mem_drafts ho).1
  have hratio : ratio (max 0 (gain
      (16666666666666666666666666666666666667 / 10 ^ 37) (10 ^ 20)))
        = .ok (favorable (16666666666666666666666666666666666667 / 10 ^ 37)
          (10 ^ 20)) := by
    have hbound : |favorable (16666666666666666666666666666666666667 / 10 ^ 37)
        (10 ^ 20)| < 10 ^ 20 := by
      rw [abs_of_nonneg (favorable_nonneg _ _)]
      apply distant_favorable.trans_lt
      norm_num [ratioQuantum]
    exact ratio_of_lt hbound
  have hexcursion : metricValue sampleFavorable (drafts distantPath)
      (some (16666666666666666666666666666666666667 / 10 ^ 37))
        = .ok (some (favorable
          (16666666666666666666666666666666666667 / 10 ^ 37) (10 ^ 20)), none,
            none) := by
    show (do
      let value ← ratio (max 0 (gain
        (16666666666666666666666666666666666667 / 10 ^ 37) (10 ^ 20)))
      return (some value, none, none)) = _
    rw [hratio]
    rfl
  have hfavorable : Measured distantReference (observationsOfPath distantPath)
      (drafts distantPath) sampleFavorable _ :=
    measured_of_value pathDependencies (by decide) rfl hcomplete rfl hexcursion
      ⟨rfl, rfl, rfl⟩
  have hdistant : distantBarrier.IsBarrier .up 59999999999999999999 := ⟨rfl, rfl, rfl⟩
  obtain ⟨_, hvalue, htyped⟩ := hdistant.value_exists (drafts distantPath)
    (16666666666666666666666666666666666667 / 10 ^ 37)
  have hbarrier : Measured distantReference (observationsOfPath distantPath)
      (drafts distantPath) distantBarrier _ :=
    measured_of_value pathDependencies (by decide) rfl hcomplete rfl hvalue
      htyped
  obtain ⟨f, hf, -, hle⟩ := law.up sampleFavorable _ distantBarrier _
    59999999999999999999 rfl hfavorable hdistant
    ⟨59999999999999999999 * 10 ^ 18, by norm_num [ratioQuantum]⟩ trivial hbarrier
  have hcross : (crossings (drafts distantPath) .up (barrierBoundary
      (16666666666666666666666666666666666667 / 10 ^ 37) .up
        59999999999999999999)).Nonempty :=
    ⟨_, _, mem_cons_self, decide_eq_true distant_boundary, rfl⟩
  have hhit := (hbarrier.barrier rfl rfl rfl rfl).1.mpr hcross
  have hfar := hle hhit
  rw [← Option.some.inj hf] at hfar
  have hpos := ratioQuantum_pos
  linarith only [hfar, distant_favorable, hpos]

end Samples

end MarketRegimeAlpha.Outcome
