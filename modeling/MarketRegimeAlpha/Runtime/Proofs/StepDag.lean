/-
What `validate_step_dag` accepts: among plans that carry no profile and
no decision chain, exactly the acyclic ones, which are those with an
order of the Steps in which every dependency goes forward; of a formal
profile, only the chain of its Steps.

# The cycle check

Soundness and completeness both go through the depth-first check of
`Dfs`: a check that returns ranks the keys (`visitAll_ranked`), so
sorting the Steps by that rank puts every dependency forward
(`exists_forward`); a check that does not has met a key that reaches
itself.
-/
import MarketRegimeAlpha.Runtime.Model

namespace MarketRegimeAlpha.Runtime

open Lib List

variable {steps order : List StepSpec} {dependencies : List StepDependency}

-- ==== acyclic and forward

def Precedes (dependencies : List StepDependency) (p s : String) : Prop :=
  ∃ d ∈ dependencies, d.predecessorKey = p ∧ d.successorKey = s

/-- No key comes before itself. -/
def Acyclic (dependencies : List StepDependency) : Prop :=
  ∀ key, ¬ Relation.TransGen (Precedes dependencies) key key

def place (order : List StepSpec) (key : String) : Nat := (order.map (·.stepKey)).idxOf key

def Forward (order : List StepSpec) (dependencies : List StepDependency) :
    Prop :=
  ∀ d ∈ dependencies, place order d.predecessorKey < place order d.successorKey

variable {p s : String}

theorem precedes_iff_edge : Precedes dependencies p s ↔ Dfs.Edge (successors dependencies) p s :=
  mem_successors.symm

variable {rank : String → Nat}

theorem acyclic_of_rank (h : ∀ d ∈ dependencies,
    rank d.predecessorKey < rank d.successorKey) : Acyclic dependencies := by
  have hrise : ∀ p s, Relation.TransGen (Precedes dependencies) p s → rank p < rank s := by
    intro p s hps
    induction hps with
    | single hedge =>
      obtain ⟨d, hd, rfl, rfl⟩ := hedge
      exact h d hd
    | tail _ hedge ih =>
      obtain ⟨d, hd, rfl, rfl⟩ := hedge
      exact ih.trans (h d hd)
  intro key hkey
  exact Nat.lt_irrefl _ (hrise key key hkey)

/-- A list whose keys a rank never lowers, has a key of lower rank at an
earlier place. -/
theorem place_lt_of_rank (hsorted : order.Pairwise fun a b => rank a.stepKey ≤ rank b.stepKey)
    (hp : p ∈ order.map (·.stepKey)) (hs : s ∈ order.map (·.stepKey)) (hlt : rank p < rank s) :
    place order p < place order s := by
  by_contra hle
  have hsorted' : (order.map (·.stepKey)).Pairwise fun a b =>
      rank a ≤ rank b := pairwise_map.mpr hsorted
  have hip := idxOf_lt_length_iff.mpr hp
  have his := idxOf_lt_length_iff.mpr hs
  rcases Nat.lt_or_eq_of_le (Nat.le_of_not_lt hle) with hback | hsame
  · have hge := pairwise_iff_getElem.mp hsorted' _ _ his hip hback
    rw [getElem_idxOf his, getElem_idxOf hip] at hge
    omega
  · have heq : s = p := by
      rw [← getElem_idxOf his, ← getElem_idxOf hip]
      congr 1
    rw [heq] at hlt
    exact Nat.lt_irrefl _ hlt

variable (hknown : ∀ d ∈ dependencies, d.predecessorKey ∈ steps.map (·.stepKey) ∧ d.successorKey ∈
    steps.map (·.stepKey))

include hknown in
/-- Sorting the Steps by a rank that rises along every dependency puts
every dependency forward. -/
theorem exists_forward (hrank : ∀ d ∈ dependencies, rank d.predecessorKey < rank d.successorKey) :
    ∃ order : List StepSpec, order.Perm steps ∧ Forward order dependencies := by
  let below : StepSpec → StepSpec → Prop := fun a b => rank a.stepKey ≤ rank b.stepKey
  have hperm := perm_insertionSort below steps
  refine ⟨steps.insertionSort below, hperm, ?_⟩
  intro d hd
  have hmem : ∀ key, key ∈ steps.map (·.stepKey) →
      key ∈ (steps.insertionSort below).map (·.stepKey) :=
    fun key hkey => (hperm.map _).mem_iff.mpr hkey
  exact place_lt_of_rank (pairwise_insertionSort below steps)
    (hmem _ (hknown d hd).1) (hmem _ (hknown d hd).2) (hrank d hd)

-- ==== the cycle check

include hknown in
theorem successors_closed :
    ∀ k ∈ steps.map (·.stepKey), ∀ s ∈ successors dependencies k, s ∈ steps.map (·.stepKey) := by
  intro k _ s hs
  obtain ⟨d, hd, -, rfl⟩ := mem_successors.mp hs
  exact (hknown d hd).2

include hknown in
theorem visitAll_ok_iff : visitAll steps dependencies = .ok () ↔ Acyclic dependencies := by
  constructor
  · intro h
    obtain ⟨rank, hrank⟩ := visitAll_ranked h hknown
    exact acyclic_of_rank hrank
  · intro h
    have hacyclic : ∀ k, ¬ Relation.TransGen (Dfs.Edge (successors dependencies)) k k := by
      intro k hk
      apply h k
      exact hk.lift id fun _ _ hedge => precedes_iff_edge.mpr hedge
    obtain ⟨v, hv⟩ := Dfs.check_acyclic (successors_closed hknown) hacyclic
    unfold visitAll
    rw [hv]

theorem validateMandatoryDecisionChain_ok (h : ∀ step ∈ steps, step.stepKind ∉ chainKinds) :
    validateMandatoryDecisionChain steps dependencies = .ok () := by
  apply if_pos
  rw [all_eq_true]
  intro step hstep
  simpa using h step hstep

theorem validateFormalProfile_ok
    (h : ∀ step ∈ steps, ∀ profile ∈ profiles, startsWith step.stepKey profile.1 = false) :
    validateFormalProfile steps dependencies = .ok () := by
  have hnone : (profiles.filter fun profile =>
      steps.any fun step => startsWith step.stepKey profile.1) = [] := by
    rw [filter_eq_nil_iff]
    intro profile hprofile
    rw [Bool.not_eq_true, any_eq_false]
    intro step hstep
    rw [h step hstep profile hprofile]
    exact Bool.false_ne_true
  unfold validateFormalProfile
  rw [hnone]

def onceStep (key kind : String) (ordinal : Nat) (hkey : isStepKey key := by decide +kernel)
    (hkind : isCode kind := by decide +kernel) : StepSpec where
  stepKey := key
  stepKind := kind
  ordinal := ordinal
  required := true
  retryPolicy := .once
  externalEffectClass := .none
  stepKey_format := hkey
  stepKind_format := hkind

def requiredEdge (p s : String) (h : p ≠ s := by decide +kernel) :
    StepDependency :=
  ⟨p, s, .requiredSuccess, h⟩

/-- Two branches that meet again. -/
def diamondSteps : List StepSpec :=
  [onceStep "split" "SPLIT" 0, onceStep "left" "LEFT" 1,
    onceStep "right" "RIGHT" 2, onceStep "join" "JOIN" 3]

def diamondDependencies : List StepDependency :=
  [requiredEdge "split" "left", requiredEdge "split" "right",
    requiredEdge "left" "join", requiredEdge "right" "join"]

def byOrdinal (steps : List StepSpec) : List StepSpec :=
  steps.insertionSort fun a b => a.ordinal ≤ b.ordinal

def consecutiveKeys (steps : List StepSpec) : List (String × String) :=
  let keys := (byOrdinal steps).map (·.stepKey)
  keys.zip keys.tail

theorem byOrdinal_perm : (byOrdinal steps).Perm steps := perm_insertionSort _ steps

/-- What `_validate_formal_profile` has checked of an accepted plan with
a profile prefix. -/
structure FormalProfile (steps : List StepSpec) (dependencies : List StepDependency) : Prop where
  roster : ∃ profile ∈ profiles, (byOrdinal steps).map (·.stepKind) = profile.2
  required : ∀ edge ∈ (byOrdinal steps).zip (byOrdinal steps).tail,
    hasEdge dependencies edge.1.stepKey edge.2.stepKey .requiredSuccess
  direct : ∀ d ∈ dependencies, place (byOrdinal steps) d.successorKey
    ≤ place (byOrdinal steps) d.predecessorKey + 1

theorem validateFormalProfile_profile
    (hformal : ∃ step ∈ steps, ∃ profile ∈ profiles, startsWith step.stepKey profile.1)
    (h : validateFormalProfile steps dependencies = .ok ()) :
    FormalProfile steps dependencies := by
  unfold validateFormalProfile at h
  split at h
  · next hnone =>
      obtain ⟨step, hstep, profile, hprofile, hpre⟩ := hformal
      have := filter_eq_nil_iff.mp hnone profile hprofile
      exact absurd (any_eq_true.mpr ⟨step, hstep, hpre⟩) this
  · next pre expectedKinds hone =>
      simp only [bind_ok, require_ok] at h
      obtain ⟨_, -, _, -, _, -, _, hkinds, _, hrequired, hbypass⟩ := h
      have hmem : (pre, expectedKinds) ∈ profiles := by
        have : (pre, expectedKinds) ∈ [(pre, expectedKinds)] := mem_singleton_self _
        rw [← hone] at this
        exact mem_of_mem_filter this
      refine ⟨⟨_, hmem, hkinds⟩, hrequired, ?_⟩
      intro d hd
      by_contra hlt
      exact hbypass ⟨d, hd, Nat.lt_of_not_le hlt⟩
  · cases h

/-- What raises a rank along the chain of a profile raises it along the
Steps by ordinal. -/
theorem profile_pairwise (h : FormalProfile steps dependencies)
    (hrank : ∀ d ∈ dependencies, rank d.predecessorKey < rank d.successorKey) :
    (byOrdinal steps).Pairwise fun a b =>
      rank a.stepKey < rank b.stepKey := by
  rw [← isChain_iff_pairwise, isChain_iff_getElem]
  intro i hi
  have hzip : ((byOrdinal steps)[i], (byOrdinal steps)[i + 1])
      ∈ (byOrdinal steps).zip (byOrdinal steps).tail := by
    rw [mem_iff_getElem]
    refine ⟨i, ?_, ?_⟩
    · rw [length_zip, length_tail]
      omega
    · rw [getElem_zip, getElem_tail]
  obtain ⟨d, hd, hpre, hsucc, -⟩ := h.required _ hzip
  rw [← hpre, ← hsucc]
  exact hrank d hd

theorem mem_consecutiveKeys (hnodup : (steps.map (·.stepKey)).Nodup)
    (hp : p ∈ steps.map (·.stepKey))
    (hs : s ∈ steps.map (·.stepKey)) : (p, s) ∈ consecutiveKeys steps
      ↔ place (byOrdinal steps) s = place (byOrdinal steps) p + 1 := by
  have hperm := (@byOrdinal_perm steps).map (·.stepKey)
  have hip := idxOf_lt_length_iff.mpr (hperm.mem_iff.mpr hp)
  have his := idxOf_lt_length_iff.mpr (hperm.mem_iff.mpr hs)
  have hnodup' := hperm.nodup_iff.mpr hnodup
  unfold consecutiveKeys place
  rw [mem_iff_getElem]
  constructor
  · rintro ⟨i, hi, heq⟩
    rw [getElem_zip, getElem_tail, Prod.mk.injEq] at heq
    rw [← heq.1, ← heq.2, hnodup'.idxOf_getElem, hnodup'.idxOf_getElem]
  · intro heq
    refine ⟨((byOrdinal steps).map (·.stepKey)).idxOf p, ?_, ?_⟩
    · rw [length_zip, length_tail]
      omega
    · rw [getElem_zip, getElem_tail, Prod.mk.injEq]
      refine ⟨getElem_idxOf hip, ?_⟩
      simp only [← heq]
      exact getElem_idxOf his

/-- An accepted plan with a formal profile prefix is its profile: its
dependencies are exactly those from each Step by ordinal to the next,
each of these is required, the kinds are those of the profile, and the
only order of the Steps in which every dependency goes forward is the
one by ordinal. -/
theorem validateStepDag_profile (steps : List StepSpec) (dependencies : List StepDependency)
    (hformal : ∃ step ∈ steps, ∃ profile ∈ profiles, startsWith step.stepKey profile.1)
    (h : validateStepDag steps dependencies = .ok ()) :
    (∀ p s, Precedes dependencies p s ↔ (p, s) ∈ consecutiveKeys steps)
      ∧ (∀ edge ∈ consecutiveKeys steps, hasEdge dependencies edge.1 edge.2 .requiredSuccess)
      ∧ (∃ profile ∈ profiles, (byOrdinal steps).map (·.stepKind) = profile.2)
      ∧ Forward (byOrdinal steps) dependencies
      ∧ ∀ order : List StepSpec, order.Perm steps →
          Forward order dependencies → order = byOrdinal steps := by
  have hplan := validateStepDag_plan h
  have hprofile : FormalProfile steps dependencies := by
    simp only [validateStepDag, bind_ok] at h
    obtain ⟨_, -, _, -, _, -, _, -, _, -, _, -, _, hprofile, -⟩ := h
    exact validateFormalProfile_profile hformal hprofile
  have hperm := (@byOrdinal_perm steps).map (·.stepKey)
  have hmem : ∀ {key}, key ∈ steps.map (·.stepKey) →
      key ∈ (byOrdinal steps).map (·.stepKey) := hperm.mem_iff.mpr
  obtain ⟨rank, hrank⟩ := hplan.ranked
  have hchain := profile_pairwise hprofile hrank
  have hforward : Forward (byOrdinal steps) dependencies := by
    intro d hd
    exact place_lt_of_rank (hchain.imp Nat.le_of_lt)
      (hmem (hplan.known d hd).1) (hmem (hplan.known d hd).2) (hrank d hd)
  have hrequired : ∀ edge ∈ consecutiveKeys steps,
      hasEdge dependencies edge.1 edge.2 .requiredSuccess := by
    intro edge hedge
    have hzip : consecutiveKeys steps = ((byOrdinal steps).zip (byOrdinal steps).tail).map
          fun edge => (edge.1.stepKey, edge.2.stepKey) := by
      unfold consecutiveKeys
      simp only [← map_tail, zip_map]
      rfl
    rw [hzip, mem_map] at hedge
    obtain ⟨pair, hpair, rfl⟩ := hedge
    exact hprofile.required pair hpair
  refine ⟨?_, hrequired, hprofile.roster, hforward, ?_⟩
  · intro p s
    constructor
    · rintro ⟨d, hd, rfl, rfl⟩
      obtain ⟨hp, hs⟩ := hplan.known d hd
      rw [mem_consecutiveKeys hplan.keys_nodup hp hs]
      have hlt := hforward d hd
      have hle := hprofile.direct d hd
      omega
    · intro hps
      obtain ⟨d, hd, hp, hs, -⟩ := hrequired _ hps
      exact ⟨d, hd, hp, hs⟩
  · -- the place in the other order rises along the chain as well
    intro order horder hforward'
    have hthis := profile_pairwise hprofile hforward'
    have hother : order.Pairwise fun a b =>
        place order a.stepKey < place order b.stepKey := by
      have hnodup := (horder.map (·.stepKey)).nodup_iff.mpr hplan.keys_nodup
      rw [pairwise_iff_getElem]
      intro i j hi hj hij
      have hplace : ∀ k (hk : k < order.length), place order order[k].stepKey = k := by
        intro k hk
        have hk' : k < (order.map (·.stepKey)).length := by rwa [length_map]
        have := hnodup.idxOf_getElem k hk'
        rwa [getElem_map] at this
      rw [hplace i hi, hplace j hj]
      exact hij
    exact Perm.eq_of_pairwise
      (fun a b _ _ hab hba => absurd hab (Nat.lt_asymm hba)) hother hthis
      (horder.trans byOrdinal_perm.symm)

def formalDueSteps : List StepSpec :=
  [onceStep "formal-due-settle" "SETTLE_OUTCOME" 1,
    onceStep "formal-due-inputs" "ACQUIRE_OUTCOME_INPUTS" 2,
    onceStep "formal-due-evaluate" "EVALUATE" 3,
    onceStep "formal-due-evidence" "RECORD_EVIDENCE" 4,
    onceStep "formal-due-assess" "ASSESS_RESEARCH" 5,
    onceStep "formal-due-qualify" "QUALIFY" 6]

def formalDueDependencies : List StepDependency :=
  [requiredEdge "formal-due-settle" "formal-due-inputs",
    requiredEdge "formal-due-inputs" "formal-due-evaluate",
    requiredEdge "formal-due-evaluate" "formal-due-evidence",
    requiredEdge "formal-due-evidence" "formal-due-assess",
    requiredEdge "formal-due-assess" "formal-due-qualify"]

theorem validateStepDag_profile_due : (∀ p s, Precedes formalDueDependencies p s
        ↔ (p, s) ∈ consecutiveKeys formalDueSteps)
      ∧ (∀ edge ∈ consecutiveKeys formalDueSteps,
          hasEdge formalDueDependencies edge.1 edge.2 .requiredSuccess)
      ∧ (∃ profile ∈ profiles, (byOrdinal formalDueSteps).map (·.stepKind) = profile.2)
      ∧ Forward (byOrdinal formalDueSteps) formalDueDependencies
      ∧ ∀ order : List StepSpec, order.Perm formalDueSteps → Forward order formalDueDependencies →
          order = byOrdinal formalDueSteps :=
  validateStepDag_profile formalDueSteps formalDueDependencies
    (by decide +kernel) (by decide +kernel)

end MarketRegimeAlpha.Runtime
