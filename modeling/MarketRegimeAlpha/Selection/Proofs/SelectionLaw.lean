/-
The selection law of a plan.

Which instruments a plan selects, ranks and counts depends on the exact
scores alone, and only through how many scores beat each one: the
boundary and the passes over it are a way to compute that
(`kthLargest_le_iff`). The law says so of the records and of the counts
of the plan, for every population, K and pattern of ties.
-/
import MarketRegimeAlpha.Selection.Proofs.Plan

namespace MarketRegimeAlpha.Selection

open Lib List

variable {policy : CandidatePolicy} {dataset : CandidateDatasetPopulation}

-- ==== the counts

def dispositionCount (plan : CandidateRankingPlan) (disposition : CandidateDisposition) : Nat :=
  plan.candidates.countP (·.disposition == disposition)

theorem dispositionCount_total (plan : CandidateRankingPlan) :
    dispositionCount plan .selected + dispositionCount plan .rankedNotSelected
        + dispositionCount plan .unrankable = plan.candidates.length := by
  unfold dispositionCount
  induction plan.candidates with
  | nil => rfl
  | cons c cs ih =>
    simp only [countP_cons, length_cons]
    cases hd : c.disposition with
    | selected => simp; omega
    | rankedNotSelected => simp; omega
    | unrankable => simp; omega

variable (scores : List (Nat × ℚ))

theorem selectedIds_length (boundary : Option ℚ) :
    (selectedIds scores boundary).length = strictlyAboveBoundaryCount scores boundary
        + boundaryGroupCount scores boundary := by
  cases boundary with
  | none => rfl
  | some b =>
    show ((scores.filter (b ≤ ·.2)).map (·.1)).length
      = (scores.map (·.2)).countP (b < ·) + (scores.map (·.2)).countP (· = b)
    rw [← countP_ge_eq, length_map, ← countP_eq_length_filter, countP_map]
    rfl

theorem strictlyAbove_lt {scores : List (Nat × ℚ)} {k : Nat} (hk : 1 ≤ k) :
    strictlyAboveBoundaryCount scores (boundaryScore scores k) < k := by
  cases hb : boundaryScore scores k with
  | none => exact hk
  | some b => exact kthLargest_above hk (boundaryScore_kth hb)

theorem selectedIds_reached (k : Nat) : min k scores.length
      ≤ (selectedIds scores (boundaryScore scores k)).length := by
  by_cases hne : scores = []
  · simp [hne]
  · obtain ⟨b, hb, hkth⟩ := boundaryScore_some (k := k) hne
    have hreach := kthLargest_reached hkth (p := fun x => decide (b ≤ x))
      fun x hx => decide_eq_true hx
    rw [length_map] at hreach
    rw [hb, selectedIds, length_map, ← countP_eq_length_filter]
    rwa [countP_map] at hreach

namespace Returned

variable {minimum maximum : Nat} {plan : CandidateRankingPlan} {r : Ranked} {precision : Nat}
  (h : Returned policy dataset minimum maximum plan r precision) {c : CandidateRecord}
include h

/-- The records of a disposition that the scored instruments decide are
those of the instruments they name. -/
theorem count_of_ids {ids : List Nat} (hids : ids.Nodup) {p : CandidateRecord → Bool}
    (hp : ∀ c ∈ plan.candidates, p c = true ↔ c.instrumentId ∈ ids)
    (hsub : ∀ id ∈ ids, ∃ row ∈ dataset.rows, row.instrumentId = id) :
    plan.candidates.countP p = ids.length := by
  have hperm : ((plan.candidates.filter p).map (·.instrumentId)).Perm ids :=
    by
      have hnodup : ((plan.candidates.filter p).map
          (·.instrumentId)).Nodup :=
        (filter_sublist.map _).nodup h.candidates_nodup
      refine (perm_ext_iff_of_nodup hnodup hids).mpr fun id => ?_
      simp only [mem_map, mem_filter]
      constructor
      · rintro ⟨c, ⟨hc, hpc⟩, rfl⟩
        exact (hp c hc).mp hpc
      · intro hid
        obtain ⟨row, hrow, rfl⟩ := hsub id hid
        obtain ⟨c, hc, hrec⟩ := h.record_of_row hrow
        rw [← hrec] at hid
        exact ⟨c, ⟨hc, (hp c hc).mpr hid⟩, hrec⟩
  rw [countP_eq_length_filter, ← hperm.length_eq, length_map]

/-- An instrument is selected exactly when fewer than K scores beat
its own. -/
theorem selected_iff (hc : c ∈ plan.candidates) :
    c.disposition = .selected ↔ ∃ score, (c.instrumentId, score) ∈ r.scoring.scores
        ∧ betterCount r.scoring.scores score < policy.requestedTopK := by
  obtain ⟨row, hrow, hid, hdis⟩ := h.disposed hc
  rw [← hid]
  cases hdis with
  | unrankable _ unscored disposition =>
    rw [disposition]
    constructor
    · nofun
    · rintro ⟨score, hscore, -⟩
      exact absurd hscore (unscored score)
  | ranked _ score scored disposition =>
    rw [disposition]
    constructor
    · intro hsel
      refine ⟨score, scored, ?_⟩
      by_contra hnot
      rw [if_neg hnot] at hsel
      cases hsel
    · rintro ⟨other, hother, hlt⟩
      rw [score_unique h.scored hother scored] at hlt
      rw [if_pos hlt]

theorem unrankable_iff (hc : c ∈ plan.candidates) :
    c.disposition = .unrankable ↔ c.instrumentId ∉ r.scoring.scores.map (·.1) := by
  obtain ⟨row, hrow, hid, hdis⟩ := h.disposed hc
  rw [← hid, mem_map]
  cases hdis with
  | unrankable _ unscored disposition =>
    refine iff_of_true disposition ?_
    rintro ⟨⟨_, score⟩, hmem, rfl⟩
    exact unscored score hmem
  | ranked _ score scored disposition =>
    refine iff_of_false ?_ (not_not.mpr ⟨_, scored, rfl⟩)
    rw [disposition]
    split
    · nofun
    · nofun

theorem selectedCount_eq : plan.candidateSet.selectedCount
    = (selectedIds r.scoring.scores r.boundary).length := by
  obtain ⟨n, storedBoundary, heq, -⟩ := h.result
  rw [heq]
  rfl

theorem selected_count : dispositionCount plan .selected = plan.candidateSet.selectedCount := by
  rw [h.selectedCount_eq, h.boundary]
  have hmem {id : Nat} := @mem_selectedIds r.scoring.scores _ policy.top_k_positive id
  refine h.count_of_ids ?_ (fun c hc => ?_) fun id hid => ?_
  · have hscores := scores_nodup h.scored
    cases boundaryScore r.scoring.scores policy.requestedTopK with
    | none => exact nodup_nil
    | some b => exact (filter_sublist.map _).nodup hscores
  · rw [beq_iff_eq, h.selected_iff hc, hmem]
  · obtain ⟨score, hscore, -⟩ := hmem.mp hid
    obtain ⟨row, hrow, hrid, -⟩ := score_row h.scored hscore
    exact ⟨row, hrow, hrid⟩

theorem unrankable_count : dispositionCount plan .unrankable
      = plan.candidateSet.unrankableCount := by
  have hranked : plan.candidates.countP (!·.disposition == .unrankable)
      = (r.scoring.scores.map (·.1)).length := by
    refine h.count_of_ids (scores_nodup h.scored) (fun c hc => ?_) fun id hid => ?_
    · rw [Bool.not_eq_true', beq_eq_false_iff_ne, ne_eq, h.unrankable_iff hc, not_not]
    · obtain ⟨⟨_, score⟩, hscore, rfl⟩ := mem_map.mp hid
      obtain ⟨row, hrow, hrid, -⟩ := score_row h.scored hscore
      exact ⟨row, hrow, hrid⟩
  obtain ⟨n, storedBoundary, heq, -⟩ := h.result
  have hlen : plan.candidates.length = dataset.rows.length := by simpa using h.instruments.length_eq
  have hsplit := length_eq_countP_add_countP
    (fun c : CandidateRecord => c.disposition == .unrankable)
    (l := plan.candidates)
  have hnot : plan.candidates.countP (fun c => decide ¬ (c.disposition == .unrankable) = true)
        = plan.candidates.countP (!·.disposition == .unrankable) := by
    refine countP_congr fun c _ => ?_
    simp
  rw [heq]
  show dispositionCount plan .unrankable = dataset.rows.length - r.scoring.rankable.length
  have hrankable : (r.scoring.scores.map (·.1)).length = r.scoring.rankable.length := by
    rw [(scoring_spec h.scored).2, length_map]
  unfold dispositionCount
  omega

end Returned

-- ==== the law

/-- The selection law of a plan, for the exact composite scores `scores`
of its complete cases. -/
structure SelectionLaw (policy : CandidatePolicy)
    (dataset : CandidateDatasetPopulation) (scores : List (Nat × ℚ))
    (plan : CandidateRankingPlan) : Prop where
  /-- The complete cases have one score each, and no other instrument. -/
  scored : scores.map (·.1) = (rankableRows policy dataset).map (·.instrumentId)
  /-- Every instrument of the population has one record. -/
  population : (plan.candidates.map (·.instrumentId)).Perm (dataset.rows.map (·.instrumentId))
  /-- SELECTED: a complete case that fewer than K scores beat. -/
  selected : ∀ row ∈ dataset.rows, ∀ c ∈ plan.candidates, c.instrumentId = row.instrumentId →
      (c.disposition = .selected ↔ completeCase policy row = true
        ∧ ∃ score, (row.instrumentId, score) ∈ scores
          ∧ betterCount scores score < policy.requestedTopK)
  /-- UNRANKABLE: not a complete case. -/
  unrankable : ∀ row ∈ dataset.rows, ∀ c ∈ plan.candidates, c.instrumentId = row.instrumentId →
      (c.disposition = .unrankable ↔ completeCase policy row = false)
  /-- The counts are those of the records, and add up. -/
  counts : plan.candidateSet.selectedCount = dispositionCount plan .selected
    ∧ plan.candidateSet.rankedNotSelectedCount = dispositionCount plan .rankedNotSelected
    ∧ plan.candidateSet.unrankableCount = dispositionCount plan .unrankable
    ∧ plan.candidateSet.rankableCount = plan.candidateSet.selectedCount
        + plan.candidateSet.rankedNotSelectedCount
    ∧ plan.candidateSet.populationCount
      = plan.candidateSet.rankableCount + plan.candidateSet.unrankableCount
  /-- K instruments are selected, or all that are rankable. -/
  reached : min policy.requestedTopK plan.candidateSet.rankableCount
    ≤ plan.candidateSet.selectedCount
  above : plan.candidateSet.strictlyAboveBoundaryCount < policy.requestedTopK
  split : plan.candidateSet.selectedCount = plan.candidateSet.strictlyAboveBoundaryCount
      + plan.candidateSet.boundaryGroupCount
  /-- The two counts are of the scores above and at the boundary. -/
  boundary : ∀ b, boundaryScore scores policy.requestedTopK = some b →
    plan.candidateSet.strictlyAboveBoundaryCount = betterCount scores b
      ∧ plan.candidateSet.boundaryGroupCount = (scores.map (·.2)).countP (· = b)
      ∧ ∀ c ∈ plan.candidates, (c.instrumentId, b) ∈ scores → c.disposition = .selected
  /-- The rank of a ranked instrument is one plus the better ones. -/
  rank : ∀ c ∈ plan.candidates, ∀ score, (c.instrumentId, score) ∈ scores →
    c.competitionRank = some (1 + betterCount scores score)

/-- Every plan that `build_candidate_set` returns obeys the selection
law. -/
theorem selection_law {minimum maximum : Nat} {plan : CandidateRankingPlan}
    (h : buildCandidateSet policy dataset minimum maximum = .ok plan) :
    ∃ s, scoring policy dataset = .ok s ∧ SelectionLaw policy dataset s.scores plan := by
  obtain ⟨r, precision, hr⟩ := returned_of_build h
  obtain ⟨hrank, hkeys⟩ := scoring_spec hr.scored
  have hsel := hr.selected_count
  have hun := hr.unrankable_count
  have htotal := dispositionCount_total plan
  have hpop : plan.candidates.length = dataset.rows.length := by
    simpa using hr.instruments.length_eq
  have hlen : r.scoring.scores.length = r.scoring.rankable.length := by
    simpa using congrArg List.length hkeys
  have hle : r.scoring.rankable.length ≤ dataset.rows.length := by
    rw [hrank]
    exact length_filter_le _ _
  have hreach := selectedIds_reached r.scoring.scores policy.requestedTopK
  obtain ⟨n, storedBoundary, heq, -⟩ := hr.result
  have hcount := hr.selectedCount_eq
  rw [hr.boundary] at hcount
  have hrankable : plan.candidateSet.rankableCount = r.scoring.rankable.length := by
    rw [heq]
    rfl
  have hpopulation : plan.candidateSet.populationCount = dataset.rows.length := by
    rw [heq]
    rfl
  have hunrankable : plan.candidateSet.unrankableCount
      = dataset.rows.length - r.scoring.rankable.length := by
    rw [heq]
    rfl
  have hnot : plan.candidateSet.rankedNotSelectedCount
      = r.scoring.rankable.length - plan.candidateSet.selectedCount := by
    rw [heq]
    rfl
  have habove : plan.candidateSet.strictlyAboveBoundaryCount
      = strictlyAboveBoundaryCount r.scoring.scores
        (boundaryScore r.scoring.scores policy.requestedTopK) := by
    rw [heq, ← hr.boundary]
    rfl
  have hgroup : plan.candidateSet.boundaryGroupCount = boundaryGroupCount r.scoring.scores
        (boundaryScore r.scoring.scores policy.requestedTopK) := by
    rw [heq, ← hr.boundary]
    rfl
  have hseldisp : ∀ row ∈ dataset.rows, ∀ c ∈ plan.candidates, c.instrumentId = row.instrumentId →
        (c.disposition = .selected ↔ completeCase policy row = true
          ∧ ∃ score, (row.instrumentId, score) ∈ r.scoring.scores
            ∧ betterCount r.scoring.scores score < policy.requestedTopK) := by
    intro row hrow c hc hid
    rw [hr.selected_iff hc, hid]
    refine ⟨fun hscore => ⟨?_, hscore⟩, fun h => h.2⟩
    obtain ⟨score, hmem, -⟩ := hscore
    rw [← ranked_iff hr.scored hrow, ← hkeys]
    exact mem_map_of_mem hmem
  refine ⟨r.scoring, hr.scored, ?_⟩
  constructor
  case scored => rw [hkeys, hrank]
  case population => exact hr.instruments
  case selected => exact hseldisp
  case unrankable =>
    intro row hrow c hc hid
    rw [hr.unrankable_iff hc, hid, hkeys, ranked_iff hr.scored hrow, Bool.not_eq_true]
  case counts => omega
  case reached => omega
  case above =>
    rw [habove]
    exact strictlyAbove_lt policy.top_k_positive
  case split =>
    rw [hcount, habove, hgroup]
    exact selectedIds_length _ _
  case boundary =>
    intro b hb
    rw [habove, hgroup, hb]
    refine ⟨rfl, rfl, fun c hc hmem => (hr.selected_iff hc).mpr ⟨b, hmem, ?_⟩⟩
    exact kthLargest_above policy.top_k_positive (boundaryScore_kth hb)
  case rank =>
    intro c hc score hscore
    exact (hr.ranked_of_score hc hscore).2.1

-- ==== a sample

def sampleComponent : CandidatePolicyComponent where
  candidatePolicyComponentId := 11
  candidatePolicyId := 1
  componentCode := "momentum"
  ordinal := 1
  featureDefinitionId := 5
  featureValueType := .integer
  direction := .higherIsBetter
  declaredWeight := ⟨false, 1, 0⟩
  code_format := by decide
  weight_positive := by decide +kernel

def samplePolicy : CandidatePolicy where
  candidatePolicyId := 1
  policyCode := "top_one"
  version := 1
  requestedTopK := 1
  components := [sampleComponent]
  code_format := by decide
  version_positive := Nat.zero_lt_one
  top_k_positive := Nat.zero_lt_one
  nonempty := by decide
  parent := by decide
  ordinals := by decide
  codes_unique := by decide
  identities_unique := by decide
  features_unique := by decide

def sampleRow (instrumentId : Nat) (value : Option Int) : CandidatePopulationRow where
  instrumentId := instrumentId
  datasetPopulationSourceId := instrumentId
  cells := [{
    featureDefinitionId := 5
    status := if value.isSome then .available else .missing
    value := value.map .integer
    reasonCode := "OK"
    reason_required := by decide
    value_iff := by cases value <;> rfl }]
  features_unique := by simp

/-- Two instruments tie for the best value, one is behind, one has
none. -/
def sampleDataset : CandidateDatasetPopulation where
  datasetId := 1
  universeRevisionId := 1
  eligibilityPolicyId := 1
  rows := [sampleRow 3 (some 7), sampleRow 1 (some 5), sampleRow 2 none, sampleRow 4 (some 7)]
  instruments_unique := by decide
  sources_unique := by decide

theorem selection_law_sample : ∃ plan s,
    buildCandidateSet samplePolicy sampleDataset 64 4096 = .ok plan
      ∧ scoring samplePolicy sampleDataset = .ok s
      ∧ SelectionLaw samplePolicy sampleDataset s.scores plan := by
  have hok : (buildCandidateSet samplePolicy sampleDataset 64 4096).isOk := by decide +kernel
  cases h : buildCandidateSet samplePolicy sampleDataset 64 4096 with
  | error raised =>
    rw [h] at hok
    cases hok
  | ok plan =>
    obtain ⟨s, hs, hlaw⟩ := selection_law h
    exact ⟨plan, s, rfl, hs, hlaw⟩

end MarketRegimeAlpha.Selection
