/-
The stored decimals of a plan decide what its exact scores decide.

A plan ranks by exact fractions and stores decimals. The precision it
stores them at separates the scores and the boundary (`Separates`), so
comparing two stored values is comparing the exact ones; whoever reads
the plan back gets its order, its selection and its ranks without the
fractions. The projection itself is specified for all inputs: what it
returns, and when it raises instead.
-/
import MarketRegimeAlpha.Selection.Proofs.SelectionLaw

namespace MarketRegimeAlpha.Selection

open Lib List

variable {policy : CandidatePolicy} {dataset : CandidateDatasetPopulation}

-- ==== the projection

/-- What `project_exact_values` does with any values and bounds. -/
structure ProjectionLaw {κ : Type} (values : List (κ × ℚ)) (minimum maximum : Nat) : Prop where
  /-- At a precision of the sequence a value is stored as its half-even
  rounding to that many significant digits. -/
  rounds : ∀ p ∈ doublings minimum maximum, ∀ value, Decimal.RoundsTo p value (stored p value)
  /-- What is returned has every key with its value stored, at the least
  precision of the sequence that keeps the order. -/
  returns : ∀ p projected, projectExactValues values minimum maximum = .ok (p, projected) →
      p ∈ doublings minimum maximum ∧ projected.map (fun entry => (entry.1, entry.2.value))
          = values.map (fun entry => (entry.1, stored p entry.2))
        ∧ (∀ a ∈ values, ∀ b ∈ values, (stored p a.2 < stored p b.2 ↔ a.2 < b.2)
            ∧ (stored p a.2 = stored p b.2 ↔ a.2 = b.2))
        ∧ ∀ q ∈ doublings minimum maximum, q < p → ¬ ∀ a ∈ values, ∀ b ∈ values,
            (stored q a.2 < stored q b.2 ↔ a.2 < b.2) ∧ (stored q a.2 = stored q b.2 ↔ a.2 = b.2)
  /-- It raises only where no precision of the sequence keeps the order,
  or a value exceeds a `numeric` at one. -/
  raises : ∀ raised, projectExactValues values minimum maximum = .error raised →
      (∀ q ∈ doublings minimum maximum, ¬ ∀ a ∈ values, ∀ b ∈ values,
          (stored q a.2 < stored q b.2 ↔ a.2 < b.2) ∧ (stored q a.2 = stored q b.2 ↔ a.2 = b.2))
        ∨ ∃ q ∈ doublings minimum maximum, Exceeds q values

variable {κ : Type} {p : Nat} {values : List (κ × ℚ)}

theorem separates_iff : Separates p values
      ↔ ∀ a ∈ values, ∀ b ∈ values, (stored p a.2 < stored p b.2 ↔ a.2 < b.2)
          ∧ (stored p a.2 = stored p b.2 ↔ a.2 = b.2) := by
  constructor
  · intro h a ha b hb
    exact h.iff ha hb
  · intro h a ha b hb hab
    exact (h a ha b hb).1.mpr hab

theorem projectItems_values {projected : List (κ × Decimal)}
    (h : projectItems p values = .ok projected) :
    projected.map (fun entry => (entry.1, entry.2.value))
      = values.map (fun entry => (entry.1, stored p entry.2)) := by
  refine map_mapM_ok (fun entry result hresult => ?_) h
  simp only [bind_ok, pure_ok] at hresult
  obtain ⟨d, hd, rfl⟩ := hresult
  rw [projectFraction_ok hd]
  rfl

theorem projection_law (values : List (κ × ℚ))
    (minimum maximum : Nat) : ProjectionLaw values minimum maximum := by
  constructor
  case rounds =>
    intro p hp value
    have hpos : 0 < p := pos_of_allowed (mem_doublings.mp hp).2.1
    exact Decimal.divide_rounds hpos value
  case returns =>
    intro p projected h
    obtain ⟨hp, hitems, hsep, hleast⟩ := projectExactValues_ok h
    refine ⟨hp, projectItems_values hitems, separates_iff.mp hsep, ?_⟩
    intro q hq hlt
    rw [← separates_iff]
    exact hleast q hq hlt
  case raises =>
    intro raised h
    simp only [← separates_iff]
    exact projectExactValues_error h

-- ==== the plan

/-- The stored decimals of a plan, against the exact scores it was built
from. -/
structure FaithfulPlan (policy : CandidatePolicy) (scores : List (Nat × ℚ))
    (plan : CandidateRankingPlan) : Prop where
  /-- The ranked instruments, and no other, have a stored score. -/
  ranked : ∀ c ∈ plan.candidates, c.compositeScore.isSome = true
      ↔ ∃ score, (c.instrumentId, score) ∈ scores
  /-- Stored scores are ordered and equal as the exact ones. -/
  order : ∀ a ∈ plan.candidates, ∀ b ∈ plan.candidates, ∀ x y,
    (a.instrumentId, x) ∈ scores → (b.instrumentId, y) ∈ scores →
      ∃ dx dy, a.compositeScore = some dx ∧ b.compositeScore = some dy
        ∧ (dx.value < dy.value ↔ x < y) ∧ (dx.value = dy.value ↔ x = y)
  /-- And so they are against the boundary. -/
  boundary : ∀ b, boundaryScore scores policy.requestedTopK = some b →
    ∃ db, plan.candidateSet.boundaryScore = some db
      ∧ ∀ c ∈ plan.candidates, ∀ x, (c.instrumentId, x) ∈ scores → ∃ d, c.compositeScore = some d
          ∧ (d.value < db.value ↔ x < b) ∧ (d.value = db.value ↔ x = b)
  /-- SELECTED: the stored score reaches the stored boundary. -/
  selected : ∀ c ∈ plan.candidates, c.disposition = .selected ↔ ∃ d db, c.compositeScore = some d
        ∧ plan.candidateSet.boundaryScore = some db ∧ db.value ≤ d.value
  /-- The ranks of the stored scores are the stored ranks. -/
  rank : ∀ c ∈ plan.candidates, ∀ d, c.compositeScore = some d → c.competitionRank
      = some (1 + (plan.candidates.filterMap (·.compositeScore)).countP (d.value < ·.value))

namespace Returned

variable {minimum maximum : Nat} {plan : CandidateRankingPlan} {r : Ranked} {precision : Nat}
  (h : Returned policy dataset minimum maximum plan r precision) {c : CandidateRecord}
include h

theorem compare_scores {a b : Nat} {x y : ℚ}
    (ha : (a, x) ∈ r.scoring.scores) (hb : (b, y) ∈ r.scoring.scores) :
    (stored precision x < stored precision y ↔ x < y)
      ∧ (stored precision x = stored precision y ↔ x = y) := by
  have hmem {id : Nat} {z : ℚ} (hz : (id, z) ∈ r.scoring.scores) : (ProjectionKey.score id, z)
        ∈ rankingProjectionInputs r.scoring.scores r.boundary := by
    simpa [rankingProjectionInputs] using hz
  have hiff := h.separates.iff (hmem ha) (hmem hb)
  exact hiff

theorem compare_boundary {a : Nat} {x b : ℚ}
    (ha : (a, x) ∈ r.scoring.scores) (hb : r.boundary = some b) :
    (stored precision x < stored precision b ↔ x < b)
      ∧ (stored precision x = stored precision b ↔ x = b) := by
  have hx : (ProjectionKey.score a, x) ∈ rankingProjectionInputs r.scoring.scores r.boundary := by
    simpa [rankingProjectionInputs] using ha
  have hbound : (ProjectionKey.boundary, b)
      ∈ rankingProjectionInputs r.scoring.scores r.boundary := by
    simp [rankingProjectionInputs, hb]
  have hiff := h.separates.iff hx hbound
  exact hiff

/-- The stored boundary is the projection of the exact one, and there is
none without it. -/
theorem stored_boundary : (r.boundary = none ∧ plan.candidateSet.boundaryScore = none)
      ∨ ∃ b d, r.boundary = some b ∧ plan.candidateSet.boundaryScore = some d
        ∧ d.value = stored precision b := by
  obtain ⟨n, storedBoundary, heq, hcase⟩ := h.result
  have hfield : plan.candidateSet.boundaryScore = storedBoundary := by
    rw [heq]
    rfl
  rw [hfield]
  rcases hcase with hnone | ⟨b, d, hb, hitem, hd⟩
  · exact Or.inl hnone
  · refine Or.inr ⟨b, d, hb, hd, ?_⟩
    obtain ⟨b', hmem, hvalue⟩ := h.stored_input (Or.inl rfl) hitem
    have hsame : b' = b := by simpa [rankingProjectionInputs, hb] using hmem
    rw [← hsame]
    exact hvalue

theorem score_of_stored (hc : c ∈ plan.candidates) {d : Decimal} (hd : c.compositeScore = some d) :
    ∃ score, (c.instrumentId, score) ∈ r.scoring.scores ∧ d.value = stored precision score
      ∧ c.competitionRank = some (1 + betterCount r.scoring.scores score) := by
  obtain ⟨row, hrow, hid, hdis⟩ := h.disposed hc
  rw [← hid]
  cases hdis with
  | unrankable _ _ _ hnone =>
    rw [hnone] at hd
    cases hd
  | ranked _ score scored _ rank d' composite value =>
    rw [composite] at hd
    injection hd with hd
    subst hd
    exact ⟨score, scored, value, rank⟩

/-- As many stored scores are better than a stored one as exact scores
are better than its own. -/
theorem better_stored {id : Nat} {x : ℚ} (hx : (id, x) ∈ r.scoring.scores) :
    (plan.candidates.filterMap (·.compositeScore)).countP (stored precision x < ·.value)
      = betterCount r.scoring.scores x := by
  have hbetter : betterCount r.scoring.scores x
      = ((r.scoring.scores.filter (x < ·.2)).map (·.1)).length := by
    rw [length_map, ← countP_eq_length_filter]
    unfold betterCount
    rw [countP_map]
    rfl
  rw [countP_filterMap, hbetter]
  refine h.count_of_ids ?_ (fun c hc => ?_) fun id' hid' => ?_
  · exact (filter_sublist.map _).nodup (scores_nodup h.scored)
  · simp only [mem_map, mem_filter, decide_eq_true_eq]
    cases hd : c.compositeScore with
    | none =>
      -- without a stored score there is no exact one either
      refine iff_of_false (by simp) ?_
      rintro ⟨⟨_, y⟩, ⟨hy, -⟩, rfl⟩
      obtain ⟨-, -, d, hsome, -⟩ := h.ranked_of_score hc hy
      rw [hd] at hsome
      cases hsome
    | some d =>
      obtain ⟨y, hy, hvalue, -⟩ := h.score_of_stored hc hd
      simp only [Option.map_some, Option.getD_some, decide_eq_true_eq]
      rw [hvalue, (h.compare_scores hx hy).1]
      constructor
      · exact fun hlt => ⟨(c.instrumentId, y), ⟨hy, hlt⟩, rfl⟩
      · rintro ⟨⟨_, z⟩, ⟨hz, hlt⟩, rfl⟩
        rwa [score_unique h.scored hz hy] at hlt
  · obtain ⟨⟨_, y⟩, hmem, rfl⟩ := mem_map.mp hid'
    obtain ⟨row, hrow, hrid, -⟩ := score_row h.scored (mem_filter.mp hmem).1
    exact ⟨row, hrow, hrid⟩

/-- An instrument is selected exactly when its stored score reaches the
stored boundary. -/
theorem selected_stored (hc : c ∈ plan.candidates) :
    c.disposition = .selected ↔ ∃ d db, c.compositeScore = some d
        ∧ plan.candidateSet.boundaryScore = some db
        ∧ db.value ≤ d.value := by
  rw [h.selected_iff hc, ← mem_selectedIds policy.top_k_positive, ← h.boundary]
  rcases h.stored_boundary with ⟨hb, hdb⟩ | ⟨b, db, hb, hdb, hvalue⟩
  · simp [hb, hdb, selectedIds]
  · rw [hb]
    simp only [selectedIds, mem_map, mem_filter, decide_eq_true_eq]
    constructor
    · rintro ⟨⟨id, x⟩, ⟨hx, hle⟩, rfl⟩
      obtain ⟨-, -, d, hd, hdv⟩ := h.ranked_of_score hc hx
      refine ⟨d, db, hd, hdb, ?_⟩
      rw [hdv, hvalue, ← not_lt, (h.compare_boundary hx hb).1, not_lt]
      exact hle
    · rintro ⟨d, db', hd, hdb', hle⟩
      rw [hdb] at hdb'
      injection hdb' with hdb'
      subst hdb'
      obtain ⟨x, hx, hdv, -⟩ := h.score_of_stored hc hd
      rw [hdv, hvalue, ← not_lt, (h.compare_boundary hx hb).1, not_lt] at hle
      exact ⟨(c.instrumentId, x), ⟨hx, hle⟩, rfl⟩

/-- The stored decimals of a returned plan are faithful. -/
theorem faithful : FaithfulPlan policy r.scoring.scores plan := by
  constructor
  case ranked =>
    intro c hc
    constructor
    · intro hsome
      obtain ⟨d, hd⟩ := Option.isSome_iff_exists.mp hsome
      obtain ⟨score, hscore, -, -⟩ := h.score_of_stored hc hd
      exact ⟨score, hscore⟩
    · rintro ⟨score, hscore⟩
      obtain ⟨-, -, d, hd, -⟩ := h.ranked_of_score hc hscore
      rw [hd]
      rfl
  case order =>
    intro a ha b hb x y hx hy
    obtain ⟨-, -, dx, hdx, hvx⟩ := h.ranked_of_score ha hx
    obtain ⟨-, -, dy, hdy, hvy⟩ := h.ranked_of_score hb hy
    refine ⟨dx, dy, hdx, hdy, ?_⟩
    rw [hvx, hvy]
    exact h.compare_scores hx hy
  case boundary =>
    intro b hb
    rw [← h.boundary] at hb
    rcases h.stored_boundary with ⟨hnone, -⟩ | ⟨b', db, hb', hdb, hvalue⟩
    · rw [hb] at hnone
      cases hnone
    · rw [hb] at hb'
      injection hb' with hb'
      subst hb'
      refine ⟨db, hdb, fun c hc x hx => ?_⟩
      obtain ⟨-, -, d, hd, hdv⟩ := h.ranked_of_score hc hx
      refine ⟨d, hd, ?_⟩
      rw [hdv, hvalue]
      exact h.compare_boundary hx hb
  case selected => exact fun c hc => h.selected_stored hc
  case rank =>
    intro c hc d hd
    obtain ⟨score, hscore, hvalue, hrank⟩ := h.score_of_stored hc hd
    rw [hvalue, h.better_stored hscore]
    exact hrank

end Returned

/-- The stored decimals of every plan are faithful to its exact scores,
and the projection returns the least precision that makes them so, or
raises where there is none. -/
theorem projection_faithful : (∀ (policy : CandidatePolicy) (dataset : CandidateDatasetPopulation)
        (minimum maximum : Nat) (plan : CandidateRankingPlan),
        buildCandidateSet policy dataset minimum maximum = .ok plan →
          ∃ s, scoring policy dataset = .ok s ∧ FaithfulPlan policy s.scores plan)
      ∧ ∀ {κ : Type} (values : List (κ × ℚ)) (minimum maximum : Nat),
        ProjectionLaw values minimum maximum := by
  refine ⟨fun policy dataset minimum maximum plan h => ?_, projection_law⟩
  obtain ⟨r, precision, hr⟩ := returned_of_build h
  exact ⟨r.scoring, hr.scored, hr.faithful⟩

theorem projection_faithful_sample : ∃ plan s,
    buildCandidateSet samplePolicy sampleDataset 64 4096 = .ok plan
      ∧ scoring samplePolicy sampleDataset = .ok s
      ∧ FaithfulPlan samplePolicy s.scores plan
      ∧ ProjectionLaw [(0, 1 / 3), (1, 2 / 3)] 64 4096 := by
  have hok : (buildCandidateSet samplePolicy sampleDataset 64 4096).isOk := by decide +kernel
  cases h : buildCandidateSet samplePolicy sampleDataset 64 4096 with
  | error raised =>
    rw [h] at hok
    cases hok
  | ok plan =>
    obtain ⟨s, hs, hfaithful⟩ := projection_faithful.1 samplePolicy sampleDataset 64 4096 plan h
    exact ⟨plan, s, rfl, hs, hfaithful, projection_faithful.2 _ _ _⟩

end MarketRegimeAlpha.Selection
