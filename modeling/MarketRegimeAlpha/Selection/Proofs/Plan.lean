/-
What a plan that `build_candidate_set` returned says of each instrument.

The score of an instrument, the boundary, the ranks and the selection
come from separate passes over the exact scores. `Returned` names the
values those passes computed, and `Returned.disposed` reads the record of
one instrument back against them: an instrument is unrankable and has no
score, or it is ranked, and then its disposition, its rank and its stored
score are functions of its exact score alone. Everything the later
modules say of a plan is said from there.
-/
import MarketRegimeAlpha.Selection.Proofs.Projection

namespace MarketRegimeAlpha.Selection

open Lib List

variable {policy : CandidatePolicy} {dataset : CandidateDatasetPopulation}

-- ==== the exact part

theorem scoring_spec {s : Scoring} (h : scoring policy dataset = .ok s) :
    s.rankable = rankableRows policy dataset
      ∧ s.scores.map (·.1) = s.rankable.map (·.instrumentId) := by
  simp only [scoring, bind_ok, pure_ok] at h
  obtain ⟨_, -, perComponent, -, perRow, hrow, rfl⟩ := h
  refine ⟨rfl, ?_⟩
  have hlen := length_mapM_ok hrow
  rw [map_map]
  show ((rankableRows policy dataset).zip perRow).map ((·.instrumentId) ∘ Prod.fst) = _
  rw [← map_map, map_fst_zip (by omega)]

section Scored

variable {s : Scoring} (h : scoring policy dataset = .ok s) {id : Nat}
include h

theorem scores_nodup : (s.scores.map (·.1)).Nodup := by
  obtain ⟨hrank, hkeys⟩ := scoring_spec h
  rw [hkeys, hrank]
  exact (filter_sublist.map _).nodup dataset.instruments_unique

theorem ranked_iff {row : CandidatePopulationRow} (hrow : row ∈ dataset.rows) :
    row.instrumentId ∈ s.rankable.map (·.instrumentId) ↔ completeCase policy row = true := by
  rw [(scoring_spec h).1, mem_map]
  constructor
  · rintro ⟨other, hother, heq⟩
    obtain ⟨hmem, hcomplete⟩ := mem_filter.mp hother
    have hsame : other = row := inj_on_of_nodup_map dataset.instruments_unique hmem hrow heq
    rwa [hsame] at hcomplete
  · intro hcomplete
    exact ⟨row, mem_filter.mpr ⟨hrow, hcomplete⟩, rfl⟩

theorem score_unique {x y : ℚ} (hx : (id, x) ∈ s.scores) (hy : (id, y) ∈ s.scores) : x = y := by
  have heq : ((id, x) : Nat × ℚ) = (id, y) := inj_on_of_nodup_map (scores_nodup h) hx hy rfl
  exact (Prod.mk.inj heq).2

theorem score_row {x : ℚ} (hx : (id, x) ∈ s.scores) :
    ∃ row ∈ dataset.rows, row.instrumentId = id ∧ completeCase policy row = true := by
  have hmem : id ∈ s.scores.map (·.1) := mem_map_of_mem hx
  obtain ⟨hrank, hkeys⟩ := scoring_spec h
  rw [hkeys, hrank] at hmem
  obtain ⟨row, hrow, hid⟩ := mem_map.mp hmem
  obtain ⟨hrow, hcomplete⟩ := mem_filter.mp hrow
  exact ⟨row, hrow, hid, hcomplete⟩

end Scored

-- ==== the selection

variable {scores : List (Nat × ℚ)} {k : Nat}

/-- The boundary exists as soon as one instrument is ranked, and is the
K-th largest score. -/
theorem boundaryScore_some (hne : scores ≠ []) :
    ∃ b, boundaryScore scores k = some b ∧ kthLargest k (scores.map (·.2)) = some b := by
  have hmap : scores.map (·.2) ≠ [] := by simpa using hne
  obtain ⟨b, hb⟩ := kthLargest_isSome (k := k) hmap
  refine ⟨b, ?_, hb⟩
  unfold boundaryScore
  rw [if_neg hne, hb]

theorem boundaryScore_kth {b : ℚ} (hb : boundaryScore scores k = some b) :
    kthLargest k (scores.map (·.2)) = some b := by
  unfold boundaryScore at hb
  split at hb
  · cases hb
  · exact hb

/-- The selected instruments are those with a score that fewer than K
scores beat. -/
theorem mem_selectedIds (hk : 1 ≤ k) {id : Nat} : id ∈ selectedIds scores (boundaryScore scores k)
      ↔ ∃ score, (id, score) ∈ scores ∧ betterCount scores score < k := by
  by_cases hne : scores = []
  · subst hne
    simp [boundaryScore, selectedIds]
  · obtain ⟨b, hb, hkth⟩ := boundaryScore_some (k := k) hne
    rw [hb]
    simp only [selectedIds, mem_map, mem_filter, decide_eq_true_eq]
    constructor
    · rintro ⟨⟨id', score⟩, ⟨hmem, hle⟩, rfl⟩
      refine ⟨score, hmem, ?_⟩
      exact (kthLargest_le_iff hk hkth (mem_map_of_mem hmem)).mp hle
    · rintro ⟨score, hmem, hlt⟩
      refine ⟨(id, score), ⟨hmem, ?_⟩, rfl⟩
      exact (kthLargest_le_iff hk hkth (mem_map_of_mem hmem)).mpr hlt

-- ==== one row

theorem dispose_ok {r : Ranked} {row : CandidatePopulationRow} {disposition : CandidateDisposition}
    {score : Option Decimal} {rank : Option Nat} {reason : String}
    (h : dispose policy r row = .ok (disposition, score, rank, reason)) :
    (row.instrumentId ∉ r.scoring.rankable.map (·.instrumentId)
        ∧ disposition = .unrankable ∧ score = none ∧ rank = none)
      ∨ (row.instrumentId ∈ r.scoring.rankable.map (·.instrumentId)
        ∧ (∃ d, item r.projected (.score row.instrumentId) = .ok d ∧ score = some d)
        ∧ (∃ n, item (exactRanks r.scoring.scores) row.instrumentId = .ok n ∧ rank = some n)
        ∧ disposition = if row.instrumentId ∈ selectedIds r.scoring.scores r.boundary
            then .selected else .rankedNotSelected) := by
  unfold dispose at h
  by_cases hranked : row.instrumentId ∉ r.scoring.rankable.map (·.instrumentId)
  · rw [if_pos hranked] at h
    injection h with h
    obtain ⟨rfl, rfl, rfl, -⟩ := h
    exact Or.inl ⟨hranked, rfl, rfl, rfl⟩
  · rw [if_neg hranked] at h
    simp only [bind_ok] at h
    obtain ⟨d, hd, n, hn, h⟩ := h
    refine Or.inr ⟨not_not.mp hranked, ?_⟩
    split at h
    · next hsel =>
        simp only [bind_ok, pure_ok, Prod.mk.injEq] at h
        obtain ⟨_, -, _, -, rfl, rfl, rfl, -⟩ := h
        exact ⟨⟨d, hd, rfl⟩, ⟨n, hn, rfl⟩, by rw [if_pos hsel]⟩
    · next hsel =>
        obtain ⟨rfl, rfl, rfl, -⟩ := h
        exact ⟨⟨d, hd, rfl⟩, ⟨n, hn, rfl⟩, by rw [if_neg hsel]⟩

theorem item_exactRanks {id n : Nat} (h : item (exactRanks scores) id = .ok n) :
    ∃ score, (id, score) ∈ scores ∧ n = 1 + betterCount scores score := by
  obtain ⟨⟨id', score⟩, hmem, heq⟩ := mem_map.mp (mem_of_item h)
  obtain ⟨rfl, rfl⟩ := Prod.mk.inj heq
  exact ⟨score, hmem, rfl⟩

-- ==== the plan

theorem projectRest_keys {precision : Nat} {s : Scoring} {rest : List (ProjectionKey × Decimal)}
    (h : projectRest precision dataset s = .ok rest)
    {pair : ProjectionKey × Decimal} (hpair : pair ∈ rest) :
    (∀ id, pair.1 ≠ .score id) ∧ pair.1 ≠ .boundary := by
  simp only [projectRest, bind_ok, pure_ok] at h
  obtain ⟨weights, hw, percentiles, hp, contributions, hc, rfl⟩ := h
  simp only [mem_append] at hpair
  rcases hpair with (hpair | hpair) | hpair
  · obtain ⟨value, hvalue, -⟩ := mem_projectItems hw hpair
    obtain ⟨_, -, heq⟩ := mem_map.mp hvalue
    rw [← (Prod.mk.inj heq).1]
    simp
  · obtain ⟨value, hvalue, -⟩ := mem_projectItems hp hpair
    obtain ⟨_, -, heq⟩ := mem_map.mp hvalue
    rw [← (Prod.mk.inj heq).1]
    simp
  · obtain ⟨value, hvalue, -⟩ := mem_projectItems hc hpair
    obtain ⟨_, -, heq⟩ := mem_map.mp hvalue
    rw [← (Prod.mk.inj heq).1]
    simp

/-- What a run that returned `plan` computed on the way. -/
structure Returned (policy : CandidatePolicy)
    (dataset : CandidateDatasetPopulation) (minimum maximum : Nat)
    (plan : CandidateRankingPlan) (r : Ranked) (precision : Nat) : Prop where
  scored : scoring policy dataset = .ok r.scoring
  boundary : r.boundary = boundaryScore r.scoring.scores policy.requestedTopK
  projected : ∃ ranking rest, projectExactValues
        (rankingProjectionInputs r.scoring.scores r.boundary)
        minimum maximum = .ok (precision, ranking)
      ∧ projectRest precision dataset r.scoring = .ok rest
      ∧ r.projected = ranking ++ rest
  records : ∃ records, (dataset.rows.insertionSort (·.instrumentId ≤ ·.instrumentId)).mapM
        (rowRecords policy dataset r) = .ok records
      ∧ plan.candidates = records.map (·.1)
  result : ∃ n storedBoundary, plan.candidateSet
        = candidateSetResult policy dataset precision r n storedBoundary
      ∧ ((r.boundary = none ∧ storedBoundary = none) ∨ ∃ b d, r.boundary = some b
          ∧ item r.projected .boundary = .ok d ∧ storedBoundary = some d)

theorem returned_of_build {minimum maximum : Nat} {plan : CandidateRankingPlan}
    (h : buildCandidateSet policy dataset minimum maximum = .ok plan) :
    ∃ r precision, Returned policy dataset minimum maximum plan r precision
    := by
  simp only [buildCandidateSet, bind_ok] at h
  obtain ⟨s, hs, ⟨precision, ranking⟩, hranking, rest, hrest, records, hrecords, hstored⟩ := h
  refine ⟨⟨s, boundaryScore s.scores policy.requestedTopK, ranking ++ rest⟩, precision, ?_⟩
  cases hb : boundaryScore s.scores policy.requestedTopK with
  | none =>
    rw [hb] at hranking hrecords hstored
    obtain ⟨_, rfl, rfl⟩ := hstored
    exact ⟨hs, hb.symm, ⟨ranking, rest, hranking, hrest, rfl⟩,
      ⟨records, hrecords, rfl⟩, ⟨_, none, rfl, Or.inl ⟨rfl, rfl⟩⟩⟩
  | some b =>
    rw [hb] at hranking hrecords hstored
    simp only [bind_ok, pure_ok] at hstored
    obtain ⟨stored, hitem, rfl⟩ := hstored
    cases hd : item (ranking ++ rest) ProjectionKey.boundary with
    | error raised =>
      rw [hd] at hitem
      cases hitem
    | ok d =>
      rw [hd] at hitem
      injection hitem with hitem
      exact ⟨hs, hb.symm, ⟨ranking, rest, hranking, hrest, rfl⟩, ⟨records, hrecords, rfl⟩,
        ⟨_, stored, rfl, Or.inr ⟨b, d, rfl, hd, hitem.symm⟩⟩⟩

-- ==== the records of the plan

/-- What the record of a row says, given the exact scores. -/
inductive Disposed (policy : CandidatePolicy) (scores : List (Nat × ℚ))
    (precision : Nat) (row : CandidatePopulationRow) (c : CandidateRecord) :
    Prop where
  | unrankable (incomplete : completeCase policy row = false)
      (unscored : ∀ score, (row.instrumentId, score) ∉ scores)
      (disposition : c.disposition = .unrankable)
      (score : c.compositeScore = none) (rank : c.competitionRank = none)
  | ranked (complete : completeCase policy row = true) (score : ℚ)
      (scored : (row.instrumentId, score) ∈ scores)
      (disposition : c.disposition
        = if betterCount scores score < policy.requestedTopK then .selected
          else .rankedNotSelected)
      (rank : c.competitionRank = some (1 + betterCount scores score))
      (d : Decimal) (stored_score : c.compositeScore = some d)
      (value : d.value = stored precision score)

namespace Returned

variable {minimum maximum : Nat} {plan : CandidateRankingPlan} {r : Ranked} {precision : Nat}
  (h : Returned policy dataset minimum maximum plan r precision) {c : CandidateRecord} {d : Decimal}
include h

theorem separates : Separates precision (rankingProjectionInputs r.scoring.scores r.boundary) := by
  obtain ⟨_, _, hranking, -, -⟩ := h.projected
  exact (projectExactValues_ok hranking).2.2.1

/-- A value looked up under the key of a score or of the boundary is the
projection of an input under that key. -/
theorem stored_input {key : ProjectionKey}
    (hkey : key = .boundary ∨ ∃ id, key = .score id) (hd : item r.projected key = .ok d) :
    ∃ value, (key, value) ∈ rankingProjectionInputs r.scoring.scores r.boundary
      ∧ d.value = stored precision value := by
  obtain ⟨ranking, rest, hranking, hrest, heq⟩ := h.projected
  rw [heq] at hd
  rcases mem_append.mp (mem_of_item hd) with hmem | hmem
  · exact mem_projectItems (projectExactValues_ok hranking).2.1 hmem
  · obtain ⟨hscore, hboundary⟩ := projectRest_keys hrest hmem
    rcases hkey with rfl | ⟨id, rfl⟩
    · exact absurd rfl hboundary
    · exact absurd rfl (hscore id)

theorem stored_score {id : Nat} (hd : item r.projected (.score id) = .ok d) :
    ∃ score, (id, score) ∈ r.scoring.scores ∧ d.value = stored precision score := by
  obtain ⟨score, hmem, hvalue⟩ := h.stored_input (Or.inr ⟨id, rfl⟩) hd
  refine ⟨score, ?_, hvalue⟩
  simpa [rankingProjectionInputs] using hmem

/-- The record of each instrument, read against its exact score. -/
theorem disposed (hc : c ∈ plan.candidates) :
    ∃ row ∈ dataset.rows, row.instrumentId = c.instrumentId
      ∧ Disposed policy r.scoring.scores precision row c := by
  obtain ⟨records, hrecords, heq⟩ := h.records
  rw [heq] at hc
  obtain ⟨⟨_, components⟩, hrecord, rfl⟩ := mem_map.mp hc
  obtain ⟨row, hrow, hok⟩ := mem_mapM_ok hrecords _ hrecord
  have hrow : row ∈ dataset.rows := (mem_insertionSort _).mp hrow
  simp only [rowRecords, bind_ok, pure_ok, Prod.mk.injEq] at hok
  obtain ⟨⟨disposition, score, rank, reason⟩, hdispose, _, -, rfl, -⟩ := hok
  refine ⟨row, hrow, rfl, ?_⟩
  rcases dispose_ok hdispose with ⟨hun, rfl, rfl, rfl⟩
    | ⟨hranked, ⟨d, hd, rfl⟩, ⟨n, hn, rfl⟩, rfl⟩
  · rw [ranked_iff h.scored hrow, Bool.not_eq_true] at hun
    refine Disposed.unrankable hun (fun score hmem => ?_) rfl rfl rfl
    obtain ⟨other, hother, hid, hcomplete⟩ := score_row h.scored hmem
    have hsame : other = row := inj_on_of_nodup_map dataset.instruments_unique hother hrow hid
    rw [hsame, hun] at hcomplete
    cases hcomplete
  · obtain ⟨score, hscore, rfl⟩ := item_exactRanks hn
    obtain ⟨score', hscore', hvalue⟩ := h.stored_score hd
    have hsame := score_unique h.scored hscore' hscore
    subst hsame
    refine Disposed.ranked ((ranked_iff h.scored hrow).mp hranked) score' hscore ?_ rfl d rfl hvalue
    -- selected by the boundary is selected by the count
    have hsel : row.instrumentId ∈ selectedIds r.scoring.scores r.boundary
          ↔ betterCount r.scoring.scores score' < policy.requestedTopK := by
      rw [h.boundary, mem_selectedIds policy.top_k_positive]
      constructor
      · rintro ⟨other, hother, hlt⟩
        rwa [score_unique h.scored hother hscore] at hlt
      · exact fun hlt => ⟨score', hscore, hlt⟩
    simp only [hsel]

theorem instruments : (plan.candidates.map (·.instrumentId)).Perm
    (dataset.rows.map (·.instrumentId)) := by
  obtain ⟨records, hrecords, heq⟩ := h.records
  have hmap : records.map (·.1.instrumentId) = (dataset.rows.insertionSort
        (·.instrumentId ≤ ·.instrumentId)).map (·.instrumentId) := by
    refine map_mapM_ok (fun row record hok => ?_) hrecords
    simp only [rowRecords, bind_ok, pure_ok] at hok
    obtain ⟨_, -, _, -, rfl⟩ := hok
    rfl
  rw [heq, map_map]
  show (records.map (·.1.instrumentId)).Perm _
  rw [hmap]
  exact (perm_insertionSort _ _).map _

theorem candidates_nodup : (plan.candidates.map (·.instrumentId)).Nodup :=
  h.instruments.nodup_iff.mpr dataset.instruments_unique

theorem record_of_row {row : CandidatePopulationRow} (hrow : row ∈ dataset.rows) :
    ∃ c ∈ plan.candidates, c.instrumentId = row.instrumentId := by
  have hmem := h.instruments.mem_iff.mpr (mem_map_of_mem hrow)
  exact mem_map.mp hmem

theorem ranked_of_score (hc : c ∈ plan.candidates)
    {score : ℚ} (hs : (c.instrumentId, score) ∈ r.scoring.scores) :
    (c.disposition = if betterCount r.scoring.scores score < policy.requestedTopK then
            .selected else .rankedNotSelected)
      ∧ c.competitionRank = some (1 + betterCount r.scoring.scores score)
      ∧ ∃ d, c.compositeScore = some d ∧ d.value = stored precision score := by
  obtain ⟨row, hrow, hid, hdis⟩ := h.disposed hc
  rw [← hid] at hs
  cases hdis with
  | unrankable _ unscored => exact absurd hs (unscored score)
  | ranked _ score' scored disposition rank d composite value =>
    have hsame := score_unique h.scored scored hs
    subst hsame
    exact ⟨disposition, rank, d, composite, value⟩

end Returned

end MarketRegimeAlpha.Selection
