/-
Composite scores: what they are made of, and what follows for instruments that
are at least as desirable on every component.

# The scores

The score of a complete case is the sum, over the components, of the normalised
weight times the percentile of its value among all complete cases
(`scoring_scores`). The loop's dictionaries only carry these numbers from one
pass to the next.
-/
import MarketRegimeAlpha.Lib.Averages
import MarketRegimeAlpha.Selection.Proofs.Percentiles
import MarketRegimeAlpha.Selection.Proofs.SelectionLaw

namespace MarketRegimeAlpha.Selection

open Lib List

variable {policy : CandidatePolicy} {dataset : CandidateDatasetPopulation}

-- ==== the values

/-- The exact value of a row's cell for a component, as more is better. -/
def desirability (component : CandidatePolicyComponent) (row : CandidatePopulationRow) : ℚ :=
  match exactCellValue (row.cell component.featureDefinitionId) with
  | .ok value => orient component.direction value
  | .error _ => 0

def weightOf (policy : CandidatePolicy) (component : CandidatePolicyComponent) : ℚ :=
  component.declaredWeight.value / (policy.components.map (·.declaredWeight.value)).sum

def percentileOf (policy : CandidatePolicy) (dataset : CandidateDatasetPopulation)
    (component : CandidatePolicyComponent) (row : CandidatePopulationRow) : ℚ :=
  percentile ((rankableRows policy dataset).map (desirability component))
    (desirability component row)

def compositeScore (policy : CandidatePolicy) (dataset : CandidateDatasetPopulation)
    (row : CandidatePopulationRow) : ℚ :=
  (policy.components.map fun component =>
    weightOf policy component * percentileOf policy dataset component row).sum

theorem total_pos (policy : CandidatePolicy) :
    0 < (policy.components.map (·.declaredWeight.value)).sum := by
  obtain ⟨first, rest, hcomponents⟩ := exists_cons_of_ne_nil policy.nonempty
  rw [hcomponents, map_cons, sum_cons]
  refine add_pos_of_pos_of_nonneg first.weight_positive (List.sum_nonneg fun x hx => ?_)
  obtain ⟨component, -, rfl⟩ := mem_map.mp hx
  exact component.weight_positive.le

theorem weightOf_pos (policy : CandidatePolicy) (component : CandidatePolicyComponent) :
    0 < weightOf policy component :=
  div_pos component.weight_positive (total_pos policy)

theorem sum_weightOf (policy : CandidatePolicy) :
    (policy.components.map (weightOf policy)).sum = 1 := by
  unfold weightOf
  rw [sum_map_div, div_self (total_pos policy).ne']

-- ==== the scoring

section Scoring

variable {component : CandidatePolicyComponent} {rankable : List CandidatePopulationRow}

theorem observations_oriented {observed : List (Nat × ℚ)}
    (h : observations rankable component = .ok observed) :
    observed.map (·.1) = rankable.map (·.instrumentId)
      ∧ oriented component.direction observed = rankable.map (desirability component) := by
  constructor
  · refine map_mapM_ok (fun row entry hentry => ?_) h
    simp only [bind_ok, pure_ok] at hentry
    obtain ⟨value, -, rfl⟩ := hentry
    rfl
  · refine map_mapM_ok (fun row entry hentry => ?_) h
    simp only [bind_ok, pure_ok] at hentry
    obtain ⟨value, hvalue, rfl⟩ := hentry
    unfold desirability
    rw [hvalue]

theorem percentiles_rows {observed : List (Nat × ℚ)}
    (h : observations rankable component = .ok observed) :
    arithmeticMidrankPercentiles observed component.direction
      = rankable.map fun row => (row.instrumentId,
          percentile (rankable.map (desirability component)) (desirability component row)) := by
  obtain ⟨hids, hvalues⟩ := observations_oriented h
  rw [arithmeticMidrankPercentiles_eq, hvalues]
  refine map_mapM_ok (fun row entry hentry => ?_) h
  simp only [bind_ok, pure_ok] at hentry
  obtain ⟨value, hvalue, rfl⟩ := hentry
  unfold desirability
  rw [hvalue]

theorem mem_rows {row : CandidatePopulationRow} (h : row ∈ rankableRows policy dataset) :
    row ∈ dataset.rows :=
  (mem_filter.mp h).1

theorem item_weight {weight : ℚ} (hcomponent : component ∈ policy.components)
    (h : item (normalizeDeclaredWeights policy.components)
      component.candidatePolicyComponentId = .ok weight) :
    weight = weightOf policy component := by
  obtain ⟨entry, hentry, heq⟩ := mem_map.mp (mem_of_item h)
  obtain ⟨other, hother, rfl⟩ := mem_map.mp hentry
  obtain ⟨hid, rfl⟩ := Prod.mk.inj heq
  rw [inj_on_of_nodup_map policy.identities_unique hother hcomponent hid, weightOf,
    map_map]
  rfl

theorem item_percentile
    {perComponent : List (List ((Nat × Nat) × ℚ) × CandidateComponentDiagnostic)}
    (hper : policy.components.mapM
      (componentPercentiles dataset (rankableRows policy dataset)) = .ok perComponent)
    (hcomponent : component ∈ policy.components) {row : CandidatePopulationRow}
    (hrow : row ∈ rankableRows policy dataset) {value : ℚ}
    (h : item (perComponent.map (·.1)).flatten
      (row.instrumentId, component.candidatePolicyComponentId) = .ok value) :
    value = percentileOf policy dataset component row := by
  obtain ⟨items, hitems, hmem⟩ := mem_flatten.mp (mem_of_item h)
  obtain ⟨pair, hpair, rfl⟩ := mem_map.mp hitems
  obtain ⟨other, hother, hok⟩ := mem_mapM_ok hper pair hpair
  simp only [componentPercentiles, bind_ok, pure_ok] at hok
  obtain ⟨observed, hobserved, rfl⟩ := hok
  rw [percentiles_rows hobserved, map_map] at hmem
  obtain ⟨otherRow, hotherRow, heq⟩ := mem_map.mp hmem
  obtain ⟨hkey, rfl⟩ := Prod.mk.inj heq
  obtain ⟨hinstrument, hid⟩ := Prod.mk.inj hkey
  rw [inj_on_of_nodup_map policy.identities_unique hother hcomponent hid,
    inj_on_of_nodup_map dataset.instruments_unique (mem_rows hotherRow)
      (mem_rows hrow) hinstrument]
  rfl

theorem scoring_scores {s : Scoring} (h : scoring policy dataset = .ok s) :
    s.scores = (rankableRows policy dataset).map fun row =>
      (row.instrumentId, compositeScore policy dataset row) := by
  simp only [scoring, bind_ok, pure_ok] at h
  obtain ⟨_, -, perComponent, hper, perRow, hperRow, rfl⟩ := h
  -- the contributions of each row
  have hrows : ∀ row ∈ rankableRows policy dataset, ∀ contributions,
      rowContributions policy.components (normalizeDeclaredWeights policy.components)
          (perComponent.map (·.1)).flatten row = .ok contributions →
        (contributions.map (·.2)).sum = compositeScore policy dataset row := by
    intro row hrow contributions hok
    refine congrArg List.sum (map_mapM_ok_of_mem (fun component hcomponent entry hentry => ?_) hok)
    simp only [bind_ok, pure_ok] at hentry
    obtain ⟨weight, hweight, value, hvalue, rfl⟩ := hentry
    rw [item_weight hcomponent hweight, item_percentile hper hcomponent hrow hvalue]
  have hsums := map_mapM_ok_of_mem (g := fun contributions => (contributions.map (·.2)).sum)
    hrows hperRow
  show ((rankableRows policy dataset).zip perRow).map (Prod.map (·.instrumentId)
    fun contributions : List ((Nat × Nat) × ℚ) => (contributions.map (·.2)).sum) = _
  rw [← zip_map, hsums, zip_map']

end Scoring

-- ==== the dominance

/-- The values of two rows on a component, and that the first is at least as
desirable. -/
def AsDesirable (component : CandidatePolicyComponent) (a b : CandidatePopulationRow) : Prop :=
  ∃ u v, exactCellValue (a.cell component.featureDefinitionId) = .ok u
    ∧ exactCellValue (b.cell component.featureDefinitionId) = .ok v
    ∧ orient component.direction v ≤ orient component.direction u

def MoreDesirable (component : CandidatePolicyComponent) (a b : CandidatePopulationRow) : Prop :=
  ∃ u v, exactCellValue (a.cell component.featureDefinitionId) = .ok u
    ∧ exactCellValue (b.cell component.featureDefinitionId) = .ok v
    ∧ orient component.direction v < orient component.direction u

section Dominance

variable {a b : CandidatePopulationRow} {component : CandidatePolicyComponent}

theorem AsDesirable.le (h : AsDesirable component a b) :
    desirability component b ≤ desirability component a := by
  obtain ⟨u, v, hu, hv, hle⟩ := h
  unfold desirability
  rw [hu, hv]
  exact hle

theorem MoreDesirable.lt (h : MoreDesirable component a b) :
    desirability component b < desirability component a := by
  obtain ⟨u, v, hu, hv, hlt⟩ := h
  unfold desirability
  rw [hu, hv]
  exact hlt

variable (ha : a ∈ rankableRows policy dataset)

include ha in
theorem percentileOf_lt_iff (hb : b ∈ rankableRows policy dataset) :
    percentileOf policy dataset component b < percentileOf policy dataset component a
      ↔ desirability component b < desirability component a :=
  percentile_lt_iff (mem_map_of_mem hb) (mem_map_of_mem ha)

include ha in
theorem compositeScore_le (hb : b ∈ rankableRows policy dataset)
    (h : ∀ component ∈ policy.components, AsDesirable component a b) :
    compositeScore policy dataset b ≤ compositeScore policy dataset a := by
  refine sum_le_sum fun component hcomponent => ?_
  refine mul_le_mul_of_nonneg_left ?_ (weightOf_pos policy component).le
  rw [← not_lt, percentileOf_lt_iff hb ha, not_lt]
  exact (h component hcomponent).le

include ha in
theorem compositeScore_lt (hb : b ∈ rankableRows policy dataset)
    (h : ∀ component ∈ policy.components, AsDesirable component a b)
    (hmore : ∃ component ∈ policy.components, MoreDesirable component a b) :
    compositeScore policy dataset b < compositeScore policy dataset a := by
  obtain ⟨component, hcomponent, hlt⟩ := hmore
  refine sum_lt_sum _ _ (fun component hcomponent => ?_) ⟨component, hcomponent, ?_⟩
  · refine mul_le_mul_of_nonneg_left ?_ (weightOf_pos policy component).le
    rw [← not_lt, percentileOf_lt_iff hb ha, not_lt]
    exact (h component hcomponent).le
  · exact mul_lt_mul_of_pos_left ((percentileOf_lt_iff ha hb).mpr hlt.lt)
      (weightOf_pos policy component)

theorem betterCount_le {scores : List (Nat × ℚ)} {x y : ℚ} (h : y ≤ x) :
    betterCount scores x ≤ betterCount scores y :=
  countP_mono_left fun z _ hz => by
    rw [decide_eq_true_eq] at hz ⊢
    exact h.trans_lt hz

theorem betterCount_lt {scores : List (Nat × ℚ)} {x y : ℚ} (h : y < x)
    (hx : x ∈ scores.map (·.2)) : betterCount scores x < betterCount scores y := by
  unfold betterCount
  have hsplit := (perm_cons_erase hx).countP_eq
  rw [hsplit (fun z => decide (x < z)), hsplit (fun z => decide (y < z)),
    countP_cons_of_neg (by simp), countP_cons_of_pos (by simpa using h)]
  refine Nat.lt_succ_of_le (countP_mono_left fun z _ hz => ?_)
  rw [decide_eq_true_eq] at hz ⊢
  exact h.trans hz

end Dominance

-- ==== the bounds

theorem percentileOf_bounds {component : CandidatePolicyComponent}
    {row : CandidatePopulationRow} (hrow : row ∈ rankableRows policy dataset) :
    0 ≤ percentileOf policy dataset component row ∧ percentileOf policy dataset component row ≤ 1 :=
  percentile_bounds (mem_map_of_mem hrow)

theorem compositeScore_bounds {row : CandidatePopulationRow}
    (hrow : row ∈ rankableRows policy dataset) :
    0 ≤ compositeScore policy dataset row ∧ compositeScore policy dataset row ≤ 1 := by
  constructor
  · refine List.sum_nonneg fun x hx => ?_
    obtain ⟨component, -, rfl⟩ := mem_map.mp hx
    exact mul_nonneg (weightOf_pos policy component).le (percentileOf_bounds hrow).1
  · calc compositeScore policy dataset row ≤ (policy.components.map (weightOf policy)).sum :=
          sum_le_sum fun component _ =>
            mul_le_of_le_one_right (weightOf_pos policy component).le (percentileOf_bounds hrow).2
      _ = 1 := sum_weightOf policy

theorem sum_sum_comm {α β : Type} (l : List α) (m : List β) (f : α → β → ℚ) :
    (l.map fun a => (m.map fun b => f a b).sum).sum
      = (m.map fun b => (l.map fun a => f a b).sum).sum := by
  induction l with
  | nil => simp
  | cons a l ih => simp only [map_cons, sum_cons, ih, sum_map_add]

theorem sum_compositeScore : ((rankableRows policy dataset).map (compositeScore policy dataset)).sum
      = ((rankableRows policy dataset).length : ℚ) / 2 := by
  have hcomponent (component : CandidatePolicyComponent) :
      ((rankableRows policy dataset).map fun row =>
          weightOf policy component * percentileOf policy dataset component row).sum
        = weightOf policy component * (((rankableRows policy dataset).length : ℚ) / 2) := by
    have hsum := sum_percentile ((rankableRows policy dataset).map (desirability component))
    rw [length_map, map_map] at hsum
    rw [sum_map_mul_left, ← hsum]
    rfl
  unfold compositeScore
  rw [sum_sum_comm]
  simp only [hcomponent]
  rw [sum_map_mul_right, sum_weightOf, one_mul]

-- ==== the rescaling

structure ScaledComponent (factor : ℚ)
    (component component' : CandidatePolicyComponent) : Prop where
  candidatePolicyComponentId :
    component'.candidatePolicyComponentId = component.candidatePolicyComponentId
  candidatePolicyId : component'.candidatePolicyId = component.candidatePolicyId
  componentCode : component'.componentCode = component.componentCode
  ordinal : component'.ordinal = component.ordinal
  featureDefinitionId : component'.featureDefinitionId = component.featureDefinitionId
  featureValueType : component'.featureValueType = component.featureValueType
  direction : component'.direction = component.direction
  declaredWeight : component'.declaredWeight.value = factor * component.declaredWeight.value

structure ScaledPolicy (factor : ℚ) (policy policy' : CandidatePolicy) : Prop where
  candidatePolicyId : policy'.candidatePolicyId = policy.candidatePolicyId
  policyCode : policy'.policyCode = policy.policyCode
  version : policy'.version = policy.version
  requestedTopK : policy'.requestedTopK = policy.requestedTopK
  components : List.Forall₂ (ScaledComponent factor) policy.components policy'.components

section Rescaling

variable {factor : ℚ} {policy' : CandidatePolicy} {component component' : CandidatePolicyComponent}

theorem mapM_congr_forall₂ {α β γ ε : Type} {R : α → β → Prop} {f : α → Except ε γ}
    {g : β → Except ε γ} {l : List α} {l' : List β} (h : List.Forall₂ R l l')
    (hfg : ∀ a b, R a b → g b = f a) : l'.mapM g = l.mapM f := by
  induction h with
  | nil => rfl
  | cons hab _ ih => rw [mapM_cons, mapM_cons, hfg _ _ hab, ih]

theorem forM_congr_forall₂ {α β ε : Type} {R : α → β → Prop} {f : α → Except ε Unit}
    {g : β → Except ε Unit} {l : List α} {l' : List β} (h : List.Forall₂ R l l')
    (hfg : ∀ a b, R a b → g b = f a) : l'.forM g = l.forM f := by
  induction h with
  | nil => rfl
  | cons hab _ ih => rw [List.forM, List.forM, hfg _ _ hab, ih]

variable (h : ScaledPolicy factor policy policy')

include h in
theorem ScaledPolicy.validateRow (row : CandidatePopulationRow) :
    Selection.validateRow policy'.components row = Selection.validateRow policy.components row := by
  have hfeatures : policy'.components.map (·.featureDefinitionId)
      = policy.components.map (·.featureDefinitionId) :=
    (map_forall₂ h.components fun c c' hc => hc.featureDefinitionId.symm).symm
  unfold Selection.validateRow
  rw [hfeatures]
  refine congrArg _ (funext fun _ => forM_congr_forall₂ h.components fun c c' hc => ?_)
  rw [hc.featureDefinitionId]
  cases row.cell c.featureDefinitionId with
  | none => rfl
  | some cell =>
    unfold validateCellValueType
    rw [hc.featureValueType]

include h in
theorem ScaledPolicy.rankableRows (dataset : CandidateDatasetPopulation) :
    Selection.rankableRows policy' dataset = Selection.rankableRows policy dataset := by
  refine filter_congr fun row _ => ?_
  unfold completeCase
  rw [Bool.eq_iff_iff, all_eq_true, all_eq_true]
  constructor
  · intro hall c hc
    obtain ⟨c', hc', hscaled⟩ := forall₂_left h.components hc
    rw [← hscaled.featureDefinitionId]
    exact hall c' hc'
  · intro hall c' hc'
    obtain ⟨c, hc, hscaled⟩ := forall₂_right h.components hc'
    rw [hscaled.featureDefinitionId]
    exact hall c hc

theorem ScaledPolicy.weights (hfactor : 0 < factor) (h : ScaledPolicy factor policy policy') :
    normalizeDeclaredWeights policy'.components = normalizeDeclaredWeights policy.components := by
  have htotal : (policy'.components.map (·.declaredWeight.value)).sum
      = factor * (policy.components.map (·.declaredWeight.value)).sum := by
    rw [← sum_map_mul_left]
    exact congrArg List.sum (map_forall₂ h.components fun c c' hc => hc.declaredWeight.symm).symm
  unfold normalizeDeclaredWeights
  simp only [map_map, Function.comp_def]
  rw [htotal]
  refine (map_forall₂ h.components fun c c' hc => ?_).symm
  rw [hc.candidatePolicyComponentId, hc.declaredWeight, mul_div_mul_left _ _ hfactor.ne']

theorem ScaledComponent.percentiles (h : ScaledComponent factor component component')
    (rankable : List CandidatePopulationRow) :
    componentPercentiles dataset rankable component'
      = componentPercentiles dataset rankable component := by
  unfold componentPercentiles observations componentDiagnostic
  rw [h.featureDefinitionId, h.direction, h.candidatePolicyComponentId]

theorem ScaledPolicy.scoring (hfactor : 0 < factor)
    (h : ScaledPolicy factor policy policy') (dataset : CandidateDatasetPopulation) :
    Selection.scoring policy' dataset = Selection.scoring policy dataset := by
  have hvalidate : Selection.validateRow policy'.components
      = Selection.validateRow policy.components := funext h.validateRow
  have hpercentiles (rankable : List CandidatePopulationRow) :
      policy'.components.mapM (componentPercentiles dataset rankable)
        = policy.components.mapM (componentPercentiles dataset rankable) :=
    mapM_congr_forall₂ h.components fun c c' hc => hc.percentiles rankable
  have hcontributions (weights : List (Nat × ℚ)) (percentiles : List ((Nat × Nat) × ℚ)) :
      rowContributions policy'.components weights percentiles
        = rowContributions policy.components weights percentiles := by
    funext row
    refine mapM_congr_forall₂ h.components fun c c' hc => ?_
    rw [hc.candidatePolicyComponentId]
  unfold Selection.scoring
  rw [hvalidate, h.rankableRows, h.weights hfactor]
  simp only [hpercentiles, hcontributions]

include h in
theorem ScaledPolicy.rowRecords (dataset : CandidateDatasetPopulation) :
    Selection.rowRecords policy' dataset = Selection.rowRecords policy dataset := by
  have hdispose : dispose policy' = dispose policy := by
    unfold dispose
    rw [h.requestedTopK]
  have hcomponents (r : Ranked) (row : CandidatePopulationRow)
      (disposition : CandidateDisposition) :
      policy'.components.mapM (scoreComponentRecord policy' dataset r row disposition)
        = policy.components.mapM (scoreComponentRecord policy dataset r row disposition) := by
    refine mapM_congr_forall₂ h.components fun c c' hc => ?_
    unfold scoreComponentRecord
    rw [hc.candidatePolicyComponentId, hc.featureDefinitionId, hc.featureValueType,
      h.candidatePolicyId]
  unfold Selection.rowRecords
  rw [hdispose, h.candidatePolicyId]
  simp only [hcomponents]

theorem ScaledPolicy.buildCandidateSet (hfactor : 0 < factor)
    (h : ScaledPolicy factor policy policy') (dataset : CandidateDatasetPopulation)
    (minimum maximum : Nat) :
    Selection.buildCandidateSet policy' dataset minimum maximum
      = Selection.buildCandidateSet policy dataset minimum maximum := by
  have hresult : candidateSetResult policy' dataset = candidateSetResult policy dataset := by
    unfold candidateSetResult
    rw [h.candidatePolicyId, h.requestedTopK, h.components.length_eq]
  unfold Selection.buildCandidateSet
  rw [h.scoring hfactor, h.requestedTopK, h.rowRecords, hresult]

end Rescaling

-- ==== the records

section Records

variable {minimum maximum : Nat} {plan : CandidateRankingPlan}

theorem record_of_row {r : Ranked} {precision : Nat}
    (h : Returned policy dataset minimum maximum plan r precision) {row : CandidatePopulationRow}
    (hrow : row ∈ rankableRows policy dataset) {c : CandidateRecord} (hc : c ∈ plan.candidates)
    (hid : c.instrumentId = row.instrumentId) :
    c.competitionRank = some (1 + betterCount r.scoring.scores (compositeScore policy dataset row))
      ∧ (c.disposition = .selected ↔ betterCount r.scoring.scores
        (compositeScore policy dataset row) < policy.requestedTopK) := by
  have hscore : (row.instrumentId, compositeScore policy dataset row) ∈ r.scoring.scores := by
    rw [scoring_scores h.scored]
    exact mem_map_of_mem hrow
  obtain ⟨other, hother, hsame, hdisposed⟩ := h.disposed hc
  have heq : other = row := inj_on_of_nodup_map dataset.instruments_unique hother
    (mem_rows hrow) (hsame.trans hid)
  subst heq
  cases hdisposed with
  | unrankable _ unscored => exact absurd hscore (unscored _)
  | ranked _ score scored disposition rank =>
    rw [score_unique h.scored scored hscore] at disposition rank
    rw [disposition]
    split <;> simp_all

end Records

/-- A complete case that is at least as desirable on every component has no smaller
score and no later rank, and is selected if the other is; the scores lie between zero
and one with mean one half; and a common factor of the weights changes nothing. -/
theorem dominance {minimum maximum : Nat} {plan : CandidateRankingPlan}
    (h : buildCandidateSet policy dataset minimum maximum = .ok plan) :
    ∃ s, scoring policy dataset = .ok s
      ∧ (∀ a ∈ rankableRows policy dataset, ∀ b ∈ rankableRows policy dataset,
        (∀ component ∈ policy.components, AsDesirable component a b) →
        ∀ x y, (a.instrumentId, x) ∈ s.scores → (b.instrumentId, y) ∈ s.scores →
        ∀ ca ∈ plan.candidates, ∀ cb ∈ plan.candidates,
        ca.instrumentId = a.instrumentId → cb.instrumentId = b.instrumentId →
        ∃ m n, ca.competitionRank = some m ∧ cb.competitionRank = some n ∧ y ≤ x ∧ m ≤ n
          ∧ ((∃ component ∈ policy.components, MoreDesirable component a b) → y < x ∧ m < n)
          ∧ (cb.disposition = .selected → ca.disposition = .selected))
      ∧ (∀ entry ∈ s.scores, 0 ≤ entry.2 ∧ entry.2 ≤ 1)
      ∧ (s.scores ≠ [] → (s.scores.map (·.2)).sum / s.scores.length = 1 / 2)
      ∧ ∀ factor policy', 0 < factor → ScaledPolicy factor policy policy' →
        scoring policy' dataset = .ok s
          ∧ buildCandidateSet policy' dataset minimum maximum = .ok plan := by
  obtain ⟨r, precision, hr⟩ := returned_of_build h
  have hscores := scoring_scores hr.scored
  refine ⟨r.scoring, hr.scored, ?_, ?_, ?_, ?_⟩
  · intro a ha b hb hdesirable x y hx hy ca hca cb hcb hida hidb
    have hxa : x = compositeScore policy dataset a :=
      score_unique hr.scored hx (hscores ▸ mem_map_of_mem ha)
    have hyb : y = compositeScore policy dataset b :=
      score_unique hr.scored hy (hscores ▸ mem_map_of_mem hb)
    obtain ⟨hranka, hselecteda⟩ := record_of_row hr ha hca hida
    obtain ⟨hrankb, hselectedb⟩ := record_of_row hr hb hcb hidb
    have hle := compositeScore_le ha hb hdesirable
    have hcount := @betterCount_le r.scoring.scores _ _ hle
    subst hxa hyb
    refine ⟨_, _, hranka, hrankb, hle, Nat.add_le_add_left hcount 1, fun hmore => ?_,
      fun hselected => hselecteda.mpr (hcount.trans_lt (hselectedb.mp hselected))⟩
    have hlt := compositeScore_lt ha hb hdesirable hmore
    exact ⟨hlt, Nat.add_lt_add_left (betterCount_lt hlt (mem_map_of_mem hx)) 1⟩
  · intro entry hentry
    rw [hscores] at hentry
    obtain ⟨row, hrow, rfl⟩ := mem_map.mp hentry
    exact compositeScore_bounds hrow
  · intro hne
    have hlength : (r.scoring.scores.length : ℚ) ≠ 0 :=
      Nat.cast_ne_zero.mpr (length_pos_iff.mpr hne).ne'
    have hsum : (r.scoring.scores.map (·.2)).sum = (r.scoring.scores.length : ℚ) / 2 := by
      rw [hscores, map_map, length_map]
      exact sum_compositeScore
    rw [hsum]
    field_simp
  · intro factor policy' hfactor hscaled
    rw [hscaled.scoring hfactor, hscaled.buildCandidateSet hfactor]
    exact ⟨hr.scored, h⟩

theorem dominance_sample : ∃ plan s, buildCandidateSet samplePolicy sampleDataset 64 4096 = .ok plan
      ∧ scoring samplePolicy sampleDataset = .ok s
      ∧ ∀ entry ∈ s.scores, 0 ≤ entry.2 ∧ entry.2 ≤ 1 := by
  obtain ⟨plan, hplan⟩ := exists_of_isOk
    (x := buildCandidateSet samplePolicy sampleDataset 64 4096) (by decide +kernel)
  obtain ⟨s, hs, -, hbounds, -⟩ := dominance hplan
  exact ⟨plan, s, hplan, hs, hbounds⟩

end MarketRegimeAlpha.Selection
