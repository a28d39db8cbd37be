/-
The split of a calibration is the best of those that meet the floors.

A date meets the floors only when something lies before it, so that the first date
needs no exception (`mem_splitCandidates`): the candidates are the trading dates that
meet them. What the split leaves is then read off its two filters, and that it does
not depend on the order of the observations off the fact that it is the only best one
(`SplitAt.unique`).
-/
import Mathlib
import MarketRegimeAlpha.ResearchValidation.PathCalibration

namespace MarketRegimeAlpha.ResearchValidation

open Lib List

section Candidates

variable {values values' : List ResolvedCalibrationObservation}
  {policy : CalibrationPartitionPolicy} {d d' : Int} {k : Nat}
  {item : ResolvedCalibrationObservation}

/-- A trading date that leaves the samples the policy asks for. -/
def Admissible (values : List ResolvedCalibrationObservation)
    (policy : CalibrationPartitionPolicy) (d : Int) : Prop :=
  d ∈ values.map (·.tradingDate) ∧ FloorsMet values policy d

theorem mem_fitOf : item ∈ fitOf values d ↔
    item ∈ values ∧ item.tradingDate < d ∧ item.labelEndDate < d := by
  unfold fitOf
  rw [mem_filter, decide_eq_true_eq]

theorem mem_validationOf : item ∈ validationOf values d ↔ item ∈ values ∧ d ≤ item.tradingDate := by
  unfold validationOf
  rw [mem_filter, decide_eq_true_eq]

variable (h : FloorsMet values policy d)

include h in
theorem FloorsMet.fit_ne_nil : fitOf values d ≠ [] :=
  ne_nil_of_length_pos (policy.fit_positive.trans_le h.1)

include h in
theorem FloorsMet.validation_ne_nil : validationOf values d ≠ [] :=
  ne_nil_of_length_pos (policy.validation_positive.trans_le h.2)

include h in
theorem FloorsMet.pos (hk : (sortedDistinct (values.map (·.tradingDate)))[k]? = some d) : 0 < k :=
    by
  obtain ⟨item, hitem⟩ := exists_mem_of_ne_nil _ h.fit_ne_nil
  obtain ⟨hmem, hlt, -⟩ := mem_fitOf.mp hitem
  obtain ⟨j, hj⟩ := mem_iff_getElem?.mp
    (mem_sortedDistinct.mpr (mem_map_of_mem (f := (·.tradingDate)) hmem))
  by_contra hzero
  have hle := le_of_getElem?_le
    ((sortedDistinct_pairwise (values.map (·.tradingDate))).imp le_of_lt) hk hj (by omega)
  omega

theorem mem_splitCandidates : (d, k) ∈ splitCandidates values policy ↔
    (sortedDistinct (values.map (·.tradingDate)))[k]? = some d ∧ FloorsMet values policy d := by
  unfold splitCandidates
  rw [mem_filter, decide_eq_true_eq]
  refine and_congr_left fun hfloors => ?_
  rw [mem_iff_getElem?]
  constructor
  · rintro ⟨j, hj⟩
    rw [getElem?_drop, getElem?_zipIdx] at hj
    obtain ⟨date, hdate, heq⟩ := Option.map_eq_some_iff.mp hj
    obtain ⟨rfl, rfl⟩ := Prod.mk.inj heq
    rwa [Nat.zero_add]
  · intro hk
    have hpos := hfloors.pos hk
    refine ⟨k - 1, ?_⟩
    rw [getElem?_drop, getElem?_zipIdx, Nat.add_sub_cancel' hpos, hk]
    simp

theorem admissible_iff : Admissible values policy d ↔
    ∃ k, (d, k) ∈ splitCandidates values policy := by
  simp only [mem_splitCandidates, exists_and_right, ← mem_iff_getElem?, mem_sortedDistinct]
  rfl

structure SplitAt (values : List ResolvedCalibrationObservation)
    (policy : CalibrationPartitionPolicy) (d : Int) : Prop where
  admissible : Admissible values policy d
  least : ∀ d', Admissible values policy d' →
    toLex (splitRank values d, d) ≤ toLex (splitRank values d', d')

theorem SplitAt.unique (h : SplitAt values policy d) (h' : SplitAt values policy d') : d = d' := by
  have heq := le_antisymm (h.least d' h'.admissible) (h'.least d h.admissible)
  exact (Prod.mk.inj (toLex.injective heq)).2

theorem splitAt_of_argmin (h : (d, k) ∈ (splitCandidates values policy).argmin
      fun split => toLex (splitRank values split.1, split.2)) :
    SplitAt values policy d := by
  have hmem := argmin_mem h
  refine ⟨admissible_iff.mpr ⟨k, hmem⟩, fun d' hd' => ?_⟩
  obtain ⟨k', hk'⟩ := admissible_iff.mp hd'
  have hle := le_of_mem_argmin hk' h
  rw [Prod.Lex.toLex_le_toLex] at hle ⊢
  refine hle.imp_right fun ⟨hrank, hindex⟩ => ⟨hrank, ?_⟩
  exact le_of_getElem?_le ((sortedDistinct_pairwise (values.map (·.tradingDate))).imp le_of_lt)
    (mem_splitCandidates.mp hmem).1 (mem_splitCandidates.mp hk').1 hindex

def assignments (values : List ResolvedCalibrationObservation) (d : Int) :
    List CalibrationObservation :=
  (fitOf values d).map (·.assigned .fit) ++ (validationOf values d).map (·.assigned .validation)

theorem partitionObservations_cases (values : List ResolvedCalibrationObservation)
    (policy : CalibrationPartitionPolicy) :
    ((partitionObservations values policy).1 = none ∧ ∀ d, ¬ Admissible values policy d)
      ∨ ∃ d, (partitionObservations values policy).1 = some (assignments values d)
        ∧ SplitAt values policy d := by
  unfold partitionObservations
  by_cases hshort : (sortedDistinct (values.map (·.tradingDate))).length < 2
  · refine .inl ⟨by rw [if_pos hshort], fun d hd => ?_⟩
    obtain ⟨k, hk⟩ := admissible_iff.mp hd
    obtain ⟨hdate, hfloors⟩ := mem_splitCandidates.mp hk
    obtain ⟨hlt, -⟩ := List.getElem?_eq_some_iff.mp hdate
    have hpos := hfloors.pos hdate
    omega
  · rw [if_neg hshort]
    split
    next hnone =>
      refine .inl ⟨rfl, fun d hd => ?_⟩
      obtain ⟨k, hk⟩ := admissible_iff.mp hd
      rw [argmin_eq_none.mp hnone] at hk
      cases hk
    next d k hsome => exact .inr ⟨d, rfl, splitAt_of_argmin hsome⟩

end Candidates

-- ==== the result

variable {values values' : List ResolvedCalibrationObservation}
  {policy : CalibrationPartitionPolicy} {d : Int}

theorem fitOf_perm (h : values'.Perm values) (d : Int) :
    (fitOf values' d).Perm (fitOf values d) := h.filter _

theorem validationOf_perm (h : values'.Perm values) (d : Int) :
    (validationOf values' d).Perm (validationOf values d) := h.filter _

theorem SplitAt.perm (h : SplitAt values policy d) (hperm : values'.Perm values) :
    SplitAt values' policy d := by
  have hadmissible : ∀ d, Admissible values' policy d ↔ Admissible values policy d := by
    intro d
    unfold Admissible FloorsMet
    rw [(hperm.map _).mem_iff, (fitOf_perm hperm d).length_eq,
      (validationOf_perm hperm d).length_eq]
  have hrank : ∀ d, splitRank values' d = splitRank values d := by
    intro d
    unfold splitRank
    rw [(fitOf_perm hperm d).length_eq, (validationOf_perm hperm d).length_eq, hperm.length_eq]
  refine ⟨(hadmissible d).mpr h.admissible, fun d' hd' => ?_⟩
  rw [hrank, hrank]
  exact h.least d' ((hadmissible d').mp hd')

/-- The observations are partitioned just when a trading date meets the floors, at the
best of those dates: the fit ends before the validation starts, what is dropped lies
before it with a label that reaches it, and the order of the observations does not
matter. -/
theorem calibration_partition (values : List ResolvedCalibrationObservation)
    (policy : CalibrationPartitionPolicy) (hids : (values.map (·.observationId)).Nodup) :
    ((partitionObservations values policy).1 = none ↔ ¬ ∃ d, Admissible values policy d)
      ∧ (∀ observations, (partitionObservations values policy).1 = some observations →
          ∃ d, SplitAt values policy d ∧ observations = assignments values d
            ∧ fitOf values d ≠ [] ∧ validationOf values d ≠ []
            ∧ (∀ f ∈ fitOf values d, ∀ v ∈ validationOf values d, f.observationId ≠ v.observationId
                  ∧ f.tradingDate < v.tradingDate ∧ f.labelEndDate < v.tradingDate)
            ∧ ∀ item ∈ values, item ∉ fitOf values d ∧ item ∉ validationOf values d
                ↔ item.tradingDate < d ∧ d ≤ item.labelEndDate)
      ∧ ∀ values', values'.Perm values →
          Option.Rel List.Perm (partitionObservations values' policy).1
            (partitionObservations values policy).1 := by
  refine ⟨?_, fun observations hobservations => ?_, fun values' hperm => ?_⟩
  case refine_1 =>
    rcases partitionObservations_cases values policy with ⟨hnone, hall⟩ | ⟨d, hsome, hd⟩
    · exact iff_of_true hnone fun ⟨d, hd⟩ => hall d hd
    · rw [hsome]
      exact iff_of_false (fun h => nomatch h) fun h => h ⟨d, hd.admissible⟩
  case refine_2 =>
    rcases partitionObservations_cases values policy with ⟨hnone, -⟩ | ⟨d, hsome, hd⟩
    · rw [hnone] at hobservations
      cases hobservations
    refine ⟨d, hd, Option.some_injective _ (hobservations.symm.trans hsome),
      hd.admissible.2.fit_ne_nil, hd.admissible.2.validation_ne_nil, ?_, ?_⟩
    · intro f hf v hv
      obtain ⟨hfmem, hfdate, hflabel⟩ := mem_fitOf.mp hf
      obtain ⟨hvmem, hvdate⟩ := mem_validationOf.mp hv
      refine ⟨fun heq => ?_, by omega, by omega⟩
      rw [inj_on_of_nodup_map hids hfmem hvmem heq] at hfdate
      omega
    · intro item hitem
      rw [mem_fitOf, mem_validationOf]
      simp only [hitem, true_and]
      omega
  case refine_3 =>
    rcases partitionObservations_cases values policy with ⟨hnone, hall⟩ | ⟨d, hsome, hd⟩
    · rcases partitionObservations_cases values' policy with ⟨hnone', -⟩ | ⟨d', -, hd'⟩
      · rw [hnone, hnone']
        exact .none
      · exact absurd (hd'.perm hperm.symm).admissible (hall d')
    · rcases partitionObservations_cases values' policy with ⟨-, hall'⟩ | ⟨d', hsome', hd'⟩
      · exact absurd (hd.perm hperm).admissible (hall' d)
      · rw [hsome, hsome', hd'.unique (hd.perm hperm)]
        exact .some (((fitOf_perm hperm d).map _).append ((validationOf_perm hperm d).map _))

def dayObservation (observationId : String) (day label : Int) : ResolvedCalibrationObservation where
  tradingDate := day
  labelEndDate := day + label
  observationId := observationId
  score := 0
  outcome := 0
  binary := .inl rfl

theorem calibration_partition_sample :
    (partitionObservations [dayObservation "a" 1 1, dayObservation "b" 2 2,
      dayObservation "c" 3 1] ⟨1, 1, by decide, by decide⟩).1 ≠ none := by
  have h := (calibration_partition [dayObservation "a" 1 1, dayObservation "b" 2 2,
    dayObservation "c" 3 1] ⟨1, 1, by decide, by decide⟩ (by decide)).1
  exact fun hnone => h.mp hnone ⟨3, by unfold Admissible; decide⟩

end MarketRegimeAlpha.ResearchValidation
