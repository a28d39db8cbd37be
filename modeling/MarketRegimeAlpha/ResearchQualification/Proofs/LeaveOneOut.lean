/-
The figures of a comparison without one security.

# Two ways to the same figures

The comparison adds up the pairs of each security while it goes through the
sessions, and takes them off the totals again (`sensitivityOf`). What is left is
what the comparison makes of the pairs of the other securities: the pairs that
are visited are a permutation of the pairs (`visited_perm`), so in exact
arithmetic the totals split (`deltaSum_split`), and day by day the pairs left are
the same list (`dailyPairs_filter`). A control has no rank correlations to take
out: where it forecasts each day as one number, there are none to recompute.
-/
import MarketRegimeAlpha.ResearchQualification.Robustness
import MarketRegimeAlpha.ResearchQualification.Proofs.FormulaAnswers
import MarketRegimeAlpha.ResearchQualification.Proofs.RankCorrelation

namespace MarketRegimeAlpha.ResearchQualification

open Lib EvaluationFormula List

-- ==== exact arithmetic

theorem realArithmetic_lawful : realArithmetic.Lawful where
  round_zero := rfl
  round_nonneg h := h
  round_ne_zero h := h
  square_nonneg x := mul_self_nonneg x

theorem exists_rankIc (role : ValidityPair → ℚ) (items : List ValidityPair) :
    ∃ correlation, rankIc realArithmetic role items = .ok correlation := by
  unfold rankIc
  by_cases h : 3 ≤ items.length
  · rw [if_pos h]
    apply (exists_spearman realArithmetic_lawful).mpr
    intro hnil
    have hlength : (forecastPairs ℝ role items).length = items.length := length_map _
    rw [hnil, length_nil] at hlength
    omega
  · rw [if_neg h]
    exact ⟨none, rfl⟩

/-- The correlation of a role with the labels. -/
noncomputable def icOf (role : ValidityPair → ℚ) (items : List ValidityPair) :
    Option ℝ :=
  (exists_rankIc role items).choose

theorem rankIc_real (role : ValidityPair → ℚ) (items : List ValidityPair) :
    rankIc realArithmetic role items = .ok (icOf role items) :=
  (exists_rankIc role items).choose_spec

variable {role : ValidityPair → ℚ} {items : List ValidityPair}

theorem icOf_constant (h : ∀ p ∈ items, ∀ q ∈ items, role p = role q) : icOf role items = none := by
  have hreal := rankIc_real role items
  unfold rankIc at hreal
  by_cases hlength : 3 ≤ items.length
  · rw [if_pos hlength] at hreal
    have hne : forecastPairs ℝ role items ≠ [] := by
      intro hnil
      have hmap : (forecastPairs ℝ role items).length = items.length := length_map _
      rw [hnil, length_nil] at hmap
      omega
    have hnone := ((spearman_law (forecastPairs ℝ role items)).none_iff hne).mpr (.inl ?_)
    · rw [hnone] at hreal
      exact (Except.ok.inj hreal).symm
    · unfold forecastPairs
      rw [map_map]
      intro x hx y hy
      obtain ⟨p, hp, rfl⟩ := mem_map.mp hx
      obtain ⟨q, hq, rfl⟩ := mem_map.mp hy
      simp only [Function.comp_apply]
      rw [h p hp q hq]
  · rw [if_neg hlength] at hreal
    exact (Except.ok.inj hreal).symm

theorem icOf_ne_none (hlength : 3 ≤ items.length)
    (hrole : ∃ p ∈ items, ∃ q ∈ items, role p ≠ role q)
    (hlabel : ∃ p ∈ items, ∃ q ∈ items, p.label ≠ q.label) :
    icOf role items ≠ none := by
  intro hnone
  have hreal := rankIc_real role items
  unfold rankIc at hreal
  rw [if_pos hlength, hnone] at hreal
  have hne : forecastPairs ℝ role items ≠ [] := by
    intro hnil
    rw [hnil] at hreal
    obtain ⟨signal, hsignal⟩ := spearman_nil realArithmetic
    rw [hsignal] at hreal
    cases hreal
  -- a side without a correlation is constant
  have hsame : ∀ f : ValidityPair → ℚ, Constant (items.map fun p => (f p : ℝ)) →
      ¬ ∃ p ∈ items, ∃ q ∈ items, f p ≠ f q := by
    intro f hconstant h
    obtain ⟨p, hp, q, hq, hpq⟩ := h
    apply hpq
    have hequal := hconstant _ (mem_map_of_mem hp) _ (mem_map_of_mem hq)
    exact_mod_cast hequal
  rcases ((spearman_law _).none_iff hne).mp hreal with h | h | h
  · rw [forecastPairs, map_map] at h
    exact hsame role h hrole
  · rw [forecastPairs, map_map] at h
    exact hsame (·.label) h hlabel
  · rw [forecastPairs, length_map] at h
    omega

-- ==== the figures

section Figures

variable (reference : String) (sessions : List FoldSession) (instruments : List Nat)
  (pairs : List ValidityPair)

def visited : List ValidityPair := sessions.flatMap fun session => dailyPairs pairs session.day

/-- The absolute-error difference of some pairs. -/
noncomputable def deltaSum (items : List ValidityPair) : ℝ :=
  (items.map (absoluteErrorDelta realArithmetic)).sum

/-- The rank correlation difference of the pairs of a day. -/
noncomputable def dayDelta (items : List ValidityPair) : Option ℝ :=
  rankIcDelta realArithmetic (icOf (·.model) items) (icOf (·.baseline) items)

/-- The rank correlation differences that there are. -/
noncomputable def dayDeltas : List ℝ :=
  (sessions.map fun session => dayDelta (dailyPairs pairs session.day)).reduceOption

variable (instrument : Nat)

def ofSecurity : List ValidityPair :=
  pairs.filter (·.instrumentId = some instrument)

variable (session : FoldSession)

/-- The row of a session in exact arithmetic. -/
noncomputable def dailyOf : DailyRow ℝ :=
  let items := dailyPairs pairs session.day
  { foldId := session.foldId
    session := session.day
    pairedObservations := items.length
    maeDelta := if items = [] then none
      else some (deltaSum items / items.length)
    absoluteErrorDeltaSum := if items = [] then none else some (deltaSum items)
    modelRankIc := icOf (·.model) items
    referenceRankIc := icOf (·.baseline) items
    rankIcDelta := dayDelta items
    rankState := if (dayDelta items).isNone then "NOT_ESTIMABLE"
      else "DESCRIPTIVE" }

/-- The row of a security in exact arithmetic. -/
noncomputable def sensitivityOf : SensitivityRow ℝ :=
  let removed := ofSecurity (visited sessions pairs) instrument
  let remaining : Int := (pairs.length : Int) - removed.length
  let rankDeltas := if reference ∈ controls then []
    else dayDeltas sessions (withoutSecurity pairs instrument)
  { excludedInstrumentId := instrument
    removedObservations := removed.length
    removedAbsoluteErrorDeltaSum := deltaSum removed
    remainingObservations := remaining
    remainingMaeDelta := if remaining = 0 then none
      else some ((deltaSum (visited sessions pairs) - deltaSum removed) / remaining)
    remainingMeanDailyRankIcDelta := meanOf realArithmetic rankDeltas
    remainingEstimableIcDays := rankDeltas.length }

/-- The figures in exact arithmetic. -/
noncomputable def figuresOf : PairedFigures ℝ where
  pairedObservations := pairs.length
  perDay := sessions.map (dailyOf pairs)
  maeDelta := if pairs = [] then none
    else some (deltaSum (visited sessions pairs) / pairs.length)
  meanDailyRankIcDelta := meanOf realArithmetic (dayDeltas sessions pairs)
  maeDaySigns := signsOf realArithmetic
    ((sessions.map (dailyOf pairs)).map (·.maeDelta)).reduceOption sessions.length
  icDaySigns := signsOf realArithmetic (dayDeltas sessions pairs) sessions.length
  leaveOneSecurityOut := (sortBy id instruments).map (sensitivityOf reference sessions pairs)

variable {reference sessions instruments pairs}

theorem dailyRow_real : dailyRow realArithmetic session (dailyPairs pairs session.day)
      = .ok (dailyOf pairs session) := by
  unfold dailyRow
  rw [rankIc_real, ok_bind, rankIc_real, ok_bind]
  simp only [realArithmetic, Arithmetic.exact_sum, Arithmetic.exact_round]
  rfl

theorem dailyPairs_filter (p : ValidityPair → Bool) (day : Session) :
    dailyPairs (pairs.filter p) day = (dailyPairs pairs day).filter p := by
  exact filter_comm _ _ _

theorem rankDelta_real (items : List ValidityPair) :
    rankDelta realArithmetic items = .ok (dayDelta items) := by
  unfold rankDelta
  rw [rankIc_real, ok_bind, rankIc_real, ok_bind]
  rfl

theorem rankDeltasWithout_real : rankDeltasWithout realArithmetic sessions pairs instrument
      = .ok (dayDeltas sessions (withoutSecurity pairs instrument)) := by
  unfold rankDeltasWithout
  rw [mapM_ok_map fun session _ => rankDelta_real _, ok_bind]
  unfold dayDeltas withoutSecurity
  simp only [dailyPairs_filter]
  rfl

/-- Each pair adds one to the count of its security and its difference to the
sum. -/
theorem lookup_foldl_addSecurity (items : List ValidityPair) (instrument : Nat)
    (security : List (Nat × Nat × ℝ)) :
    ((items.foldl (addSecurity realArithmetic) security).lookup instrument).getD (0, 0)
      = (((security.lookup instrument).getD (0, 0)).1 + (ofSecurity items instrument).length,
        ((security.lookup instrument).getD (0, 0)).2 + deltaSum (ofSecurity items instrument)) := by
  induction items generalizing security with
  | nil => simp [ofSecurity, deltaSum]
  | cons pair items ih =>
    rw [foldl_cons, ih]
    unfold addSecurity
    cases hpair : pair.instrumentId with
    | none => simp [ofSecurity, hpair]
    | some other =>
      rw [lookup_setItem]
      by_cases h : instrument = other
      · rw [if_pos h]
        simp only [ofSecurity, deltaSum, hpair, h, Option.getD_some,
          realArithmetic, Arithmetic.exact_round, filter_cons, decide_true,
          if_true, length_cons, map_cons, sum_cons,
          Prod.mk.injEq]
        exact ⟨by omega, by ring⟩
      · have hne : ¬ some other = some instrument := fun heq => h (Option.some.inj heq).symm
        rw [if_neg h]
        simp only [ofSecurity, hpair, hne, filter_cons, decide_false,
          Bool.false_eq_true, if_false]

theorem lookup_securityOf :
    ((securityOf realArithmetic sessions instruments pairs).lookup instrument).getD (0, 0)
      = ((ofSecurity (visited sessions pairs) instrument).length,
        deltaSum (ofSecurity (visited sessions pairs) instrument)) := by
  have hstart : ((dictOf (instruments.map fun instrument =>
      (instrument, ((0, 0) : Nat × ℝ)))).lookup instrument).getD (0, 0) = (0, 0) := by
    cases hlookup : (dictOf (instruments.map fun instrument =>
        (instrument, ((0, 0) : Nat × ℝ)))).lookup instrument with
    | none => rfl
    | some account =>
      have hmem := mem_dictOf ((lookup_eq_some_iff (nodup_keys_dictOf _)).mp hlookup)
      obtain ⟨other, -, heq⟩ := mem_map.mp hmem
      exact (Prod.mk.inj heq).2.symm
  unfold securityOf
  rw [← foldl_flatMap, ← visited, lookup_foldl_addSecurity, hstart]
  simp

theorem sensitivityRow_real : sensitivityRow realArithmetic reference sessions pairs
        (securityOf realArithmetic sessions instruments pairs)
        (deltaSum (visited sessions pairs)) instrument
      = .ok (sensitivityOf reference sessions pairs instrument) := by
  unfold sensitivityRow sensitivityOf
  rw [lookup_securityOf]
  by_cases h : reference ∈ controls
  · simp only [h, if_true, realArithmetic, Arithmetic.exact_round]
    rfl
  · simp only [h, if_false, rankDeltasWithout_real, ok_bind]
    rfl

theorem deltaSum_visited : deltaSum (visited sessions pairs) = (sessions.map fun session =>
      deltaSum (dailyPairs pairs session.day)).sum := by
  unfold deltaSum visited
  rw [map_flatMap, flatMap_def, sum_flatten, map_map]
  rfl

theorem pairedFigures_real : pairedFigures realArithmetic reference sessions instruments pairs
      = .ok (figuresOf reference sessions instruments pairs) := by
  have htotal : realArithmetic.sum (sessions.map fun session =>
      realArithmetic.sum ((dailyPairs pairs session.day).map (absoluteErrorDelta realArithmetic)))
        = deltaSum (visited sessions pairs) := by
    rw [deltaSum_visited]
    simp only [realArithmetic, Arithmetic.exact_sum]
    rfl
  unfold pairedFigures
  rw [mapM_ok_map fun session _ => dailyRow_real session, ok_bind]
  dsimp only
  rw [htotal, mapM_ok_map fun instrument _ => sensitivityRow_real instrument, ok_bind]
  unfold figuresOf dayDeltas
  rw [map_map, map_map]
  rfl

-- ==== the totals

theorem visited_perm (hdays : (sessions.map (·.day)).Nodup)
    (hpairs : ∀ pair ∈ pairs, pair.session ∈ sessions.map (·.day)) :
    (visited sessions pairs).Perm pairs := by
  have hflat : ((sessions.map (·.day)).flatMap fun day =>
      pairs.filter (·.session = day)).Perm pairs :=
    flatMap_filter_perm _ hdays hpairs
  rwa [flatMap_map] at hflat

theorem visited_without : visited sessions (withoutSecurity pairs instrument)
      = withoutSecurity (visited sessions pairs) instrument := by
  unfold visited withoutSecurity
  simp only [dailyPairs_filter, filter_flatMap]

theorem deltaSum_perm {items items' : List ValidityPair} (h : items.Perm items') :
    deltaSum items = deltaSum items' := (h.map _).sum_eq

theorem split_perm (items : List ValidityPair) (instrument : Nat) :
    (ofSecurity items instrument ++ withoutSecurity items instrument).Perm items := by
  have hsplit := filter_append_perm
    (fun pair : ValidityPair => decide (pair.instrumentId = some instrument)) items
  simpa only [ofSecurity, withoutSecurity, decide_not, ne_eq] using hsplit

theorem deltaSum_split (items : List ValidityPair) (instrument : Nat) :
    deltaSum items = deltaSum (ofSecurity items instrument)
      + deltaSum (withoutSecurity items instrument) := by
  rw [← deltaSum_perm (split_perm items instrument), deltaSum, map_append, sum_append]
  rfl

theorem length_split (items : List ValidityPair) (instrument : Nat) :
    (ofSecurity items instrument).length
      + (withoutSecurity items instrument).length = items.length := by
  rw [← (split_perm items instrument).length_eq, length_append]

theorem sum_ofSecurity {items : List ValidityPair} {securities : List Nat}
    (hsecurities : securities.Nodup)
    (hitems : ∀ pair ∈ items, ∃ i ∈ securities, pair.instrumentId = some i) :
    (securities.map fun i => (ofSecurity items i).length).sum = items.length
      ∧ (securities.map fun i => deltaSum (ofSecurity items i)).sum = deltaSum items := by
  have hperm : ((securities.map some).flatMap fun i =>
      items.filter (·.instrumentId = i)).Perm items := by
    apply flatMap_filter_perm
    · exact (nodup_map_iff (Option.some_injective Nat)).mpr hsecurities
    · intro pair hpair
      obtain ⟨i, hi, heq⟩ := hitems pair hpair
      exact heq ▸ mem_map_of_mem hi
  rw [flatMap_map] at hperm
  constructor
  case left =>
    rw [← hperm.length_eq, length_flatMap]
    rfl
  case right =>
    rw [← deltaSum_perm hperm, deltaSum, map_flatMap, flatMap_def,
      sum_flatten, map_map]
    rfl

-- ==== without a security

structure Recomputed (row : SensitivityRow ℝ) (before after : PairedFigures ℝ) : Prop where
  removed : row.removedObservations + after.pairedObservations = before.pairedObservations
  remaining : row.remainingObservations = after.pairedObservations
  mae : row.remainingMaeDelta = after.maeDelta

def RankRecomputed (row : SensitivityRow ℝ) (after : PairedFigures ℝ) : Prop :=
  row.remainingMeanDailyRankIcDelta = after.meanDailyRankIcDelta
    ∧ row.remainingEstimableIcDays = after.icDaySigns.estimableDays

theorem sensitivityOf_recomputed (hdays : (sessions.map (·.day)).Nodup)
    (hpairs : ∀ pair ∈ pairs, pair.session ∈ sessions.map (·.day)) (instrument : Nat) :
    Recomputed (sensitivityOf reference sessions pairs instrument)
      (figuresOf reference sessions instruments pairs)
      (figuresOf reference sessions instruments (withoutSecurity pairs instrument)) := by
  have hvisited := visited_perm hdays hpairs
  have hlength := length_split (visited sessions pairs) instrument
  have hkept : (withoutSecurity (visited sessions pairs) instrument).length
      = (withoutSecurity pairs instrument).length :=
    (hvisited.filter _).length_eq
  rw [hvisited.length_eq, hkept] at hlength
  have hremaining : (pairs.length : Int) - (ofSecurity (visited sessions pairs) instrument).length
        = (withoutSecurity pairs instrument).length := by omega
  constructor
  case removed => exact hlength
  case remaining => exact hremaining
  case mae =>
    have htotal := deltaSum_split (visited sessions pairs) instrument
    unfold sensitivityOf figuresOf
    dsimp only
    rw [hremaining, visited_without, htotal, add_sub_cancel_left]
    by_cases hnil : withoutSecurity pairs instrument = []
    · simp [hnil]
    · have hne : ((withoutSecurity pairs instrument).length : Int) ≠ 0 := by simpa using hnil
      rw [if_neg hne, if_neg hnil, Int.cast_natCast]

/-- Against a reference that is no control the rank correlations are those of the
other pairs. -/
theorem sensitivityOf_rank (h : reference ∉ controls) (instrument : Nat) :
    RankRecomputed (sensitivityOf reference sessions pairs instrument)
      (figuresOf reference sessions instruments (withoutSecurity pairs instrument)) := by
  unfold RankRecomputed sensitivityOf figuresOf signsOf
  rw [if_neg h]
  exact ⟨rfl, rfl⟩

theorem sensitivityOf_control (h : reference ∈ controls) (instrument : Nat) :
    (sensitivityOf reference sessions pairs instrument).remainingMeanDailyRankIcDelta = none
      ∧ (sensitivityOf reference sessions pairs instrument).remainingEstimableIcDays = 0 := by
  unfold sensitivityOf
  rw [if_pos h]
  exact ⟨rfl, rfl⟩

theorem dayDeltas_constant
    (h : ∀ p ∈ pairs, ∀ q ∈ pairs, p.session = q.session → p.baseline = q.baseline) :
    dayDeltas sessions pairs = [] := by
  have hnone : ∀ session : FoldSession, dayDelta (dailyPairs pairs session.day) = none := by
    intro session
    have hconstant : icOf (·.baseline) (dailyPairs pairs session.day) = none := by
      apply icOf_constant
      intro p hp q hq
      obtain ⟨hp, hpday⟩ := mem_filter.mp hp
      obtain ⟨hq, hqday⟩ := mem_filter.mp hq
      exact h p hp q hq ((of_decide_eq_true hpday).trans (of_decide_eq_true hqday).symm)
    unfold dayDelta
    rw [hconstant]
    cases icOf (·.model) (dailyPairs pairs session.day) <;> rfl
  unfold dayDeltas
  simp only [hnone]
  induction sessions with
  | nil => rfl
  | cons session sessions ih => exact ih

theorem sensitivityOf_constant (hreference : reference ∈ controls)
    (h : ∀ p ∈ pairs, ∀ q ∈ pairs, p.session = q.session → p.baseline = q.baseline)
    (instrument : Nat) :
    RankRecomputed (sensitivityOf reference sessions pairs instrument)
      (figuresOf reference sessions instruments (withoutSecurity pairs instrument)) := by
  have hwithout : dayDeltas sessions (withoutSecurity pairs instrument) = [] :=
    dayDeltas_constant fun p hp q hq =>
      h p (mem_of_mem_filter hp) q (mem_of_mem_filter hq)
  unfold RankRecomputed
  obtain ⟨hmean, hdays⟩ := @sensitivityOf_control reference sessions pairs hreference instrument
  rw [hmean, hdays]
  unfold figuresOf signsOf
  rw [hwithout]
  exact ⟨rfl, rfl⟩

end Figures

end MarketRegimeAlpha.ResearchQualification
