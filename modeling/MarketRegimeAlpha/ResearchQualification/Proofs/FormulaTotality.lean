/-
What keeps a version 1 formula from answering.

# The two gates

Two minimums keep the formulas from dividing by a count that is zero, and
both are parameters of the formula: `minimum_observations` keeps the empty
list from the means, and `minimum_pairs_per_group` keeps a group without
a complete pair from the rank correlation. A minimum of one or more
closes its gate; `DividesByZero` says which formulas go wrong when one is
open. Every root is of a number that is not negative, whatever the
context rounds.
-/
import MarketRegimeAlpha.ResearchQualification.Proofs.FormulaAnswers

namespace MarketRegimeAlpha.ResearchQualification.EvaluationFormula

open Lib List

-- ==== the formulas

section Formulas

variable {A : Arithmetic ℚ} (hA : A.Lawful) {formula : EvaluationFormulaDefinition}
  {observations : List FormulaObservation}

theorem rosterRate_answered : Answered (rosterRate A formula observations) := by
  apply answered_bind.mpr
  refine ⟨integerParameter_answered, fun expected _ => ?_⟩
  by_cases hpos : expected ≤ 0
  · rw [if_pos hpos]
    exact answered_pure _
  · rw [if_neg hpos]
    apply answered_bind.mpr
    refine ⟨answered_require _, fun _ _ => ?_⟩
    split
    next => exact answered_pure _
    next =>
      apply answered_statistic _ fun _ => answered_pure _
      apply Arithmetic.exists_quotient.mpr
      rw [Int.cast_ne_zero]
      omega

include hA

/-- One group has a correlation, or none, unless it is correlated without a
pair. -/
theorem exists_groupCorrelation (minimum : Int) (found : List ℚ × Nat)
    (members : List FormulaObservation) :
    (∃ found', groupCorrelation A minimum found members = .ok found')
      ↔ ¬ (minimum ≤ 0 ∧ pairs members = []) := by
  unfold groupCorrelation
  by_cases hfew : ((pairs members).length : Int) < minimum
  · rw [if_pos hfew]
    refine iff_of_true ⟨found, rfl⟩ ?_
    omega
  · rw [if_neg hfew]
    by_cases hne : pairs members = []
    · have hzero : minimum ≤ 0 := by
        rw [hne] at hfew
        exact not_lt.mp hfew
      obtain ⟨signal, hsignal⟩ := spearman_nil A
      rw [hne, hsignal]
      exact iff_of_false nofun (not_not_intro ⟨hzero, rfl⟩)
    · obtain ⟨rho, hrho⟩ := (exists_spearman hA).mpr hne
      rw [hrho, ok_bind]
      refine iff_of_true ?_ fun h => hne h.2
      cases rho with
      | none => exact ⟨_, rfl⟩
      | some rho => exact ⟨_, rfl⟩

theorem rankCorrelations_answered : Answered (rankCorrelations A formula observations)
      ↔ ¬ (Lowered formula "minimum_pairs_per_group" ∧ Pairless observations) := by
  have hloop := fun minimum : Int => exists_foldlM (l := groups observations)
    (fun members _ found => exists_groupCorrelation hA minimum found members)
    ([], 0)
  unfold rankCorrelations
  rw [answered_bind, and_iff_right optionalIntegerParameter_answered,
    pairless_iff, ← exists_minimum_iff (by norm_num : (0 : Int) < 2)]
  constructor
  · rintro h ⟨⟨minimum, hzero, hminimum⟩, members, hmembers, hnone⟩
    have hall := (hloop minimum).mp (answered_signalled.mp (h minimum hminimum))
    exact hall members hmembers ⟨hzero, hnone⟩
  · intro h minimum hminimum
    apply answered_signalled.mpr ((hloop minimum).mpr _)
    intro members hmembers hbad
    exact h ⟨⟨minimum, hbad.1, hminimum⟩, members, hmembers, hbad.2⟩

theorem rankIc_answered : Answered (rankIc A formula observations)
    ↔ ¬ (Lowered formula "minimum_pairs_per_group" ∧ Pairless observations) := by
  unfold rankIc
  rw [answered_bind, ← rankCorrelations_answered hA]
  apply and_iff_left
  rintro ⟨correlations, pairCount⟩ -
  dsimp only
  split
  next => exact answered_pure _
  next hne => exact answered_statistic (exists_mean.mpr hne) fun _ => answered_pure _

theorem icSummary_answered : Answered (icSummary A formula observations)
    ↔ ¬ (Lowered formula "minimum_pairs_per_group"
      ∧ Pairless (observations.filter (·.sourceState = .available))) := by
  unfold icSummary
  rw [answered_bind, ← rankCorrelations_answered hA]
  apply and_iff_left
  rintro ⟨values, count⟩ -
  dsimp only
  split
  next => exact answered_pure _
  next hne =>
    apply answered_bind.mpr
    refine ⟨optionalIntegerParameter_answered, fun minimum _ => ?_⟩
    have hmean := (exists_mean (A := A)).mpr hne
    split
    next => exact answered_pure _
    next =>
      split
      next => exact answered_statistic hmean fun _ => answered_pure _
      next =>
        apply answered_statistic (exists_sampleStd hA values)
        intro deviation
        cases deviation with
        | none => exact answered_pure _
        | some deviation =>
          dsimp only
          split
          next => exact answered_pure _
          next =>
            split
            next => exact answered_pure _
            next hzero =>
              apply answered_statistic hmean
              intro average
              apply answered_statistic _ fun _ => answered_pure _
              exact Arithmetic.exists_quotient.mpr hzero

theorem deviationFormula_answered : Answered (deviationFormula A observations) := by
  apply answered_statistic (exists_sampleStd hA _)
  intro deviation
  cases deviation with
  | none => exact answered_pure _
  | some deviation => exact answered_pure _

omit hA in
theorem standardized_answered {values : List ℚ} {deviation : ℚ}
    {f : ℚ → Except FormulaError FormulaEvaluationResult}
    (hdeviation : sampleStd A values = .ok (some deviation))
    (hzero : deviation ≠ 0) (hf : ∀ x, Answered (f x)) :
    Answered (do
      let average ← signalled (mean A values)
      let ratio ← signalled (A.quotient average deviation)
      f ratio) := by
  have hne : values ≠ [] := by
    rintro rfl
    cases hdeviation
  apply answered_statistic (exists_mean.mpr hne)
  intro average
  exact answered_statistic (Arithmetic.exists_quotient.mpr hzero) hf

theorem icirFormula_answered : Answered (icirFormula A observations) := by
  unfold icirFormula
  apply answered_bind.mpr
  refine ⟨answered_signalled.mpr (exists_sampleStd hA _), ?_⟩
  intro deviation hdeviation
  cases deviation with
  | none => exact answered_pure _
  | some deviation =>
    dsimp only
    split
    next => exact answered_pure _
    next hzero =>
      exact standardized_answered (signalled_ok.mp hdeviation) hzero fun _ => answered_pure _

omit hA in
/-- A group of a ranking has a return, or none, when its members are to be
at least one. -/
theorem exists_groupReturn {width : Int} (hwidth : 1 ≤ width)
    (found : List ℚ × Nat) (members : List FormulaObservation) :
    ∃ found', groupReturn A formula width found members = .ok found' := by
  have hmean : ∀ values : List ℚ, (values.length : Int) = width → ∃ m, mean A values = .ok m := by
    intro values hlength
    apply exists_mean.mpr
    rintro rfl
    rw [length_nil] at hlength
    omega
  unfold groupReturn
  dsimp only
  split
  next => exact ⟨_, rfl⟩
  next htop =>
    obtain ⟨topMean, htopMean⟩ := hmean _ (not_not.mp htop)
    split
    next =>
      rw [htopMean]
      exact ⟨_, rfl⟩
    next =>
      split
      next hbottom =>
        obtain ⟨bottomMean, hbottomMean⟩ := hmean _ hbottom
        rw [htopMean, ok_bind, hbottomMean]
        exact ⟨_, rfl⟩
      next => exact ⟨_, rfl⟩

omit hA in
theorem rankedReturn_answered : Answered (rankedReturn A formula observations) := by
  unfold rankedReturn
  apply answered_bind.mpr
  refine ⟨integerParameter_answered, fun width _ => ?_⟩
  apply answered_bind.mpr
  refine ⟨answered_require _, fun _ hwidth => ?_⟩
  rw [require_ok] at hwidth
  split
  next => exact answered_pure _
  next =>
    apply answered_statistic
    · have hgroup : ∀ members ∈ groups observations, ∀ found,
          (∃ found', groupReturn A formula width found members = .ok found')
            ↔ True := fun members _ found =>
        iff_true_intro (exists_groupReturn hwidth found members)
      exact (exists_foldlM hgroup ([], 0)).mpr fun _ _ => trivial
    · rintro ⟨results, count⟩
      dsimp only
      split
      next => exact answered_pure _
      next hne => exact answered_statistic (exists_mean.mpr hne) fun _ => answered_pure _

theorem predictive_answered : Answered (predictive A formula observations) := by
  unfold predictive
  dsimp only
  split
  next => exact answered_pure _
  next hne =>
    apply answered_statistic _ fun _ => answered_pure _
    split
    next => exact exists_mean.mpr (by simpa using hne)
    next => exact exists_mean.mpr (by simpa using hne)
    next =>
      have hsquares : 0 ≤ A.sum (((pairs observations).map fun pair =>
          A.round (pair.1 - pair.2)).map fun item => A.round (item * item)) := by
        apply hA.sum_nonneg
        rw [forall_mem_map]
        exact fun item _ => hA.round_nonneg (mul_self_nonneg item)
      have hlength : (((pairs observations).map fun pair =>
          A.round (pair.1 - pair.2)).map fun item =>
            A.round (item * item)).length ≠ 0 := by
        simpa using hne
      have hcount : (0 : ℚ) < ((((pairs observations).map fun pair =>
          A.round (pair.1 - pair.2)).map fun item =>
            A.round (item * item)).length : ℚ) := by
        exact_mod_cast Nat.pos_of_ne_zero hlength
      unfold mean
      rw [Arithmetic.quotient_ok hcount.ne', ok_bind, Arithmetic.sqrt_ok
        (hA.round_nonneg (div_nonneg hsquares hcount.le))]
      exact ⟨_, rfl⟩

omit hA in
theorem hitRate_answered : Answered (hitRate A observations) := by
  unfold hitRate
  dsimp only
  split
  next => exact answered_pure _
  next hne =>
    apply answered_statistic _ fun _ => answered_pure _
    apply Arithmetic.exists_quotient.mpr
    rw [Nat.cast_ne_zero]
    exact (length_pos_iff.mpr hne).ne'

omit hA in
theorem selectedRatio_answered : Answered (selectedRatio A observations) := by
  unfold selectedRatio
  dsimp only
  split
  next => exact answered_pure _
  next hne =>
    apply answered_statistic _ fun _ => answered_pure _
    apply Arithmetic.exists_quotient.mpr
    rw [Nat.cast_ne_zero]
    exact (length_pos_iff.mpr hne).ne'

end Formulas

-- ==== divided by a count

section Counts

variable (formula : EvaluationFormulaDefinition)

def ReadsTurnover : Prop :=
  (∃ b, HasParameter formula "initial_cash" (.boolean b))
    ∧ (∃ b, HasParameter formula "final_liquidation" (.boolean b))
    ∧ (∃ t, HasParameter formula "carry_forward" (.text t))
    ∧ ∃ t, HasParameter formula "corporate_action_convention" (.text t)

def ReadsCosts : Prop :=
  (∃ x, HasParameter formula "commission_bps" (.decimal x))
    ∧ (∃ x, HasParameter formula "slippage_bps" (.decimal x))
    ∧ ∃ x, HasParameter formula "stamp_duty_bps" (.decimal x)

def ReadsAnnualization : Prop :=
  ∃ n : Int, 0 < n ∧ HasParameter formula "annualization_sessions" (.integer n)

/-- The economic formulas that divide by the number of the groups, having
read their parameters. -/
def EconomicsDivides : Prop :=
  match formula.formulaCode with
  | .winRate => True
  | .annualizedReturn | .calmar => ReadsAnnualization formula
  | .sortino => ReadsAnnualization formula
      ∧ ∃ x, HasParameter formula "mar_per_session" (.decimal x)
  | _ => False

/-- The formulas that divide by the number of the observations or of their
groups, having read their parameters. -/
def DividesByCount : Prop :=
  match formula.formulaCode with
  | .mean | .mfeMean | .maxAdverseExcursionMean => True
  | .grossExposure | .netExposure => True
  | .turnover => ReadsTurnover formula
  | .netReturnAssumedCost => ReadsCosts formula
  | _ => EconomicsDivides formula

variable {formula} {A : Arithmetic ℚ} {observations : List FormulaObservation} {n : Int}

theorem meanFormula_answered :
    Answered (meanFormula A observations) ↔ values observations ≠ [] := by
  unfold meanFormula
  rw [answered_bind, answered_signalled, exists_mean]
  exact and_iff_left fun _ _ => answered_pure _

theorem portfolioFormula_answered :
    Answered (portfolioFormula A formula observations) ↔ ¬ (observations = []
      ∧ (formula.formulaCode = .turnover → ReadsTurnover formula)) := by
  -- after the parameters, only the mean of the groups is left
  have hmean : Answered (do
      let value ← signalled (mean A ((groups observations).map (groupExposure A formula)))
      return estimated value ((groups observations).map (·.length)).sum) ↔ observations ≠ [] := by
    rw [answered_bind, answered_signalled, exists_mean, Ne, map_eq_nil_iff, groups_eq_nil]
    exact and_iff_left fun _ _ => answered_pure _
  have hrest : Answered (if formula.formulaCode = .turnover
        ∧ ∃ o ∈ observations, o.secondaryValue = none then
      return notEstimable "INCOMPLETE_PREVIOUS_WEIGHT_ROSTER" 0
    else do
      let value ← signalled (mean A ((groups observations).map (groupExposure A formula)))
      return estimated value ((groups observations).map (·.length)).sum) ↔ observations ≠ [] := by
    split
    next hincomplete =>
      obtain ⟨-, o, ho, -⟩ := hincomplete
      exact iff_of_true (answered_pure _) (ne_nil_of_mem ho)
    next => exact hmean
  unfold portfolioFormula
  by_cases hturnover : formula.formulaCode = .turnover
  · rw [if_pos hturnover]
    simp only [answered_bind, booleanParameter_answered, true_and,
      textParameter_answered, booleanParameter_ok, textParameter_ok]
    simp only [hrest]
    constructor
    · rintro h ⟨hnil, hreads⟩
      obtain ⟨⟨a, ha⟩, ⟨b, hb⟩, ⟨c, hc⟩, d, hd⟩ := hreads hturnover
      exact h a ha b hb c hc d hd hnil
    · intro h a ha b hb c hc d hd hnil
      exact h ⟨hnil, fun _ => ⟨⟨a, ha⟩, ⟨b, hb⟩, ⟨c, hc⟩, d, hd⟩⟩
  · rw [if_neg hturnover, hrest]
    constructor
    · exact fun hne h => hne h.1
    · exact fun h hnil => h ⟨hnil, fun hturnover' => absurd hturnover' hturnover⟩

theorem netAssumedCost_answered : Answered (netAssumedCost A formula observations)
      ↔ ¬ (observations = [] ∧ ReadsCosts formula) := by
  unfold netAssumedCost ReadsCosts
  simp only [answered_bind, decimalParameter_answered, true_and, decimalParameter_ok]
  constructor
  · rintro h ⟨rfl, ⟨a, ha⟩, ⟨b, hb⟩, c, hc⟩
    have hvalue := h a ha b hb c hc
    rw [if_neg (by decide), answered_bind, answered_signalled, exists_mean] at hvalue
    exact hvalue.1 rfl
  · intro h a ha b hb c hc
    split
    next => exact answered_pure _
    next =>
      apply answered_statistic _ fun _ => answered_pure _
      apply exists_mean.mpr
      rw [Ne, map_eq_nil_iff, groups_eq_nil]
      exact fun hnil => h ⟨hnil, ⟨a, ha⟩, ⟨b, hb⟩, c, hc⟩

theorem annualizationSessions_ok : annualizationSessions formula = .ok n
      ↔ 0 < n ∧ HasParameter formula "annualization_sessions" (.integer n) := by
  unfold annualizationSessions
  simp only [bind_ok, require_ok, pure_ok, integerParameter_ok]
  constructor
  · rintro ⟨m, hhas, -, hpos, rfl⟩
    exact ⟨hpos, hhas⟩
  · rintro ⟨hpos, hhas⟩
    exact ⟨n, hhas, (), hpos, rfl⟩

@[simp] theorem annualizationSessions_answered : Answered (annualizationSessions formula) := by
  apply answered_bind.mpr
  refine ⟨integerParameter_answered, fun n _ => ?_⟩
  apply answered_bind.mpr
  exact ⟨answered_require _, fun _ _ => answered_pure _⟩

theorem exists_scale (h : annualizationSessions formula = .ok n) :
    ∃ scale, A.sqrt (n : ℚ) = .ok scale := by
  refine ⟨_, Arithmetic.sqrt_ok ?_⟩
  exact_mod_cast (annualizationSessions_ok.mp h).1.le

theorem periods_eq_nil : periods A observations = [] ↔ observations = [] := by
  unfold periods
  rw [map_eq_nil_iff, groups_eq_nil]
  have hperm := sortBy_perm (fun o : FormulaObservation => o.ordinal) observations
  constructor
  · intro h
    rw [h] at hperm
    exact hperm.nil_eq.symm
  · rintro rfl
    exact hperm.eq_nil

variable (hA : A.Lawful) {values : List ℚ}

include hA

theorem economicVolatility_answered : Answered (economicVolatility A formula values) := by
  apply answered_bind.mpr
  refine ⟨annualizationSessions_answered, fun n hn => ?_⟩
  apply answered_statistic (exists_sampleStd hA _)
  intro deviation
  cases deviation with
  | none => exact answered_pure _
  | some deviation => exact answered_statistic (exists_scale hn) fun _ => answered_pure _

theorem economicSharpe_answered : Answered (economicSharpe A formula values) := by
  apply answered_bind.mpr
  refine ⟨annualizationSessions_answered, fun n hn => ?_⟩
  apply answered_bind.mpr
  refine ⟨decimalParameter_answered, fun riskFree _ => ?_⟩
  apply answered_bind.mpr
  refine ⟨answered_signalled.mpr (exists_sampleStd hA _), ?_⟩
  intro deviation hdeviation
  cases deviation with
  | none => exact answered_pure _
  | some deviation =>
    dsimp only
    split
    next => exact answered_pure _
    next hzero =>
      apply standardized_answered (signalled_ok.mp hdeviation) hzero
      intro ratio
      exact answered_statistic (exists_scale hn) fun _ => answered_pure _

theorem economicSortino_answered : Answered (economicSortino A formula values)
      ↔ ¬ (values = [] ∧ ReadsAnnualization formula
        ∧ ∃ x, HasParameter formula "mar_per_session" (.decimal x)) := by
  unfold economicSortino ReadsAnnualization
  simp only [answered_bind (x := annualizationSessions formula),
    annualizationSessions_answered, true_and, annualizationSessions_ok,
    answered_bind (x := decimalParameter formula _), decimalParameter_answered,
    decimalParameter_ok]
  constructor
  · rintro h ⟨rfl, ⟨n, hn⟩, x, hx⟩
    have hvalue := (answered_bind.mp (h n hn x hx)).1
    rw [answered_signalled, Arithmetic.exists_quotient] at hvalue
    exact hvalue rfl
  · intro h n hn x hx
    have hscale := exists_scale (A := A) (annualizationSessions_ok.mpr hn)
    have hne : values ≠ [] := fun hnil => h ⟨hnil, ⟨n, hn⟩, x, hx⟩
    generalize hexcess : values.map (fun item => A.round (item - x)) = excess
    have hexcess : excess ≠ [] := by
      rw [← hexcess]
      simpa using hne
    have hcount : (0 : ℚ) < (excess.length : ℚ) := by exact_mod_cast length_pos_iff.mpr hexcess
    have hsquares : 0 ≤ A.sum (excess.map fun item => A.square (min 0 item)) := by
      apply hA.sum_nonneg
      rw [forall_mem_map]
      exact fun item _ => hA.square_nonneg _
    rw [Arithmetic.quotient_ok hcount.ne']
    show Answered (signalled (A.sqrt _) >>= _)
    rw [Arithmetic.sqrt_ok (hA.round_nonneg (div_nonneg hsquares hcount.le))]
    apply answered_statistic ⟨_, rfl⟩
    intro downside
    split
    next => exact answered_pure _
    next hzero =>
      apply answered_statistic (exists_mean.mpr hexcess)
      intro average
      apply answered_statistic (Arithmetic.exists_quotient.mpr hzero)
      intro ratio
      exact answered_statistic hscale fun _ => answered_pure _

theorem annualized_answered {f : Option ℚ → Except FormulaError FormulaEvaluationResult}
    (hf : ∀ r, Answered (f r)) :
    Answered (do
      let annualization ← annualizationSessions formula
      let annualized ← signalled (annualizedReturn A values annualization)
      f annualized) ↔ ¬ (values = [] ∧ ReadsAnnualization formula) := by
  simp only [answered_bind, annualizationSessions_answered, true_and,
    annualizationSessions_ok, answered_signalled, exists_annualizedReturn hA, hf,
    implies_true, and_true]
  constructor
  · rintro h ⟨hnil, n, hn⟩
    exact h n hn hnil
  · exact fun h n hn hnil => h ⟨hnil, n, hn⟩

theorem economicCalmar_answered : Answered (economicCalmar A formula values)
      ↔ ¬ (values = [] ∧ ReadsAnnualization formula) := by
  apply annualized_answered hA
  intro annualized
  cases annualized with
  | none => exact answered_pure _
  | some annualized =>
    dsimp only
    split
    next => exact answered_pure _
    next hzero =>
      apply answered_statistic _ fun _ => answered_pure _
      apply Arithmetic.exists_quotient.mpr
      exact hA.round_ne_zero (abs_ne_zero.mpr hzero)

theorem economics_answered : Answered (economics A formula observations)
    ↔ ¬ (observations = [] ∧ EconomicsDivides formula) := by
  unfold economics EconomicsDivides
  rw [← periods_eq_nil (A := A)]
  cases formula.formulaCode with
  | cumulativeReturn => simp
  | maxDrawdown => simp
  | volatility => simpa using economicVolatility_answered hA
  | sharpe => simpa using economicSharpe_answered hA
  | sortino => exact economicSortino_answered hA
  | calmar => exact economicCalmar_answered hA
  | annualizedReturn =>
    apply annualized_answered hA
    intro annualized
    cases annualized with
    | none => exact answered_pure _
    | some annualized => exact answered_pure _
  | winRate =>
    rw [answered_bind, answered_signalled, Arithmetic.exists_quotient,
      Nat.cast_ne_zero, Ne, length_eq_zero_iff, and_true]
    exact and_iff_left fun _ _ => answered_pure _
  | _ => simp [answered_bind]

end Counts

-- ==== the gates

section Gates

variable (formula : EvaluationFormulaDefinition)

def Reached (count : Nat) : Prop :=
  ∀ v, HasParameter formula "minimum_observations" v → ∃ n : Int, n ≤ count ∧ v = .integer n

/-- Formulas and observations that are evaluated through an open gate. -/
def DividesByZero (observations : List FormulaObservation) : Prop :=
  (HasParameter formula "input_series" (.text "group_rank_ic")
    ∧ formula.formulaCode ∈ [.mean, .sampleStddev, .icir]
    ∧ Lowered formula "minimum_pairs_per_group"
    ∧ Pairless (observations.filter (·.sourceState = .available)))
  ∨ ((∀ v, ¬ HasParameter formula "input_series" v) ∧ ((formula.formulaCode = .rankIc
        ∧ Reached formula (available observations).length
        ∧ Lowered formula "minimum_pairs_per_group"
        ∧ Pairless (available observations))
      ∨ (DividesByCount formula ∧ Lowered formula "minimum_observations"
        ∧ available observations = [])))

variable {formula} {A : Arithmetic ℚ} {observations : List FormulaObservation}

theorem reached_iff {count : Nat} (h : 0 < count) : Reached formula count ↔ ∃ n : Int, n ≤ count
      ∧ optionalIntegerParameter formula "minimum_observations" 1 = .ok n := by
  simp only [optionalIntegerParameter_ok]
  constructor
  · intro hreached
    by_cases habsent : ∀ v, ¬ HasParameter formula "minimum_observations" v
    · exact ⟨1, by omega, .inr ⟨habsent, rfl⟩⟩
    · simp only [not_forall, not_not] at habsent
      obtain ⟨v, hv⟩ := habsent
      obtain ⟨n, hn, rfl⟩ := hreached v hv
      exact ⟨n, hn, .inl hv⟩
  · rintro ⟨n, hn, hhas | ⟨habsent, -⟩⟩ v hv
    · exact ⟨n, hn, hv.unique hhas⟩
    · exact absurd hv (habsent v)

theorem values_available : values (available observations) = [] ↔ available observations = [] := by
  unfold values
  rw [filterMap_eq_nil_iff, eq_nil_iff_forall_not_mem]
  apply forall_congr'
  intro o
  constructor
  · intro hnone ho
    have hsome := (mem_filter.mp ho).2
    rw [Bool.and_eq_true, hnone ho] at hsome
    cases hsome.2
  · exact fun h ho => absurd ho h

def chosenFormula (A : Arithmetic ℚ) (formula : EvaluationFormulaDefinition)
    (observations : List FormulaObservation) :
    Except FormulaError FormulaEvaluationResult :=
  let available := available observations
  match formula.formulaCode with
  | .mean | .mfeMean | .maxAdverseExcursionMean => meanFormula A available
  | .sampleStddev => deviationFormula A available
  | .icir => icirFormula A available
  | .rankIc => rankIc A formula available
  | .topKReturn | .topBottomSpread => rankedReturn A formula available
  | .hitRate => hitRate A available
  | .selectedRatio => selectedRatio A observations
  | .predictiveBias | .predictiveMae | .predictiveRmse => predictive A formula available
  | .grossExposure | .netExposure | .turnover => portfolioFormula A formula available
  | .netReturnAssumedCost => netAssumedCost A formula available
  | _ => economics A formula available

variable (hA : A.Lawful)

include hA

theorem chosenFormula_answered : Answered (chosenFormula A formula observations)
      ↔ ¬ ((formula.formulaCode = .rankIc ∧ Lowered formula "minimum_pairs_per_group"
          ∧ Pairless (available observations))
        ∨ (DividesByCount formula ∧ available observations = [])) := by
  have hmean : Answered (meanFormula A (available observations))
      ↔ values (available observations) ≠ [] := meanFormula_answered
  rw [Ne, values_available] at hmean
  have hportfolio : Answered (portfolioFormula A formula (available observations))
        ↔ ¬ (available observations = []
          ∧ (formula.formulaCode = .turnover → ReadsTurnover formula)) :=
    portfolioFormula_answered
  have heconomics : Answered (economics A formula (available observations))
      ↔ ¬ (available observations = [] ∧ EconomicsDivides formula) :=
    economics_answered hA
  unfold chosenFormula DividesByCount EconomicsDivides at *
  cases hcode : formula.formulaCode with
  | mean => simpa using hmean
  | mfeMean => simpa using hmean
  | maxAdverseExcursionMean => simpa using hmean
  | sampleStddev => simpa using deviationFormula_answered hA
  | icir => simpa using icirFormula_answered hA
  | rankIc => simpa using rankIc_answered hA
  | topKReturn => simpa using rankedReturn_answered
  | topBottomSpread => simpa using rankedReturn_answered
  | hitRate => simpa using hitRate_answered
  | selectedRatio => simpa using selectedRatio_answered
  | predictiveBias => simpa using predictive_answered hA
  | predictiveMae => simpa using predictive_answered hA
  | predictiveRmse => simpa using predictive_answered hA
  | grossExposure => simpa [hcode] using hportfolio
  | netExposure => simpa [hcode] using hportfolio
  | turnover => simpa [hcode, and_comm] using hportfolio
  | netReturnAssumedCost =>
    have hcost : Answered (netAssumedCost A formula (available observations))
        ↔ ¬ (available observations = [] ∧ ReadsCosts formula) :=
      netAssumedCost_answered
    simpa [and_comm] using hcost
  | _ =>
    rw [hcode] at heconomics
    simpa [and_comm] using heconomics

theorem evaluateAvailable_answered : Answered (evaluateAvailable A formula observations)
      ↔ ¬ ((formula.formulaCode = .rankIc ∧ Reached formula (available observations).length
          ∧ Lowered formula "minimum_pairs_per_group"
          ∧ Pairless (available observations))
        ∨ (DividesByCount formula ∧ Lowered formula "minimum_observations"
          ∧ available observations = [])) := by
  have hsplit : evaluateAvailable A formula observations = (do
      let minimum ← optionalIntegerParameter formula "minimum_observations" 1
      if ((available observations).length : Int) < minimum then
        return notEstimable "INSUFFICIENT_OBSERVATIONS" (available observations).length
      else chosenFormula A formula observations) := rfl
  -- the formula is reached when the minimum is met
  have hgate : Answered (evaluateAvailable A formula observations)
      ↔ ∀ n : Int, n ≤ (available observations).length →
        optionalIntegerParameter formula "minimum_observations" 1 = .ok n →
          Answered (chosenFormula A formula observations) := by
    rw [hsplit, answered_bind, and_iff_right optionalIntegerParameter_answered]
    apply forall_congr'
    intro n
    constructor
    · intro h hn hok
      have hvalue := h hok
      rwa [if_neg (not_lt.mpr hn)] at hvalue
    · intro h hok
      split
      next => exact answered_pure _
      next hn => exact h (not_lt.mp hn) hok
  rw [hgate, chosenFormula_answered hA]
  constructor
  · rintro h (⟨hcode, hreached, hlow, hpairless⟩ | ⟨hcount, hlow, hnil⟩)
    · obtain ⟨n, hn, hok⟩ := (reached_iff (length_pos_iff.mpr hpairless.ne_nil)).mp hreached
      exact h n hn hok (.inl ⟨hcode, hlow, hpairless⟩)
    · obtain ⟨n, hn, hok⟩ := (exists_minimum_iff one_pos).mpr hlow
      refine h n ?_ hok (.inr ⟨hcount, hnil⟩)
      rw [hnil]
      exact hn
  · rintro h n hn hok (⟨hcode, hlow, hpairless⟩ | ⟨hcount, hnil⟩)
    · exact h (.inl ⟨hcode, (reached_iff
        (length_pos_iff.mpr hpairless.ne_nil)).mpr ⟨n, hn, hok⟩,
        hlow, hpairless⟩)
    · rw [hnil] at hn
      exact h (.inr ⟨hcount, (exists_minimum_iff one_pos).mp ⟨n, hn, hok⟩, hnil⟩)

/-- An evaluation answers unless it passes an open gate. -/
theorem evaluateV1_answered : Answered (evaluateV1 A formula observations)
    ↔ ¬ DividesByZero formula observations := by
  unfold evaluateV1 DividesByZero
  cases hseries : formula.parameters.find? (·.parameterCode = "input_series") with
  | some inputSeries =>
    have hin := mem_of_find?_eq_some hseries
    have hfound := find?_some hseries
    have hcode : inputSeries.parameterCode = "input_series" := of_decide_eq_true hfound
    have hhas : ∀ v, HasParameter formula "input_series" v ↔ inputSeries.value = v := by
      intro v
      constructor
      · exact fun hv => HasParameter.unique ⟨_, hin, hcode, rfl⟩ hv
      · rintro rfl
        exact ⟨_, hin, hcode, rfl⟩
    rw [answered_bind, and_iff_right (answered_require _),
      or_iff_left fun h => h.1 _ ((hhas _).mpr rfl), hhas,
      icSummary_answered hA]
    simp only [require_ok]
    constructor
    · exact fun h hbad => h () ⟨hbad.1, hbad.2.1⟩ hbad.2.2
    · exact fun h _ hgiven hbad => h ⟨hgiven.1, hgiven.2, hbad⟩
  | none =>
    have habsent : ∀ v, ¬ HasParameter formula "input_series" v := by
      rintro v ⟨item, hitem, hcode, -⟩
      have h := find?_eq_none.mp hseries item hitem
      exact h (decide_eq_true hcode)
    have havailable : Answered (evaluateAvailable A formula observations)
        ↔ _ := evaluateAvailable_answered hA
    rw [or_iff_right fun h => habsent _ h.1, and_iff_right habsent]
    -- a rate over the roster passes no gate
    unfold DividesByCount EconomicsDivides at *
    cases hcode : formula.formulaCode with
    | coverageRate => simpa using rosterRate_answered
    | missingnessRate => simpa using rosterRate_answered
    | sourceGapRate => simpa using rosterRate_answered
    | unavailableRate => simpa using rosterRate_answered
    | _ =>
      rw [hcode] at havailable
      exact havailable

end Gates

-- ==== the evaluation

def unguardedMean : EvaluationFormulaDefinition where
  formulaCode := .mean
  formulaVersion := 1
  decimalPrecision := 28
  roundingMode := .roundHalfEven
  parameters := [
    { ordinal := 1
      parameterCode := "minimum_observations"
      value := .integer 0
      ordinal_positive := Int.one_pos
      code_valid := by decide
      text_nonempty := by decide }]
  surface := .signalForecast
  version_positive := Int.one_pos
  precision_bounds := by decide
  ordinals_contiguous := by decide
  codes_unique := by decide

def missingObservation : FormulaObservation where
  observationId := 1
  ordinal := 1
  groupKey := "2024-01-02"
  sourceState := .missing
  value := none
  secondaryValue := none
  rankingMembership := .none
  decisionTime := none
  outcomeKnownAt := none
  buyTurnover := none
  sellTurnover := none
  ordinal_positive := Int.one_pos
  group_named := by decide
  times_together := rfl
  buy_nonneg := by simp
  sell_nonneg := by simp

end MarketRegimeAlpha.ResearchQualification.EvaluationFormula
