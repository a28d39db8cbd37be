/-
Two laws of the factors in exact arithmetic.

# The scale of a price

A factor of adjusted prices is made of quotients of two closes of one
instrument, so multiplying all of them by a positive number leaves its cell as
it was: the value, the reason and the dependencies (`factorCell_scaled`).
-/
import MarketRegimeAlpha.Lib.Averages
import MarketRegimeAlpha.ResearchQualification.Proofs.FactorValues

namespace MarketRegimeAlpha.ResearchQualification.HistoricalFeatures

open Lib List

-- ==== adjusted prices

/-- A positive number. -/
abbrev Scale := {c : ℝ // 0 < c}

/-- The point with its adjusted close multiplied. -/
noncomputable def scaledPoint (c : Scale) (point : HistoricalDailyPoint ℝ) :
    HistoricalDailyPoint ℝ :=
  { point with
    adjustedClose := point.adjustedClose.map (c.1 * ·)
    priced := by
      refine ⟨point.priced.1, point.priced.2.1, fun value hvalue => ?_⟩
      obtain ⟨close, hclose, rfl⟩ := Option.mem_map.mp hvalue
      exact mul_pos c.2 (point.priced.2.2 close hclose) }

/-- The instrument with its adjusted closes multiplied. -/
noncomputable def scaledMember (c : Nat → Scale) (member : Nat × List (HistoricalDailyPoint ℝ)) :
    Nat × List (HistoricalDailyPoint ℝ) :=
  (member.1, member.2.map (scaledPoint (c member.1)))

/-- The population with the adjusted closes of each instrument multiplied. -/
noncomputable def scaled (c : Nat → Scale) (population : Population ℝ) :
    Population ℝ :=
  population.map (scaledMember c)

def adjustedCells {K : Type _} (features : Features K) : Features K :=
  features.map fun member => (member.1, member.2.filter fun cell =>
    cell.1 ∈ (factors.filter fun factor => factor.basis = "BACKWARD_ADJUSTED").map (·.name))

section Scaling

variable (quantize : ℝ → ℝ) (c : Scale) (window : List ℝ)

theorem returnValue_scaled : returnValue (exactFactors quantize) (window.map (c.1 * ·))
      = returnValue (exactFactors quantize) window := by
  have hlast : (window.map (c.1 * ·)).getLastD 0 = c.1 * window.getLastD 0 := by
    rw [getLastD_eq_getLast?, getLast?_map, getLastD_eq_getLast?]
    cases window.getLast? with
    | none => exact (mul_zero _).symm
    | some value => rfl
  have hhead : (window.map (c.1 * ·)).headD 0 = c.1 * window.headD 0 := by
    cases window with
    | nil => exact (mul_zero _).symm
    | cons value window => rfl
  unfold returnValue
  rw [hlast, hhead, mul_div_mul_left _ _ c.2.ne']

theorem dailyReturns_scaled : dailyReturns (exactFactors quantize) (window.map (c.1 * ·))
      = dailyReturns (exactFactors quantize) window := by
  unfold dailyReturns
  rw [← map_tail, zip_map, map_map]
  apply map_congr_left
  intro pair _
  show c.1 * pair.2 / (c.1 * pair.1) - 1 = pair.2 / pair.1 - 1
  rw [mul_div_mul_left _ _ c.2.ne']

theorem volatilityValue_scaled : volatilityValue (exactFactors quantize) (window.map (c.1 * ·))
      = volatilityValue (exactFactors quantize) window := by
  unfold volatilityValue
  rw [dailyReturns_scaled]

variable {factor : HistoricalFactor} (points : List (HistoricalDailyPoint ℝ))

/-- The value of an instrument's own factor of adjusted prices, and the reason if
there is none. -/
theorem ownValue_scaled (hname : factor.name ≠ "intraday")
    (hgroup : factor.group = .returns ∨ factor.group = .volatility) :
    ownValue (exactFactors quantize) factor (points.map (scaledPoint c))
      = ownValue (exactFactors quantize) factor points := by
  have hcloses : ((points.map (scaledPoint c)).rtake (factor.lookback + 1)).map
      (·.adjustedClose) = ((points.rtake (factor.lookback + 1)).map
        (·.adjustedClose)).map (Option.map (c.1 * ·)) := by
    rw [← map_rtake, map_map, map_map]
    rfl
  have hlength : ((points.map (scaledPoint c)).rtake (factor.lookback + 1)).length
      = (points.rtake (factor.lookback + 1)).length := by
    rw [length_rtake, length_rtake, length_map]
  have hvalue : (if factor.group = .returns then returnValue (exactFactors quantize)
      else volatilityValue (exactFactors quantize)) ∘ List.map (c.1 * ·)
        = if factor.group = .returns then returnValue (exactFactors quantize)
          else volatilityValue (exactFactors quantize) := by
    funext window
    by_cases hreturns : factor.group = .returns
    · rw [if_pos hreturns]
      exact returnValue_scaled quantize c window
    · rw [if_neg hreturns]
      exact volatilityValue_scaled quantize c window
  unfold ownValue
  dsimp only
  rw [hlength, if_neg hname, if_neg hname, if_pos hgroup, if_pos hgroup, hcloses,
    allPresent_map, Option.map_map, hvalue]

end Scaling

section ScaledCells

variable (quantize : ℝ → ℝ) (c : Nat → Scale) {factor : HistoricalFactor}
  (member : Nat × List (HistoricalDailyPoint ℝ)) (population : Population ℝ)

theorem ownCell_scaled (hname : factor.name ≠ "intraday")
    (hgroup : factor.group = .returns ∨ factor.group = .volatility) :
    ownCell (exactFactors quantize) factor (scaledMember c member)
      = ownCell (exactFactors quantize) factor member := by
  have hdates : ((scaledMember c member).2.rtake (factor.lookback + 1)).map
      (fun point => (member.1, point.sessionDate)) = (member.2.rtake (factor.lookback + 1)).map
          (fun point => (member.1, point.sessionDate)) := by
    rw [map_rtake, map_rtake]
    congr 1
    exact map_map
  have hvalue : ownValue (exactFactors quantize) factor (scaledMember c member).2
      = ownValue (exactFactors quantize) factor member.2 :=
    ownValue_scaled quantize (c member.1) member.2 hname hgroup
  unfold ownCell
  rw [hvalue]
  exact congrArg _ hdates

theorem unroundedReturn_scaled (n : Nat) :
    unroundedReturn (exactFactors quantize) n (scaledMember c member).2
      = unroundedReturn (exactFactors quantize) n member.2 := by
  have hvalue := ownValue_scaled quantize (c member.1) member.2 (returnFactor_name n) (.inl rfl)
  exact congrArg Prod.fst hvalue

theorem validReturns_scaled (n : Nat) : validReturns (exactFactors quantize) n (scaled c population)
      = validReturns (exactFactors quantize) n population := by
  unfold validReturns scaled
  rw [filterMap_map]
  apply filterMap_congr
  intro member _
  exact unroundedReturn_scaled quantize c member n

theorem peerDependencies_scaled (n : Nat) :
    peerDependencies (exactFactors quantize) n (scaled c population)
      = peerDependencies (exactFactors quantize) n population := by
  unfold peerDependencies scaled
  rw [flatMap_map]
  simp only [ownCell_scaled quantize c _ (returnFactor_name n) (.inl rfl)]

theorem relativeCell_scaled : relativeCell (exactFactors quantize) factor (scaled c population)
        (scaledMember c member)
      = relativeCell (exactFactors quantize) factor population member := by
  have hvalue : relativeValue (exactFactors quantize) factor (scaled c population)
      (scaledMember c member).2
        = relativeValue (exactFactors quantize) factor population member.2 := by
    unfold relativeValue
    dsimp only
    rw [validReturns_scaled, unroundedReturn_scaled]
  unfold relativeCell
  rw [hvalue, peerDependencies_scaled,
    ownCell_scaled quantize c member (returnFactor_name _) (.inl rfl)]

theorem factorCell_scaled (hfactor : factor ∈ factors)
    (hbasis : factor.basis = "BACKWARD_ADJUSTED") :
    factorCell (exactFactors quantize) (scaled c population) (scaledMember c member) factor
      = factorCell (exactFactors quantize) population member factor := by
  have hkinds : ∀ factor ∈ factors, factor.basis = "BACKWARD_ADJUSTED" →
      factor.group ≠ .relative → factor.name ≠ "intraday"
        ∧ (factor.group = .returns ∨ factor.group = .volatility) := by
    decide
  unfold factorCell
  by_cases hgroup : factor.group = .relative
  · rw [if_pos hgroup, if_pos hgroup]
    exact relativeCell_scaled quantize c member population
  · obtain ⟨hname, hown⟩ := hkinds factor hfactor hbasis hgroup
    rw [if_neg hgroup, if_neg hgroup]
    exact ownCell_scaled quantize c member hname hown

/-- So does no result: whatever the sessions, the computation fails alike or has
the same cells of adjusted prices. -/
theorem calculateHistoricalFeatures_scaled (sessions : List Int) :
    (calculateHistoricalFeatures (exactFactors quantize) sessions
        (scaled c population)).map adjustedCells
      = (calculateHistoricalFeatures (exactFactors quantize) sessions
          population).map adjustedCells := by
  have hdates : (∀ member ∈ scaled c population, member.2.map (·.sessionDate) = sessions)
        ↔ ∀ member ∈ population, member.2.map (·.sessionDate) = sessions := by
    unfold scaled
    rw [forall_mem_map]
    apply forall₂_congr
    intro member _
    show (member.2.map _).map _ = _ ↔ _
    rw [map_map]
    rfl
  have hnames : ∀ factor ∈ factors, factor.name ∈ (factors.filter fun factor =>
        factor.basis = "BACKWARD_ADJUSTED").map (·.name) →
      factor.basis = "BACKWARD_ADJUSTED" := by
    decide
  have hcells : adjustedCells ((scaled c population).map fun member =>
      (member.1, featuresOf (exactFactors quantize) (scaled c population) member))
        = adjustedCells (population.map fun member =>
          (member.1, featuresOf (exactFactors quantize) population member)) := by
    unfold adjustedCells featuresOf
    nth_rewrite 2 [scaled]
    rw [map_map, map_map, map_map]
    apply map_congr_left
    intro member _
    simp only [Function.comp_apply, filter_map]
    congr 1
    apply map_congr_left
    intro factor hfactor
    obtain ⟨hmem, hname⟩ := mem_filter.mp hfactor
    have hbasis := hnames factor hmem (of_decide_eq_true hname)
    rw [factorCell_scaled quantize c member population hmem hbasis]
  unfold calculateHistoricalFeatures
  rw [require_congr _ hdates]
  generalize Lib.require (sessions ≠ [] ∧ sessions.length ≤ 21
    ∧ sessions = sortedDistinct sessions) _ = first
  generalize Lib.require (∀ member ∈ population, member.2.map (·.sessionDate) = sessions) _ = second
  cases first with
  | error e => rfl
  | ok _ =>
    cases second with
    | error e => rfl
    | ok _ => exact congrArg Except.ok hcells

end ScaledCells

-- ==== the peers together

def unroundedValues {K : Type _} [Field K] [LinearOrder K] (A : FactorArithmetic K)
    (factor : HistoricalFactor) (population : Population K) : List K :=
  population.filterMap fun member => relativeValue A factor population member.2

section Together

variable (quantize : ℝ → ℝ) {factor : HistoricalFactor} {population : Population ℝ} {n : Nat}

theorem unroundedValues_eq (hn : peerSessions factor = n)
    (hpeers : 2 ≤ (peerReturns population n).length) :
    unroundedValues (exactFactors quantize) factor population
      = (peerReturns population n).map (peerValue (exactFactors quantize) factor
          (peerReturns population n)) := by
  have hmap : (peerReturns population n).map (peerValue (exactFactors quantize) factor
      (peerReturns population n)) = population.filterMap fun member =>
        (periodReturn member.2 n).map (peerValue (exactFactors quantize) factor
          (peerReturns population n)) := map_filterMap
  rw [hmap]
  apply filterMap_congr
  intro member _
  rw [relativeValue_eq quantize population factor hn, if_pos hpeers]

variable {valid : List ℝ}

theorem sum_peerRelative (hname : startsWith factor.name "peer_relative" = true)
    (hvalid : 2 ≤ valid.length) :
    (valid.map (peerValue (exactFactors quantize) factor valid)).sum = 0 := by
  have hvalues : valid.map (peerValue (exactFactors quantize) factor valid)
      = valid.map fun value => value - (valid.map id).sum / valid.length := by
    apply map_congr_left
    intro value _
    unfold peerValue
    rw [if_pos hname, map_id]
    simp only [exactFactors_round, exactFactors_sum]
  rw [hvalues]
  exact sum_deviations id (by omega)

theorem crossSection_values (hname : startsWith factor.name "peer_relative" = false)
    (hvalid : 2 ≤ valid.length) :
    valid.map (peerValue (exactFactors quantize) factor valid)
      = valid.map fun own => (midrank ℝ valid own - 1) / (valid.length - 1) := by
  apply map_congr_left
  intro own hown
  exact peerValue_crossSection quantize hname hown hvalid

theorem crossSection_bounds (hvalid : 2 ≤ valid.length) {own : ℝ} (hown : own ∈ valid) :
    0 ≤ (midrank ℝ valid own - 1) / (valid.length - 1)
      ∧ (midrank ℝ valid own - 1) / (valid.length - 1) ≤ 1 := by
  obtain ⟨hlow, hhigh⟩ := midrank_bounds (K := ℝ) hown
  have hothers : (0 : ℝ) < valid.length - 1 := by
    have htwo : (2 : ℝ) ≤ valid.length := by exact_mod_cast hvalid
    linarith
  constructor
  · exact div_nonneg (by linarith) hothers.le
  · rw [div_le_one hothers]
    linarith

theorem average_crossSection (hvalid : 2 ≤ valid.length) :
    average (valid.map fun own => (midrank ℝ valid own - 1) / (valid.length - 1)) = 1 / 2 := by
  have htwo : (2 : ℝ) ≤ valid.length := by exact_mod_cast hvalid
  have hothers : (valid.length : ℝ) - 1 ≠ 0 := by linarith
  have hsum : (valid.map fun own => (midrank ℝ valid own - 1) / (valid.length - 1 : ℝ)).sum
        = ((valid.length : ℝ) * (valid.length + 1) / 2 - valid.length) / (valid.length - 1) := by
    have hranks := sum_map_sub_mul (midrank ℝ valid) (fun _ => 1) 1 valid
    rw [sum_midrank, map_const', sum_replicate, nsmul_eq_mul, mul_one, one_mul] at hranks
    simp only [mul_one] at hranks
    simp only [div_eq_mul_inv] at hranks ⊢
    rw [sum_map_mul_right, hranks]
  unfold average
  rw [hsum, length_map]
  field_simp
  ring

/-- Of two complete peers or more, the deviations sum to zero, and the ranks lie
between zero and one around one half. -/
theorem peers_together (hn : peerSessions factor = n)
    (hpeers : 2 ≤ (validReturns (exactFactors quantize) n population).length) :
    (unroundedValues (exactFactors quantize) factor population).length
        = (validReturns (exactFactors quantize) n population).length
      ∧ (startsWith factor.name "peer_relative" = true →
        (unroundedValues (exactFactors quantize) factor population).sum = 0)
      ∧ (startsWith factor.name "peer_relative" = false →
        (∀ value ∈ unroundedValues (exactFactors quantize) factor population, 0 ≤ value ∧ value ≤ 1)
        ∧ average (unroundedValues (exactFactors quantize) factor population) = 1 / 2) := by
  rw [validReturns_eq] at hpeers ⊢
  rw [unroundedValues_eq quantize hn hpeers]
  refine ⟨length_map _, fun hname => sum_peerRelative quantize hname hpeers, fun hname => ?_⟩
  rw [crossSection_values quantize hname hpeers]
  refine ⟨fun value hvalue => ?_, average_crossSection hpeers⟩
  obtain ⟨own, hown, rfl⟩ := mem_map.mp hvalue
  exact crossSection_bounds hpeers hown

end Together

end MarketRegimeAlpha.ResearchQualification.HistoricalFeatures
