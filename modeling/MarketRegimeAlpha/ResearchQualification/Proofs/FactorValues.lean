/-
The values of the factors in exact arithmetic are those of their definitions.

# One instrument

The sliced window of the code and the complete window of the definitions come to
the same (`completeWindow_map`): the slice is short exactly when the history is,
and the cells it takes are the last ones. A factor that needs at most `n` cells
finds them among the last `n` (`completeWindow_rtake`).
-/
import Mathlib.Data.List.ReduceOption
import MarketRegimeAlpha.Lib.Windows
import MarketRegimeAlpha.ResearchQualification.FactorDefinitions
import MarketRegimeAlpha.ResearchQualification.Proofs.RankCorrelation

namespace MarketRegimeAlpha.ResearchQualification.HistoricalFeatures

open Lib List
open EvaluationFormula (realArithmetic)

/-- Exact arithmetic, with a rounding of the cells. -/
noncomputable def exactFactors (quantize : ℝ → ℝ) : FactorArithmetic ℝ where
  toArithmetic := realArithmetic
  quantize

section Exact

variable (quantize : ℝ → ℝ) (x : ℝ)

@[simp] theorem exactFactors_round : (exactFactors quantize).round x = x := rfl

@[simp] theorem exactFactors_square : (exactFactors quantize).square x = x * x := rfl

@[simp] theorem exactFactors_root : (exactFactors quantize).root x = √x := rfl

@[simp] theorem exactFactors_sum (values : List ℝ) :
    (exactFactors quantize).sum values = values.sum :=
  Arithmetic.exact_sum _ _ values

end Exact

-- ==== the windows

section Windows

variable {K : Type _} {values : List (Option K)} {present : List K}

theorem map_some_reduceOption
    (h : ∀ value ∈ values, value.isSome) : values.reduceOption.map some = values := by
  induction values with
  | nil => rfl
  | cons value values ih =>
    obtain ⟨x, rfl⟩ := Option.isSome_iff_exists.mp (h value mem_cons_self)
    rw [reduceOption_cons_of_some, map_cons,
      ih fun v hv => h v (mem_cons_of_mem _ hv)]

theorem allPresent_eq_some : allPresent values = some present ↔ values = present.map some := by
  unfold allPresent
  constructor
  · intro h
    split at h
    next hall =>
      injection h with h
      rw [← h, map_some_reduceOption (all_eq_true.mp hall)]
    next => cases h
  · rintro rfl
    have hall : (present.map some).all Option.isSome = true := by
      rw [all_eq_true]
      intro value hvalue
      obtain ⟨x, -, rfl⟩ := mem_map.mp hvalue
      rfl
    simp [List.reduceOption]

theorem length_of_allPresent
    (h : allPresent values = some present) : present.length = values.length := by
  rw [allPresent_eq_some.mp h, length_map]

theorem allPresent_map {J : Type _} (f : K → J) (values : List (Option K)) :
    allPresent (values.map (Option.map f)) = (allPresent values).map (List.map f) := by
  have hall : (values.map (Option.map f)).all Option.isSome = values.all Option.isSome := by
    rw [all_map]
    congr 1
    funext value
    exact Option.isSome_map
  unfold allPresent
  rw [hall, reduceOption_map]
  split
  · rfl
  · rfl

end Windows

theorem completeWindow_map (n : Nat) (column : HistoricalDailyPoint ℝ → Option ℝ)
    (history : List (HistoricalDailyPoint ℝ)) :
    completeWindow n (history.map column) = if (history.rtake n).length = n then
          allPresent ((history.rtake n).map column) else none := by
  unfold completeWindow
  rw [map_rtake, length_rtake, length_map]
  by_cases h : n ≤ history.length
  · rw [if_pos h, if_pos (min_eq_left h)]
  · rw [if_neg h, if_neg (by omega)]

theorem length_of_completeWindow {n : Nat} {history : List (Option ℝ)}
    {window : List ℝ} (h : completeWindow n history = some window) :
    window.length = n := by
  unfold completeWindow at h
  split at h
  next hn =>
    rw [length_of_allPresent h, length_rtake]
    exact min_eq_left hn
  next => cases h

/-- A window of at most `m` cells is one of the last `m`. -/
theorem completeWindow_rtake {n m : Nat} (h : n ≤ m) (history : List (Option ℝ)) :
    completeWindow n (history.rtake m) = completeWindow n history := by
  unfold completeWindow
  rw [rtake_rtake h, length_rtake]
  by_cases hn : n ≤ history.length
  · rw [if_pos hn, if_pos (le_min h hn)]
  · rw [if_neg hn, if_neg (by omega)]

-- ==== of one instrument

section Own

variable (quantize : ℝ → ℝ) (points : List (HistoricalDailyPoint ℝ)) {window : List ℝ}
  {basis : String}

theorem ownValue_intraday {group : FactorGroup} :
    (ownValue (exactFactors quantize) ⟨"intraday", 0, group, basis⟩ points).1
      = intradayReturn points := by
  unfold ownValue intradayReturn
  dsimp only
  rw [getLast?_rtake Nat.one_ne_zero, length_rtake]
  cases hlast : points.getLast? with
  | none =>
    split
    · rfl
    · rfl
  | some point =>
    have hlength : 0 < points.length := by
      apply length_pos_iff.mpr
      rintro rfl
      cases hlast
    rw [if_pos (by omega)]
    show intradayValue _ point = point.rawOpen.bind fun opened =>
      point.rawClose.bind fun closed => some (closed / opened - 1)
    unfold intradayValue
    cases point.rawOpen with
    | none => rfl
    | some opened =>
      cases point.rawClose with
      | none => rfl
      | some closed => rfl

theorem returnFactor_name (n : Nat) : (returnFactor n).name ≠ "intraday" := by
  intro h
  have hfirst := congrArg (fun text : String => text.toList.head?) h
  simp [returnFactor] at hfirst

theorem ownValue_closes {factor : HistoricalFactor} (hname : factor.name ≠ "intraday")
    (hgroup : factor.group = .returns ∨ factor.group = .volatility) :
    (ownValue (exactFactors quantize) factor points).1
      = (completeWindow (factor.lookback + 1) (points.map (·.adjustedClose))).map
        (if factor.group = .returns then returnValue (exactFactors quantize)
          else volatilityValue (exactFactors quantize)) := by
  rw [completeWindow_map]
  unfold ownValue
  dsimp only
  split
  · rfl
  · rfl

theorem ownValue_return (n : Nat) : (ownValue (exactFactors quantize) (returnFactor n) points).1
      = periodReturn points n := by
  have hgroup : (returnFactor n).group = .returns := rfl
  rw [ownValue_closes quantize points (returnFactor_name n) (.inl hgroup), if_pos hgroup]
  rfl

theorem volatilityValue_eq (h : 2 ≤ window.length) :
    volatilityValue (exactFactors quantize) window = sampleDeviation (stepReturns window) := by
  have hreturns : dailyReturns (exactFactors quantize) window = stepReturns window := rfl
  have hlength : (stepReturns window).length = window.length - 1 := by
    unfold stepReturns
    rw [length_map, length_zip, length_tail]
    omega
  have hcount : (((stepReturns window).length - 1 : Nat) : ℝ)
      = (stepReturns window).length - 1 := by
    rw [Nat.cast_sub (by omega), Nat.cast_one]
  unfold volatilityValue sampleDeviation average
  rw [hreturns]
  simp only [exactFactors_round, exactFactors_square, exactFactors_root,
    exactFactors_sum, hcount, pow_two]

theorem ownValue_volatility :
    (ownValue (exactFactors quantize) ⟨"volatility_20", 20, .volatility, basis⟩
      points).1 = volatility points 20 := by
  have hname : "volatility_20" ≠ "intraday" := by decide
  have hgroup : FactorGroup.volatility ≠ .returns := by decide
  rw [ownValue_closes quantize points hname (.inr rfl), if_neg hgroup]
  unfold volatility
  cases hwindow : completeWindow 21 (points.map (·.adjustedClose)) with
  | none => rfl
  | some window =>
    have hlength := length_of_completeWindow hwindow
    rw [Option.map_some, Option.map_some, volatilityValue_eq quantize (by omega)]

theorem activityValue_eq (h : window.length = 20) : activityValue (exactFactors quantize) window
      = average (window.rtake 5) / average window - 1 := by
  have hlength : (window.rtake 5).length = 5 := by
    rw [length_rtake, h]
    rfl
  unfold activityValue average
  simp only [exactFactors_round, exactFactors_sum]
  rw [hlength, h]
  ring

theorem ownValue_activity {name basis : String} (hname : name ≠ "intraday")
    {quantity : HistoricalDailyPoint ℝ → Option ℝ}
    (hquantity : ∀ point : HistoricalDailyPoint ℝ,
      (if startsWith name "volume" then point.volume else point.amount) = quantity point) :
    (ownValue (exactFactors quantize) ⟨name, 19, .activity, basis⟩ points).1
      = meanRatio (points.map quantity) := by
  have hgroup : ¬ (FactorGroup.activity = .returns
      ∨ FactorGroup.activity = .volatility) := by decide
  unfold meanRatio ownValue
  dsimp only
  rw [if_neg hname, if_neg hgroup, completeWindow_map]
  simp only [hquantity]
  split
  next hlength =>
    cases hwindow : allPresent ((points.rtake 20).map quantity) with
    | none => rfl
    | some window =>
      have htwenty : window.length = 20 := by
        rw [length_of_allPresent hwindow, length_map, hlength]
      rw [Option.bind_some]
      dsimp only
      rw [exactFactors_sum]
      by_cases hzero : window.sum = 0
      · rw [if_pos hzero, if_pos hzero]
      · rw [if_neg hzero, if_neg hzero, ← activityValue_eq quantize htwenty]
  next => rfl

end Own

-- ==== of the peers

section Peers

variable (quantize : ℝ → ℝ) (population : Population ℝ)

theorem validReturns_eq (n : Nat) :
    validReturns (exactFactors quantize) n population = peerReturns population n := by
  unfold validReturns peerReturns unroundedReturn
  simp only [ownValue_return]

variable {member : Nat × List (HistoricalDailyPoint ℝ)} {n : Nat}

theorem relativeValue_eq (factor : HistoricalFactor)
    (hn : peerSessions factor = n) (points : List (HistoricalDailyPoint ℝ)) :
    relativeValue (exactFactors quantize) factor population points
      = if 2 ≤ (peerReturns population n).length then
          (periodReturn points n).map
            (peerValue (exactFactors quantize) factor (peerReturns population n))
        else none := by
  unfold relativeValue unroundedReturn
  dsimp only
  rw [hn, validReturns_eq, ownValue_return]

variable {factor : HistoricalFactor}

theorem relativeValue_peerRelative (hn : peerSessions factor = n)
    (hname : startsWith factor.name "peer_relative" = true)
    (points : List (HistoricalDailyPoint ℝ)) :
    relativeValue (exactFactors quantize) factor population points
      = peerRelative population points n := by
  rw [relativeValue_eq quantize population factor hn]
  congr 2
  funext value
  unfold peerValue average
  rw [if_pos hname]
  simp only [exactFactors_round, exactFactors_sum]

theorem peerValue_crossSection {valid : List ℝ}
    {own : ℝ} (hname : startsWith factor.name "peer_relative" = false)
    (hown : own ∈ valid) (hlength : 2 ≤ valid.length) :
    peerValue (exactFactors quantize) factor valid own
      = (midrank ℝ valid own - 1) / (valid.length - 1) := by
  have hequal : valid.countP (· = own) = valid.count own := by
    exact countP_congr fun value _ => by rw [decide_eq_true_iff, beq_iff_eq]
  have hpos : 1 ≤ valid.count own := count_pos_iff.mpr hown
  have hties : ((valid.count own - 1 : Nat) : ℝ) = valid.count own - 1 := by
    rw [Nat.cast_sub hpos, Nat.cast_one]
  have hothers : ((valid.length - 1 : Nat) : ℝ) = valid.length - 1 := by
    rw [Nat.cast_sub (by omega), Nat.cast_one]
  unfold peerValue midrank
  rw [if_neg (by rw [hname]; decide)]
  simp only [exactFactors_round, hequal, hties, hothers]
  ring

theorem relativeValue_crossSection (hn : peerSessions factor = n)
    (hname : startsWith factor.name "peer_relative" = false) (hmember : member ∈ population) :
    relativeValue (exactFactors quantize) factor population member.2
      = crossSection population member.2 n := by
  rw [relativeValue_eq quantize population factor hn]
  unfold crossSection
  by_cases hlength : 2 ≤ (peerReturns population n).length
  · rw [if_pos hlength, if_pos hlength]
    cases hown : periodReturn member.2 n with
    | none => rfl
    | some own =>
      have hpeer : own ∈ peerReturns population n := mem_filterMap.mpr ⟨member, hmember, hown⟩
      rw [Option.map_some, Option.map_some, peerValue_crossSection quantize hname hpeer hlength]
  · rw [if_neg hlength, if_neg hlength]

end Peers

-- ==== every factor

/-- The cell of a factor holds its value by definition, rounded. -/
theorem factorCell_value (quantize : ℝ → ℝ) {population : Population ℝ}
    {member : Nat × List (HistoricalDailyPoint ℝ)} (hmember : member ∈ population)
    {factor : HistoricalFactor} (hfactor : factor ∈ factors) :
    (factorCell (exactFactors quantize) population member factor).value
      = (definedFactor population member.2 factor.name).map quantize := by
  have hown : factor.group ≠ .relative →
      (factorCell (exactFactors quantize) population member factor).value
        = (ownValue (exactFactors quantize) factor member.2).1.map quantize := by
    intro hgroup
    unfold factorCell
    rw [if_neg hgroup]
    rfl
  have hrelative : factor.group = .relative →
      (factorCell (exactFactors quantize) population member factor).value
        = (relativeValue (exactFactors quantize) factor population member.2).map quantize := by
    intro hgroup
    unfold factorCell
    rw [if_pos hgroup]
    rfl
  unfold factors at hfactor
  simp only [mem_cons, not_mem_nil, or_false] at hfactor
  rcases hfactor with rfl | rfl | rfl | rfl | rfl | rfl | rfl | rfl | rfl | rfl
  · rw [hown (by decide), ownValue_intraday]
    rfl
  · rw [hown (by decide), ownValue_return]
    rfl
  · rw [hown (by decide), ownValue_return]
    rfl
  · rw [hown (by decide), ownValue_return]
    rfl
  · rw [hown (by decide), ownValue_volatility]
    rfl
  · rw [hown (by decide), ownValue_activity quantize member.2 (by decide)
      fun _ => if_pos (by decide)]
    rfl
  · rw [hown (by decide), ownValue_activity quantize member.2 (by decide)
      fun _ => if_neg (by decide)]
    rfl
  · rw [hrelative rfl, relativeValue_peerRelative quantize population
      (n := 5) (by decide) (by decide)]
    rfl
  · rw [hrelative rfl, relativeValue_peerRelative quantize population
      (n := 20) (by decide) (by decide)]
    rfl
  · rw [hrelative rfl, relativeValue_crossSection quantize population
      (n := 5) (by decide) (by decide) hmember]
    rfl

end MarketRegimeAlpha.ResearchQualification.HistoricalFeatures
