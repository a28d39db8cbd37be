/-
The maximum drawdown of a list of period returns.

# One pass for all pairs

The loop of `_maximum_drawdown` keeps the wealth, the peak and the
greatest fall from a peak. After every return these are the wealth at its
place, the peak and the drawdown of the wealth up to it (`fold_drawdown`),
so what a single pass leaves is the greatest fall over all pairs of
places, the initial wealth included.
-/
import Mathlib.Data.List.GetD
import MarketRegimeAlpha.Lib.Drawdown
import MarketRegimeAlpha.ResearchQualification.EvaluationFormula

namespace MarketRegimeAlpha.ResearchQualification.EvaluationFormula

open Lib List

section Wealth

variable {K : Type _} [Field K] {i : Nat}

def wealth (returns : List K) : Nat → K
  | 0 => 1
  | i + 1 => wealth returns i * (1 + returns.getD i 0)

theorem wealth_append_left (returns more : List K)
    (h : i ≤ returns.length) : wealth (returns ++ more) i = wealth returns i := by
  induction i with
  | zero => rfl
  | succ i ih =>
    show wealth (returns ++ more) i * _ = wealth returns i * _
    rw [ih (by omega), getD_append _ _ _ _ (by omega)]

theorem wealth_append_right (returns more : List K) (i : Nat) :
    wealth (returns ++ more) (returns.length + i)
      = wealth returns returns.length * wealth more i := by
  induction i with
  | zero =>
    rw [Nat.add_zero, wealth_append_left returns more le_rfl]
    exact (mul_one _).symm
  | succ i ih =>
    show wealth (returns ++ more) (returns.length + i)
        * (1 + (returns ++ more).getD (returns.length + i) 0)
      = _ * (wealth more i * (1 + more.getD i 0))
    rw [ih, getD_append_right _ _ _ _ (Nat.le_add_right _ _),
      Nat.add_sub_cancel_left, mul_assoc]

variable [LinearOrder K] [IsStrictOrderedRing K] {returns : List K}

theorem wealth_pos (h : ∀ r ∈ returns, -1 < r)
    (hi : i ≤ returns.length) : 0 < wealth returns i := by
  induction i with
  | zero => exact one_pos
  | succ i ih =>
    have hlt : i < returns.length := by omega
    have hreturn := h (returns.getD i 0) (by
      rw [getD_eq_getElem _ _ hlt]
      exact getElem_mem hlt)
    exact mul_pos (ih hlt.le) (by linarith)

omit [IsStrictOrderedRing K] in
theorem drawdownStep_exact (root : K → K) (power : K → K → K)
    {wealth peak fall r : K} (h : 0 < max peak (wealth * (1 + r))) :
    drawdownStep (Arithmetic.exact root power) (wealth, peak, fall) r
      = (wealth * (1 + r), max peak (wealth * (1 + r)),
        max fall (1 - wealth * (1 + r) / max peak (wealth * (1 + r)))) :=
  if_pos h

/-- After every return, the pass has the wealth, the peak and the
drawdown up to its place. -/
theorem fold_drawdown (root : K → K) (power : K → K → K) (h : ∀ r ∈ returns, -1 < r) : ∃ peak fall,
    returns.foldl (drawdownStep (Arithmetic.exact root power)) (1, 1, 0)
        = (wealth returns returns.length, peak, fall)
      ∧ IsPeak (wealth returns) returns.length peak
      ∧ IsDrawdown (wealth returns) returns.length fall := by
  induction returns using List.reverseRecOn with
  | nil => exact ⟨1, 0, rfl, isPeak_zero _, isDrawdown_zero one_pos⟩
  | append_singleton returns r ih =>
    obtain ⟨peak, fall, hfold, hpeak, hfall⟩ := ih fun r' hr' => h r' (mem_append_left [r] hr')
    have hlength : (returns ++ [r]).length = returns.length + 1 := by simp
    have hsame : ∀ i ≤ returns.length, wealth (returns ++ [r]) i = wealth returns i :=
      fun i hi => wealth_append_left returns [r] hi
    have hnext : wealth (returns ++ [r]) (returns.length + 1)
        = wealth returns returns.length * (1 + r) := by
      rw [wealth_append_right]
      simp [wealth]
    have hpos : ∀ i ≤ returns.length + 1, 0 < wealth (returns ++ [r]) i :=
      fun i hi => wealth_pos h (hi.trans_eq hlength.symm)
    have hpeak' := (hpeak.congr hsame).succ
    have hpositive : 0 < max peak (wealth (returns ++ [r]) (returns.length + 1)) :=
      lt_max_of_lt_right (hpos _ le_rfl)
    refine ⟨_, _, ?_, hlength ▸ hpeak', hlength ▸ (hfall.congr hsame).succ hpos hpeak'⟩
    rw [foldl_append, hfold, foldl_cons, foldl_nil, hlength]
    rw [hnext] at hpositive ⊢
    exact drawdownStep_exact root power hpositive

theorem isDrawdown_maximum (root : K → K) (power : K → K → K) (h : ∀ r ∈ returns, -1 < r) :
    IsDrawdown (wealth returns) returns.length
      (maximumDrawdown (Arithmetic.exact root power) returns) := by
  obtain ⟨peak, fall, hfold, -, hfall⟩ := fold_drawdown root power h
  unfold maximumDrawdown
  rwa [hfold]

end Wealth

-- ==== the laws

/-- The law of the maximum drawdown of a list of returns, and of the
returns before and after a place. -/
structure DrawdownLaw (A : Arithmetic ℚ) (returns more : List ℚ) : Prop where
  greatest : IsGreatest {d | ∃ i j, i ≤ j ∧ j ≤ returns.length
    ∧ d = 1 - wealth returns j / wealth returns i} (maximumDrawdown A returns)
  nonneg : 0 ≤ maximumDrawdown A returns
  lt_one : maximumDrawdown A returns < 1
  zero_iff : maximumDrawdown A returns = 0
    ↔ ∀ i < returns.length, wealth returns i ≤ wealth returns (i + 1)
  append_left : maximumDrawdown A returns ≤ maximumDrawdown A (returns ++ more)
  append_right : maximumDrawdown A more ≤ maximumDrawdown A (returns ++ more)

/-- The maximum drawdown is the greatest fall between two places of the
wealth, and those of the parts are in that of the whole. -/
theorem maximum_drawdown_law (root : ℚ → ℚ) (power : ℚ → ℚ → ℚ)
    (returns more : List ℚ) (h : ∀ r ∈ returns ++ more, -1 < r) :
    DrawdownLaw (Arithmetic.exact root power) returns more := by
  have hreturns : ∀ r ∈ returns, -1 < r := fun r hr => h r (mem_append_left more hr)
  have hmore : ∀ r ∈ more, -1 < r := fun r hr => h r (mem_append_right returns hr)
  have hpos : ∀ i ≤ returns.length, 0 < wealth returns i := fun i hi => wealth_pos hreturns hi
  have hfall := isDrawdown_maximum root power hreturns
  have hwhole := isDrawdown_maximum root power h
  constructor
  case greatest => exact hfall
  case nonneg => exact hfall.nonneg hpos
  case lt_one => exact hfall.lt_one hpos
  case zero_iff => exact hfall.eq_zero_iff hpos
  case append_left =>
    apply hfall.le_of_scaled one_ne_zero (k := 0) _ _ hwhole
    · intro i hi
      rw [Nat.zero_add, one_mul]
      exact wealth_append_left returns more hi
    · simp
  case append_right =>
    apply (isDrawdown_maximum root power hmore).le_of_scaled
      (hpos _ le_rfl).ne' (k := returns.length) _ _ hwhole
    · exact fun i _ => wealth_append_right returns more i
    · simp

/-- A fall of a half, a rise and a smaller fall. -/
theorem maximum_drawdown_law_sample :
    DrawdownLaw (Arithmetic.exact id fun x _ => x) [-1 / 2, 1] [-1 / 4] :=
  maximum_drawdown_law id (fun x _ => x) [-1 / 2, 1] [-1 / 4] (by
    intro r hr
    simp only [cons_append, nil_append, mem_cons, not_mem_nil, or_false] at hr
    rcases hr with rfl | rfl | rfl
    · norm_num
    · norm_num
    · norm_num)

end MarketRegimeAlpha.ResearchQualification.EvaluationFormula
