/-
Averages of lists, of their groups, and the line that fits them best.

# Groups

The average of a list is the average of the averages of its groups, each
weighted by its number of entries (`weightedMean_groups`); a group without
entries has no average and no weight.

# Inequalities

The absolute value of an average is at most the average of the absolute
values, and the square of that at most the average of the squares.

# The line

The slope and the intercept of least squares leave residuals that sum to zero
and are orthogonal to the abscissas.
-/
import Mathlib.Tactic.Positivity
import MarketRegimeAlpha.Lib.Ranks

namespace MarketRegimeAlpha.Lib

open List

-- ==== the averages

section Averages

variable {α K : Type _} [Field K]

/-- The average of what `f` makes of the entries, if there are any. -/
def averageOf (f : α → K) (l : List α) : Option K :=
  if l.length = 0 then none else some ((l.map f).sum / l.length)

def weightedMean (cells : List (Nat × Option K)) : Option K :=
  if (cells.map (·.1)).sum = 0 then none
  else some ((cells.map fun cell => (cell.1 : K) * cell.2.getD 0).sum
    / ((cells.map (·.1)).sum : Nat))

variable [CharZero K] {f : α → K}

theorem length_mul_averageOf (f : α → K) (l : List α) :
    (l.length : K) * (averageOf f l).getD 0 = (l.map f).sum := by
  unfold averageOf
  by_cases h : l.length = 0
  · rw [if_pos h, length_eq_zero_iff.mp h]
    simp
  · have hlength : (l.length : K) ≠ 0 := Nat.cast_ne_zero.mpr h
    rw [if_neg h]
    exact mul_div_cancel₀ _ hlength

theorem weightedMean_groups (f : α → K) (groups : List (List α)) :
    weightedMean (groups.map fun group => (group.length, averageOf f group))
      = averageOf f groups.flatten := by
  have hcounts : (groups.map fun group =>
      (group.length, averageOf f group)).map (·.1) = groups.map List.length := by
    rw [map_map]
    rfl
  have hsums : (groups.map fun group => (group.length, averageOf f group)).map
      (fun cell => (cell.1 : K) * cell.2.getD 0) = groups.map fun group => (group.map f).sum := by
    rw [map_map]
    exact map_congr_left fun group _ => length_mul_averageOf f group
  have htotal : (groups.map fun group => (group.map f).sum).sum = (groups.flatten.map f).sum := by
    rw [map_flatten, sum_flatten, map_map]
    rfl
  unfold weightedMean
  rw [hcounts, hsums, htotal, averageOf, length_flatten]

end Averages

-- ==== the inequalities

section Inequalities

variable {K : Type _} [Field K] [LinearOrder K] [IsStrictOrderedRing K] {l : List K} {α : Type _}

theorem abs_sum_le (l : List K) : |l.sum| ≤ (l.map fun x => |x|).sum := by
  induction l with
  | nil => simp
  | cons x l ih =>
    rw [sum_cons, map_cons, sum_cons]
    exact (abs_add_le x l.sum).trans (by linarith)

/-- The absolute value of an average is at most that of the absolute
values. -/
theorem abs_average_le (l : List K) :
    |l.sum / l.length| ≤ (l.map fun x => |x|).sum / l.length := by
  rw [abs_div, abs_of_nonneg (Nat.cast_nonneg (α := K) l.length)]
  exact div_le_div_of_nonneg_right (abs_sum_le l) (Nat.cast_nonneg _)

theorem sum_abs_nonneg (l : List K) : 0 ≤ (l.map fun x => |x|).sum := by
  apply List.sum_nonneg
  intro y hy
  obtain ⟨x, -, rfl⟩ := mem_map.mp hy
  exact abs_nonneg x

/-- The square of the average of the absolute values is at most the average
of the squares. -/
theorem sq_average_abs_le (hl : l.length ≠ 0) :
    ((l.map fun x => |x|).sum / l.length) * ((l.map fun x => |x|).sum / l.length)
      ≤ (l.map fun x => x * x).sum / l.length := by
  have hpos : (0 : K) < l.length := by exact_mod_cast Nat.pos_of_ne_zero hl
  have hcauchy := sum_mul_sq_le (l.map fun x => (|x|, (1 : K)))
  simp only [map_map, Function.comp_def, mul_one, abs_mul_abs_self] at hcauchy
  have hones : (l.map fun _ => (1 : K)).sum = l.length := by
    rw [map_const', sum_replicate, nsmul_eq_mul, mul_one]
  rw [hones] at hcauchy
  rw [div_mul_div_comm, div_le_div_iff₀ (mul_pos hpos hpos) hpos]
  calc (l.map fun x => |x|).sum * (l.map fun x => |x|).sum * l.length
      ≤ (l.map fun x => x * x).sum * l.length * l.length :=
        mul_le_mul_of_nonneg_right hcauchy hpos.le
    _ = (l.map fun x => x * x).sum * (l.length * l.length) := mul_assoc _ _ _

omit [LinearOrder K] [IsStrictOrderedRing K] in
theorem sum_map_div (f : α → K) (n : K) (l : List α) :
    (l.map fun a => f a / n).sum = (l.map f).sum / n := by
  simp only [div_eq_mul_inv, sum_map_mul_right]

theorem length_mul_sq_average_le (l : List K) :
    l.length * (l.sum / l.length) ^ 2 ≤ (l.map fun x => x ^ 2).sum := by
  by_cases hl : l.length = 0
  · rw [length_eq_zero_iff.mp hl]
    simp
  have hpos : (0 : K) < l.length := by exact_mod_cast Nat.pos_of_ne_zero hl
  have hcauchy := sum_mul_sq_le (l.map fun x => (x, (1 : K)))
  simp only [map_map, Function.comp_def, mul_one, map_id'] at hcauchy
  have hones : (l.map fun _ => (1 : K)).sum = l.length := by
    rw [map_const', sum_replicate, nsmul_eq_mul, mul_one]
  have hsquares : (l.map fun x => x ^ 2) = l.map fun x => x * x :=
    map_congr_left fun x _ => sq x
  rw [hones] at hcauchy
  rw [hsquares, div_pow, sq (l.length : K), mul_div_assoc', mul_div_mul_left _ _ hpos.ne',
    div_le_iff₀ hpos, sq]
  exact hcauchy

/-- Under weights that sum to one, the square of the mean is at most the mean of
the squares. -/
theorem sq_weighted_le {w x : α → K} {l : List α}
    (hw : ∀ a ∈ l, 0 ≤ w a) (hone : (l.map w).sum = 1) :
    (l.map fun a => w a * x a).sum ^ 2 ≤ (l.map fun a => w a * x a ^ 2).sum := by
  set mean := (l.map fun a => w a * x a).sum
  -- the mean of the squared deviations is what the squares exceed
  have hdeviations : (l.map fun a => w a * (x a - mean) ^ 2).sum
      = (l.map fun a => w a * x a ^ 2).sum - 2 * mean * (l.map fun a => w a * x a).sum
        + mean ^ 2 * (l.map w).sum := by
    clear_value mean
    clear hone hw
    induction l with
    | nil => simp
    | cons a l ih =>
      simp only [map_cons, sum_cons, ih]
      ring
  have hnonneg : 0 ≤ (l.map fun a => w a * (x a - mean) ^ 2).sum := by
    refine List.sum_nonneg fun y hy => ?_
    obtain ⟨a, ha, rfl⟩ := mem_map.mp hy
    exact mul_nonneg (hw a ha) (sq_nonneg _)
  rw [hdeviations, hone] at hnonneg
  have hmean : (l.map fun a => w a * x a).sum = mean := rfl
  linarith [hnonneg]

end Inequalities

-- ==== the line

section Line

variable {K : Type _} [Field K] {l : List (K × K)} {α : Type _}

/-- Sums over a list of an expression that is linear in `h`. -/
theorem sum_map_sub_mul (g h : α → K) (c : K) (l : List α) :
    (l.map fun p => g p - c * h p).sum = (l.map g).sum - c * (l.map h).sum := by
  induction l with
  | nil => simp
  | cons p l ih =>
    rw [map_cons, sum_cons, ih, map_cons, sum_cons,
      map_cons, sum_cons]
    ring

variable [CharZero K]

theorem sum_deviations (f : α → K) {l : List α} (hl : l.length ≠ 0) :
    (l.map fun p => f p - (l.map f).sum / l.length).sum = 0 := by
  have hlength : (l.length : K) ≠ 0 := Nat.cast_ne_zero.mpr hl
  have h := sum_map_sub_mul f (fun _ => 1) ((l.map f).sum / l.length) l
  simp only [mul_one] at h
  rw [h, map_const', sum_replicate, nsmul_eq_mul, mul_one,
    div_mul_cancel₀ _ hlength, sub_self]

theorem normal_equations {xmean ymean slope : K} (hl : l.length ≠ 0)
    (hx : xmean = (l.map (·.1)).sum / l.length)
    (hy : ymean = (l.map (·.2)).sum / l.length)
    (hxx : (l.map fun p => (p.1 - xmean) * (p.1 - xmean)).sum ≠ 0)
    (hslope : slope = (l.map fun p => (p.1 - xmean) * (p.2 - ymean)).sum
      / (l.map fun p => (p.1 - xmean) * (p.1 - xmean)).sum) :
    (l.map fun p => p.2 - (ymean - slope * xmean + slope * p.1)).sum = 0
      ∧ (l.map fun p => p.1 * (p.2 - (ymean - slope * xmean + slope * p.1))).sum = 0 := by
  have hxs : (l.map fun p => p.1 - xmean).sum = 0 := by
    rw [hx]
    exact sum_deviations (·.1) hl
  have hys : (l.map fun p => p.2 - ymean).sum = 0 := by
    rw [hy]
    exact sum_deviations (·.2) hl
  have hresiduals : (l.map fun p => p.2 - (ymean - slope * xmean + slope * p.1)).sum = 0 := by
    have h := sum_map_sub_mul (fun p => p.2 - ymean) (fun p => p.1 - xmean) slope l
    rw [hxs, hys, mul_zero, sub_zero] at h
    rw [← h]
    exact congrArg List.sum (map_congr_left fun p _ => by ring)
  refine ⟨hresiduals, ?_⟩
  have hproducts : (l.map fun p => (p.1 - xmean) * (p.2 - ymean)).sum
      - slope * (l.map fun p => (p.1 - xmean) * (p.1 - xmean)).sum = 0 := by
    rw [hslope, div_mul_cancel₀ _ hxx, sub_self]
  have hcentred := sum_map_sub_mul (fun p => p.1 * (p.2 - (ymean - slope * xmean + slope * p.1)))
    (fun p => p.2 - (ymean - slope * xmean + slope * p.1)) xmean l
  rw [hresiduals, mul_zero, sub_zero] at hcentred
  rw [← hcentred, ← hproducts, ← sum_map_sub_mul]
  exact congrArg List.sum (map_congr_left fun p _ => by ring)

end Line

end MarketRegimeAlpha.Lib
