/-
Rounding a number to a multiple of a unit, as `Decimal.quantize` does.

# The roundings

A rounding takes a number to an integer; `quantize round unit x` rounds
`x` in units of `unit`. `truncate` is `ROUND_DOWN` and `halfEven` is
`ROUND_HALF_EVEN`.

# The context

`roundSignificant prec x` is what an operation of a context of precision
`prec` makes of the exact result `x`: the unit is the power of ten that
leaves `prec` digits before the point. A number is `Exact` when that
changes nothing, and a sum taken in the context is the sum when each of
its partial sums is (`sumContext_eq`).
-/
import Mathlib.Algebra.Order.Field.Power
import Mathlib.Data.Int.Log
import Mathlib.Data.List.Infix
import Mathlib.Data.Rat.Floor

namespace MarketRegimeAlpha.Lib

open List

/-- `ROUND_DOWN`: towards zero. -/
def truncate (x : ℚ) : Int := if 0 ≤ x then ⌊x⌋ else ⌈x⌉

/-- `ROUND_HALF_EVEN`: to the nearest, to the even one of two. -/
def halfEven (x : ℚ) : Int :=
  let rest := x - ⌊x⌋
  if rest < 1 / 2 ∨ (rest = 1 / 2 ∧ ⌊x⌋ % 2 = 0) then ⌊x⌋ else ⌊x⌋ + 1

/-- `x.quantize(unit, rounding=round)`. -/
def quantize (round : ℚ → Int) (unit x : ℚ) : ℚ := round (x / unit) * unit

/-- An exact result, rounded half-even to `prec` significant digits. -/
def roundSignificant (prec : Nat) (x : ℚ) : ℚ :=
  if x = 0 then 0
  else quantize halfEven ((10 : ℚ) ^ (Int.log 10 |x| + 1 - prec)) x

variable {unit x : ℚ}

-- ==== rounding down

/-- A nonnegative number rounded down is below it, by less than a
unit. -/
theorem quantize_truncate (hunit : 0 < unit) (hx : 0 ≤ x) :
    0 ≤ quantize truncate unit x ∧ quantize truncate unit x ≤ x
      ∧ x < quantize truncate unit x + unit := by
  have hdiv : 0 ≤ x / unit := div_nonneg hx hunit.le
  unfold quantize truncate
  rw [if_pos hdiv]
  have hfloor : (0 : ℚ) ≤ ⌊x / unit⌋ := by exact_mod_cast Int.floor_nonneg.mpr hdiv
  refine ⟨mul_nonneg hfloor hunit.le, ?_, ?_⟩
  · exact (le_div_iff₀ hunit).mp (Int.floor_le _)
  · have hlt := (div_lt_iff₀ hunit).mp (Int.lt_floor_add_one (x / unit))
    linarith only [hlt]

-- ==== exactness

theorem halfEven_intCast (n : Int) : halfEven (n : ℚ) = n := by
  unfold halfEven
  exact if_pos (.inl (by norm_num))

/-- The context has the number exactly. -/
def Exact (prec : Nat) (x : ℚ) : Prop := roundSignificant prec x = x

instance (prec : Nat) (x : ℚ) : Decidable (Exact prec x) :=
  inferInstanceAs (Decidable (_ = _))

variable {prec : Nat}

theorem exact_of_units {n : Int}
    (h : x = n * (10 : ℚ) ^ (Int.log 10 |x| + 1 - prec)) : Exact prec x := by
  unfold Exact roundSignificant
  by_cases hx : x = 0
  · rw [if_pos hx, hx]
  · have hunit : (10 : ℚ) ^ (Int.log 10 |x| + 1 - prec) ≠ 0 := zpow_ne_zero _ (by norm_num)
    have hdiv : x / (10 : ℚ) ^ (Int.log 10 |x| + 1 - prec) = n := (div_eq_iff hunit).mpr h
    rw [if_neg hx]
    unfold quantize
    rw [hdiv, halfEven_intCast]
    exact h.symm

/-- A number of `d` places whose digits the context has room for is
exact. -/
theorem exact_of_scaled {k : Int} {d : Nat} (hk : |k| < 10 ^ prec) : Exact prec (k / 10 ^ d) := by
  by_cases hzero : k = 0
  · rw [hzero, Int.cast_zero, zero_div]
    exact if_pos rfl
  set x : ℚ := k / 10 ^ d with hx
  have hpos : 0 < |x| := by
    rw [abs_pos, hx]
    exact div_ne_zero (Int.cast_ne_zero.mpr hzero) (by positivity)
  have hlt : |x| < (10 : ℚ) ^ ((prec : Int) - d) := by
    rw [hx, abs_div, abs_of_pos (by positivity : (0 : ℚ) < 10 ^ d),
      div_lt_iff₀ (by positivity), ← zpow_natCast, ← zpow_add₀ (by norm_num),
      sub_add_cancel, zpow_natCast]
    exact_mod_cast hk
  have hlog : Int.log 10 |x| < (prec : Int) - d :=
    (Int.lt_zpow_iff_log_lt (by norm_num) hpos).mp (by exact_mod_cast hlt)
  -- the unit of the context divides that of the number
  obtain ⟨m, hm⟩ := Int.eq_ofNat_of_zero_le
    (show 0 ≤ -(d : Int) - (Int.log 10 |x| + 1 - prec) by omega)
  apply exact_of_units (n := k * 10 ^ m)
  have hsplit : -(d : Int) = m + (Int.log 10 |x| + 1 - prec) := by omega
  rw [Int.cast_mul, Int.cast_pow, mul_assoc, ← zpow_natCast,
    show ((10 : Int) : ℚ) = 10 by norm_num, ← zpow_add₀ (by norm_num),
    ← hsplit, zpow_neg, zpow_natCast]
  exact hx.trans (div_eq_mul_inv _ _)

def sumContext (prec : Nat) (l : List ℚ) : ℚ :=
  l.foldl (fun sum x => roundSignificant prec (sum + x)) 0

def ExactSum (prec : Nat) (l : List ℚ) : Prop := ∀ part ∈ l.inits, Exact prec part.sum

instance (prec : Nat) (l : List ℚ) : Decidable (ExactSum prec l) :=
  inferInstanceAs (Decidable (∀ part ∈ l.inits, _))

theorem sumContext_eq {l : List ℚ} (h : ExactSum prec l) : sumContext prec l = l.sum := by
  induction l using List.reverseRecOn with
  | nil => rfl
  | append_singleton l x ih =>
    have hrest : ExactSum prec l := by
      intro part hpart
      apply h
      rw [mem_inits] at hpart ⊢
      exact hpart.trans (prefix_append l [x])
    have hwhole := h (l ++ [x]) ((mem_inits _ _).mpr (prefix_refl _))
    rw [sum_append, sum_singleton] at hwhole ⊢
    unfold sumContext at ih ⊢
    rw [foldl_append, ih hrest]
    exact hwhole

end MarketRegimeAlpha.Lib
