/-
The laws of rounding half-even, to an integer, to a multiple of a unit
and to a number of significant digits.

# Nearest, even, unique

`halfEven x` is the integer nearest to `x`, the even one of two, and
there is one such integer (`NearestEven.mono`). That it is monotone and
does not look at the sign follows from this alone.

# Significant digits

A result with a larger power of ten in front has a larger unit, so a
rounding to significant digits is monotone within a power of ten because
its unit is fixed there, and between two because each power of ten is a
multiple of the units on both sides of it (`roundSignificant_mono`). Its
error is at most half a unit, whatever bound the unit is taken from.

# Limits

A limit that is not a multiple of the unit cannot be kept exactly by what is rounded
to the nearest: `Within` is what is left of it. It survives a running counter, when
each addition is rounded from what the limit still leaves (`Within.add_rounded`). A
budget may be overdrawn by one rounding only: by the amount that uses it up, after
which nothing more is spent (`Spent.rest`).
-/
import Mathlib
import MarketRegimeAlpha.Lib.Decimal
import MarketRegimeAlpha.Lib.Quantize

namespace MarketRegimeAlpha.Lib

open Decimal List

variable {unit x y : ℚ} {prec : Nat} {e : Int} {n : Int}

-- ==== to an integer

/-- The rounding is the nearest integer, the even one of two. -/
theorem halfEven_nearest (x : ℚ) : NearestEven x (halfEven x) := by
  have hlow := Int.floor_le x
  have hhigh := Int.lt_floor_add_one x
  unfold halfEven
  dsimp only
  split
  next hdown =>
    have habs : |(⌊x⌋ : ℚ) - x| = x - ⌊x⌋ := by
      rw [abs_sub_comm, abs_of_nonneg (sub_nonneg.mpr hlow)]
    constructor
    case near =>
      rw [habs]
      rcases hdown with h | ⟨h, -⟩
      · exact h.le
      · exact h.le
    case even =>
      intro heq
      rw [habs] at heq
      rcases hdown with h | ⟨-, h⟩
      · exact absurd heq h.ne
      · exact h
  next hup =>
    obtain ⟨hfar, hodd⟩ := not_or.mp hup
    have hhalf := not_lt.mp hfar
    have habs : |((⌊x⌋ + 1 : Int) : ℚ) - x| = 1 - (x - ⌊x⌋) := by
      rw [Int.cast_add, Int.cast_one, abs_of_nonneg (by linarith only [hhigh])]
      ring
    constructor
    case near =>
      rw [habs]
      linarith only [hhalf]
    case even =>
      intro heq
      rw [habs] at heq
      have heven : ⌊x⌋ % 2 ≠ 0 := fun h => hodd ⟨by linarith only [heq], h⟩
      omega

theorem Decimal.NearestEven.mono {c d : Int} (hx : NearestEven x c)
    (hy : NearestEven y d) (hle : x ≤ y) : c ≤ d := by
  by_contra hnot
  have hstep : d + 1 ≤ c := by omega
  have hcast : (d : ℚ) + 1 ≤ c := by exact_mod_cast hstep
  have hxnear := abs_le.mp hx.near
  have hynear := abs_le.mp hy.near
  -- both are at a half between the same two integers
  have hc : (c : ℚ) - x = 1 / 2 := by linarith only [hcast, hxnear.2, hynear.1, hle]
  have hd : (d : ℚ) - y = -(1 / 2) := by linarith only [hcast, hxnear.2, hynear.1, hle]
  have hceven := hx.even (by rw [hc, abs_of_pos one_half_pos])
  have hdeven := hy.even (by rw [hd, abs_neg, abs_of_pos one_half_pos])
  have hbetween : c = d + 1 := by
    have heq : (c : ℚ) ≤ d + 1 := by linarith only [hc, hd, hle]
    have hle' : c ≤ d + 1 := by exact_mod_cast heq
    omega
  omega

theorem halfEven_mono : Monotone halfEven :=
  fun x y hle => (halfEven_nearest x).mono (halfEven_nearest y) hle

theorem halfEven_neg (x : ℚ) : halfEven (-x) = -halfEven x := by
  have hneg := (halfEven_nearest x).neg
  have hown := halfEven_nearest (-x)
  exact le_antisymm (hown.mono hneg le_rfl) (hneg.mono hown le_rfl)

/-- Up to an even number what is half below it is rounded up to it. -/
theorem halfEven_lt_iff (heven : n % 2 = 0) : halfEven x < n ↔ x < n - 1 / 2 := by
  obtain ⟨hnear, htie⟩ := halfEven_nearest x
  have hbounds := abs_le.mp hnear
  constructor
  · intro h
    have hle : (halfEven x : ℚ) ≤ n - 1 := by exact_mod_cast Int.le_sub_one_of_lt h
    refine lt_of_le_of_ne (by linarith only [hbounds.1, hle]) fun heq => ?_
    -- at the half the rounding would be the odd number below
    have hlast : (halfEven x : ℚ) = n - 1 := by linarith only [hbounds.1, hle, heq]
    have hodd := htie (by rw [hlast, heq]; norm_num [abs_div])
    have hint : halfEven x = n - 1 := by exact_mod_cast hlast
    omega
  · intro h
    have hlt : (halfEven x : ℚ) < n := by linarith only [hbounds.2, h]
    exact_mod_cast hlt

-- ==== to a unit

theorem quantize_mono (hunit : 0 < unit) : Monotone (quantize halfEven unit) := by
  intro x y hle
  apply mul_le_mul_of_nonneg_right _ hunit.le
  exact_mod_cast halfEven_mono (div_le_div_of_nonneg_right hle hunit.le)

theorem quantize_neg (unit x : ℚ) : quantize halfEven unit (-x) = -quantize halfEven unit x := by
  unfold quantize
  rw [neg_div, halfEven_neg, Int.cast_neg, neg_mul]

theorem quantize_units (hunit : unit ≠ 0) (n : Int) :
    quantize halfEven unit (n * unit) = n * unit := by
  unfold quantize
  rw [mul_div_cancel_right₀ _ hunit, halfEven_intCast]

theorem abs_quantize_sub_le (hunit : 0 < unit) (x : ℚ) :
    |quantize halfEven unit x - x| ≤ unit / 2 := by
  have hnear := (halfEven_nearest (x / unit)).near
  have hscale : quantize halfEven unit x - x = (halfEven (x / unit) - x / unit) * unit := by
    unfold quantize
    rw [sub_mul, div_mul_cancel₀ _ hunit.ne']
  rw [hscale, abs_mul, abs_of_pos hunit]
  have hmul := mul_le_mul_of_nonneg_right hnear hunit.le
  linarith only [hmul]

theorem le_quantize_of_lt (hunit : 0 < unit)
    (h : n * unit - unit / 2 < x) : n * unit ≤ quantize halfEven unit x := by
  have herror := abs_le.mp (abs_quantize_sub_le hunit x)
  have hlt : (n - 1) * unit < quantize halfEven unit x := by linarith only [herror.1, h]
  have hint : n - 1 < halfEven (x / unit) := by exact_mod_cast lt_of_mul_lt_mul_right hlt hunit.le
  apply mul_le_mul_of_nonneg_right _ hunit.le
  exact_mod_cast Int.sub_one_lt_iff.mp hint

theorem quantize_le_of_lt (hunit : 0 < unit)
    (h : x < n * unit + unit / 2) : quantize halfEven unit x ≤ n * unit := by
  have hneg := le_quantize_of_lt hunit (n := -n) (x := -x) (by
    rw [Int.cast_neg]
    linarith only [h])
  rw [quantize_neg, Int.cast_neg, neg_mul] at hneg
  exact neg_le_neg_iff.mp hneg

-- ==== to some digits

/-- The unit of a number's last significant digit. -/
def significantUnit (prec : Nat) (x : ℚ) : ℚ := (10 : ℚ) ^ (Int.log 10 |x| + 1 - prec)

theorem significantUnit_pos (prec : Nat) (x : ℚ) :
    0 < significantUnit prec x := zpow_pos (by norm_num) _

theorem roundSignificant_eq (prec : Nat) (x : ℚ) :
    roundSignificant prec x = quantize halfEven (significantUnit prec x) x := by
  unfold roundSignificant
  by_cases hx : x = 0
  · rw [if_pos hx, hx]
    unfold quantize
    rw [zero_div, show (0 : ℚ) = (0 : Int) from rfl, halfEven_intCast, Int.cast_zero, zero_mul]
  · rw [if_neg hx]
    rfl

theorem roundSignificant_of_bounds (hlow : (10 : ℚ) ^ e ≤ x) (hhigh : x < (10 : ℚ) ^ (e + 1)) :
    roundSignificant prec x = quantize halfEven ((10 : ℚ) ^ (e + 1 - prec)) x := by
  have hpos : 0 < x := (zpow_pos (by norm_num) e).trans_le hlow
  have hge : e ≤ Int.log 10 x :=
    (Int.zpow_le_iff_le_log (by norm_num) hpos).mp (by exact_mod_cast hlow)
  have hlt : Int.log 10 x < e + 1 :=
    (Int.lt_zpow_iff_log_lt (by norm_num) hpos).mp (by exact_mod_cast hhigh)
  have hlog : Int.log 10 |x| = e := by
    rw [abs_of_pos hpos]
    omega
  rw [roundSignificant_eq]
  unfold significantUnit
  rw [hlog]

theorem roundSignificant_neg (prec : Nat) (x : ℚ) :
    roundSignificant prec (-x) = -roundSignificant prec x := by
  rw [roundSignificant_eq, roundSignificant_eq, ← quantize_neg]
  unfold significantUnit
  rw [abs_neg]

theorem roundSignificant_nonneg (hx : 0 ≤ x) : 0 ≤ roundSignificant prec x := by
  rw [roundSignificant_eq]
  have hzero := quantize_units (significantUnit_pos prec x).ne' 0
  rw [Int.cast_zero, zero_mul] at hzero
  rw [← hzero]
  exact quantize_mono (significantUnit_pos prec x) hx

theorem exists_units {e f : Int} (h : f ≤ e) : ∃ n : Int, (10 : ℚ) ^ e = n * (10 : ℚ) ^ f := by
  obtain ⟨m, hm⟩ := Int.eq_ofNat_of_zero_le (sub_nonneg.mpr h)
  refine ⟨10 ^ m, ?_⟩
  rw [Int.cast_pow, ← zpow_natCast, ← hm, Int.cast_ofNat, ← zpow_add₀ (by norm_num), sub_add_cancel]

variable (hprec : 1 ≤ prec)

include hprec in
/-- Rounding to significant digits is monotone on positive numbers. -/
theorem roundSignificant_mono_pos (hx : 0 < x)
    (hle : x ≤ y) : roundSignificant prec x ≤ roundSignificant prec y := by
  have hy := hx.trans_le hle
  rw [roundSignificant_eq, roundSignificant_eq]
  have hlog : Int.log 10 |x| ≤ Int.log 10 |y| := by
    rw [abs_of_pos hx, abs_of_pos hy]
    exact Int.log_mono_right hx hle
  rcases hlog.eq_or_lt with heq | hlt
  · have hunit : significantUnit prec x = significantUnit prec y := by
      unfold significantUnit
      rw [heq]
    rw [hunit]
    exact quantize_mono (significantUnit_pos prec y) hle
  · -- the power of ten between the two is rounded to itself on both sides
    obtain ⟨n, hn⟩ := exists_units (show Int.log 10 |x| + 1 - prec ≤ Int.log 10 |x| + 1 by omega)
    obtain ⟨m, hm⟩ := exists_units (show Int.log 10 |y| + 1 - prec ≤ Int.log 10 |y| by omega)
    have hxlt : x ≤ n * significantUnit prec x := by
      unfold significantUnit
      rw [← hn]
      have hpow := Int.lt_zpow_succ_log_self (b := 10) (by norm_num) |x|
      rw [abs_of_pos hx] at hpow ⊢
      exact_mod_cast hpow.le
    have hyge : m * significantUnit prec y ≤ y := by
      unfold significantUnit
      rw [← hm]
      have hpow := Int.zpow_log_le_self (b := 10) (by norm_num) hy
      rw [abs_of_pos hy]
      exact_mod_cast hpow
    calc quantize halfEven (significantUnit prec x) x ≤ n * significantUnit prec x := by
          rw [← quantize_units (significantUnit_pos prec x).ne' n]
          exact quantize_mono (significantUnit_pos prec x) hxlt
      _ = (10 : ℚ) ^ (Int.log 10 |x| + 1) := hn.symm
      _ ≤ (10 : ℚ) ^ Int.log 10 |y| := zpow_le_zpow_right₀ (by norm_num) (by omega)
      _ = m * significantUnit prec y := hm
      _ ≤ quantize halfEven (significantUnit prec y) y := by
          rw [← quantize_units (significantUnit_pos prec y).ne' m]
          exact quantize_mono (significantUnit_pos prec y) hyge

include hprec in
theorem roundSignificant_mono : Monotone (roundSignificant prec) := by
  intro x y hle
  rcases lt_or_ge 0 x with hx | hx
  · exact roundSignificant_mono_pos hprec hx hle
  · rcases lt_or_ge y 0 with hy | hy
    · have hneg := roundSignificant_mono_pos hprec (neg_pos.mpr hy) (neg_le_neg hle)
      rw [roundSignificant_neg, roundSignificant_neg] at hneg
      exact neg_le_neg_iff.mp hneg
    · have hneg : 0 ≤ roundSignificant prec (-x) := roundSignificant_nonneg (neg_nonneg.mpr hx)
      rw [roundSignificant_neg] at hneg
      exact (neg_nonneg.mp hneg).trans (roundSignificant_nonneg hy)

include hprec in
theorem Exact.le_round (hx : Exact prec x) (hle : x ≤ y) : x ≤ roundSignificant prec y :=
  hx.symm.le.trans (roundSignificant_mono hprec hle)

include hprec in
theorem Exact.round_le (hy : Exact prec y) (hle : x ≤ y) : roundSignificant prec x ≤ y :=
  (roundSignificant_mono hprec hle).trans hy.le

-- ==== the error

theorem abs_roundSignificant_sub_le (hx : |x| < (10 : ℚ) ^ e) :
    |roundSignificant prec x - x| ≤ (10 : ℚ) ^ (e - prec) / 2 := by
  by_cases hzero : x = 0
  · have hround : roundSignificant prec x = 0 := if_pos hzero
    rw [hround, hzero, sub_zero, abs_zero]
    positivity
  · have hpos : 0 < |x| := abs_pos.mpr hzero
    have hlog : Int.log 10 |x| < e :=
      (Int.lt_zpow_iff_log_lt (by norm_num) hpos).mp (by exact_mod_cast hx)
    rw [roundSignificant_eq]
    apply (abs_quantize_sub_le (significantUnit_pos prec x) x).trans
    apply div_le_div_of_nonneg_right _ (by norm_num)
    exact zpow_le_zpow_right₀ (by norm_num) (by omega)

theorem abs_roundSignificant_sub_le_mul (x : ℚ) :
    |roundSignificant prec x - x| ≤ |x| * (5 / 10 ^ prec) := by
  by_cases hzero : x = 0
  · have hround : roundSignificant prec x = 0 := if_pos hzero
    rw [hround, hzero, sub_zero, abs_zero, zero_mul]
  · have hpos : 0 < |x| := abs_pos.mpr hzero
    have hlow : (10 : ℚ) ^ Int.log 10 |x| ≤ |x| := by
      exact_mod_cast Int.zpow_log_le_self (b := 10) (by norm_num) hpos
    rw [roundSignificant_eq]
    apply (abs_quantize_sub_le (significantUnit_pos prec x) x).trans
    have hunit : significantUnit prec x / 2 = (10 : ℚ) ^ Int.log 10 |x| * (5 / 10 ^ prec) := by
      unfold significantUnit
      rw [zpow_sub₀ (by norm_num), zpow_add₀ (by norm_num), zpow_one, zpow_natCast]
      ring
    rw [hunit]
    exact mul_le_mul_of_nonneg_right hlow (by positivity)

theorem exact_of_multiple {e n : Int} (hy : y = n * (10 : ℚ) ^ (e - prec))
    (hlt : |y| < (10 : ℚ) ^ e) : Exact prec y := by
  by_cases hzero : y = 0
  · exact hzero ▸ if_pos rfl
  · have hlog : Int.log 10 |y| < e :=
      (Int.lt_zpow_iff_log_lt (by norm_num) (abs_pos.mpr hzero)).mp (by exact_mod_cast hlt)
    obtain ⟨m, hm⟩ := exists_units (show Int.log 10 |y| + 1 - prec ≤ e - prec by omega)
    apply exact_of_units (n := n * m)
    rw [Int.cast_mul, mul_assoc, ← hm]
    exact hy

include hprec in
theorem exact_zpow (e : Int) : Exact prec ((10 : ℚ) ^ e) := by
  obtain ⟨n, hn⟩ := exists_units (show e + 1 - prec ≤ e by omega)
  apply exact_of_multiple hn
  rw [abs_of_pos (zpow_pos (by norm_num) _)]
  exact zpow_lt_zpow_right₀ (by norm_num) (by omega)

include hprec in
/-- A number stays below a power of ten unless it is within half a unit of
it. -/
theorem roundSignificant_lt_zpow :
    roundSignificant prec x < (10 : ℚ) ^ e ↔ x < (10 : ℚ) ^ e - (10 : ℚ) ^ (e - prec) / 2 := by
  have hunit : (0 : ℚ) < 10 ^ (e - prec) := zpow_pos (by norm_num) _
  have hten : (10 : ℚ) ^ e = 10 * 10 ^ (e - 1) := by
    rw [zpow_sub_one₀ (by norm_num)]
    ring
  by_cases habove : (10 : ℚ) ^ e ≤ x
  · have hround := (exact_zpow hprec e).le_round hprec habove
    exact iff_of_false hround.not_gt (by linarith only [habove, hunit])
  · by_cases hlow : (10 : ℚ) ^ (e - 1) ≤ x
    · have hbound : x < (10 : ℚ) ^ (e - 1 + 1) := by rwa [sub_add_cancel, ← not_le]
      have hscale : (10 : ℚ) ^ e = ((10 ^ prec : Int) : ℚ) * 10 ^ (e - prec) := by
        push_cast
        rw [← zpow_natCast, ← zpow_add₀ (by norm_num), add_sub_cancel]
      have heven : (10 ^ prec : Int) % 2 = 0 :=
        Int.emod_eq_zero_of_dvd (dvd_pow (by norm_num) (by omega))
      rw [roundSignificant_of_bounds hlow hbound, sub_add_cancel, hscale, quantize,
        mul_lt_mul_iff_left₀ hunit, Int.cast_lt, halfEven_lt_iff heven, div_lt_iff₀ hunit, sub_mul,
        one_div_mul_eq_div]
    · have hround := (exact_zpow hprec (e - 1)).round_le hprec (not_le.mp hlow).le
      have hstep : (10 : ℚ) ^ (e - prec) ≤ 10 ^ (e - 1) :=
        zpow_le_zpow_right₀ (by norm_num) (by omega)
      have hpos : (0 : ℚ) < 10 ^ (e - 1) := zpow_pos (by norm_num) _
      refine iff_of_true ?_ ?_
      · linarith only [hround, hten, hpos]
      · linarith only [not_le.mp hlow, hten, hpos, hstep]

include hprec in
/-- One less than a rounded number is exact, as long as the unit is not
above one. -/
theorem exact_sub_one (hx : 1 ≤ x) (hlt : x < (10 : ℚ) ^ (prec : Int)) :
    Exact prec (roundSignificant prec x - 1) := by
  have hpos : 0 < x := zero_lt_one.trans_le hx
  have hone : 1 ≤ roundSignificant prec x := (exact_zpow hprec 0).le_round hprec hx
  have hlog : Int.log 10 x < prec :=
    (Int.lt_zpow_iff_log_lt (by norm_num) hpos).mp (by exact_mod_cast hlt)
  have hceil : roundSignificant prec x ≤ (10 : ℚ) ^ (Int.log 10 x + 1) := by
    apply (exact_zpow hprec _).round_le hprec
    have hpow := Int.lt_zpow_succ_log_self (b := 10) (by norm_num) x
    exact_mod_cast hpow.le
  obtain ⟨m, hm⟩ := exists_units (show Int.log 10 x + 1 - prec ≤ 0 by omega)
  rw [zpow_zero] at hm
  apply exact_of_multiple (e := Int.log 10 x + 1) (n := halfEven (x / significantUnit prec x) - m)
  · rw [Int.cast_sub, sub_mul, ← hm, roundSignificant_eq]
    unfold quantize significantUnit
    rw [abs_of_pos hpos]
  · rw [abs_of_nonneg (sub_nonneg.mpr hone)]
    linarith only [hceil]

include hprec in
theorem roundSignificant_pos (hx : 0 < x) : 0 < roundSignificant prec x := by
  have hlow : (10 : ℚ) ^ Int.log 10 x ≤ x := by
    exact_mod_cast Int.zpow_log_le_self (b := 10) (by norm_num) hx
  exact (zpow_pos (by norm_num) _).trans_le ((exact_zpow hprec _).le_round hprec hlow)

include hprec in
theorem roundSignificant_neg_iff : roundSignificant prec x < 0 ↔ x < 0 := by
  constructor
  · intro h
    by_contra hx
    exact absurd h (not_lt.mpr (roundSignificant_nonneg (not_lt.mp hx)))
  · intro h
    have hpos := roundSignificant_pos hprec (neg_pos.mpr h)
    rw [roundSignificant_neg] at hpos
    exact neg_pos.mp hpos

theorem roundSignificant_le_mul (hx : 0 ≤ x) :
    roundSignificant prec x ≤ x * (1 + 5 / 10 ^ prec) := by
  have herror : roundSignificant prec x - x ≤ |x| * (5 / 10 ^ prec) :=
    (abs_le.mp (abs_roundSignificant_sub_le_mul x)).2
  rw [abs_of_nonneg hx] at herror
  linarith only [herror]

-- ==== sums

theorem sumContext_concat (l : List ℚ) (x : ℚ) : sumContext prec (l ++ [x])
    = roundSignificant prec (sumContext prec l + x) := by
  unfold sumContext
  rw [foldl_append]
  rfl

variable {l : List ℚ}

theorem sumContext_nonneg (h : ∀ x ∈ l, 0 ≤ x) : 0 ≤ sumContext prec l := by
  induction l using List.reverseRecOn with
  | nil => exact le_rfl
  | append_singleton l x ih =>
    rw [sumContext_concat]
    apply roundSignificant_nonneg
    exact add_nonneg (ih fun y hy => h y (mem_append_left [x] hy))
      (h x (mem_append_right l mem_cons_self))

theorem sumContext_zero (h : ∀ x ∈ l, x = 0) : sumContext prec l = 0 := by
  induction l using List.reverseRecOn with
  | nil => rfl
  | append_singleton l x ih =>
    rw [sumContext_concat, ih fun y hy => h y (mem_append_left [x] hy),
      h x (mem_append_right l mem_cons_self), add_zero]
    exact if_pos rfl

theorem exact_natCast_div {k d : Nat} (hk : k < 10 ^ prec) : Exact prec ((k : ℚ) / 10 ^ d) := by
  have h : Exact prec (((k : Int) : ℚ) / 10 ^ d) := exact_of_scaled (by exact_mod_cast hk)
  rwa [Int.cast_natCast] at h

variable {d K : Nat}

include hprec in
/-- The least number of `d` places above one that the context has is one
the context has too. -/
theorem exact_succ (hK : K < 10 ^ prec) : Exact prec (((K + 1 : Nat) : ℚ) / 10 ^ d) := by
  rcases (show K + 1 ≤ 10 ^ prec from hK).lt_or_eq with hlt | heq
  · exact exact_natCast_div hlt
  · rw [heq, Nat.cast_pow, Nat.cast_ofNat, ← zpow_natCast, ← zpow_natCast,
      ← zpow_sub₀ (by norm_num)]
    exact exact_zpow hprec _

include hprec in
/-- Nonnegative numbers of `d` places are summed exactly as long as the sum
is below one that the context has, and never back below it. -/
theorem sumContext_cases (hK : K < 10 ^ prec) (hl : ∀ x ∈ l, ∃ k : Nat, x = (k : ℚ) / 10 ^ d) :
    ∃ m : Nat, l.sum = (m : ℚ) / 10 ^ d ∧ ((m ≤ K ∧ sumContext prec l = l.sum)
        ∨ (K < m ∧ ((K + 1 : Nat) : ℚ) / 10 ^ d ≤ sumContext prec l)) := by
  have hplace : (0 : ℚ) < 10 ^ d := by positivity
  induction l using List.reverseRecOn with
  | nil => exact ⟨0, by simp, .inl ⟨Nat.zero_le K, rfl⟩⟩
  | append_singleton l x ih =>
    obtain ⟨m, hm, hcases⟩ := ih fun y hy => hl y (mem_append_left [x] hy)
    obtain ⟨k, rfl⟩ := hl x (mem_append_right l mem_cons_self)
    have htotal : l.sum + (k : ℚ) / 10 ^ d = ((m + k : Nat) : ℚ) / 10 ^ d := by
      rw [hm, ← add_div, Nat.cast_add]
    refine ⟨m + k, ?_, ?_⟩
    · rw [sum_append, sum_singleton, htotal]
    · rw [sumContext_concat, sum_append, sum_singleton]
      rcases hcases with ⟨hle, hsum⟩ | ⟨hlt, hsum⟩
      · rw [hsum, htotal]
        by_cases hmore : m + k ≤ K
        · left
          exact ⟨hmore, exact_natCast_div (hmore.trans_lt hK)⟩
        · right
          refine ⟨by omega, (exact_succ hprec hK).le_round hprec ?_⟩
          apply div_le_div_of_nonneg_right _ hplace.le
          exact_mod_cast (by omega : K + 1 ≤ m + k)
      · right
        refine ⟨by omega, (exact_succ hprec hK).le_round hprec ?_⟩
        have hk : (0 : ℚ) ≤ (k : ℚ) / 10 ^ d := by positivity
        linarith only [hsum, hk]

include hprec in
/-- A sum of nonnegative numbers of `d` places is within such a number in
the context exactly when it is. -/
theorem sumContext_le_iff (hK : K < 10 ^ prec) (hl : ∀ x ∈ l, ∃ k : Nat, x = (k : ℚ) / 10 ^ d) :
    sumContext prec l ≤ (K : ℚ) / 10 ^ d ↔ l.sum ≤ (K : ℚ) / 10 ^ d := by
  have hplace : (0 : ℚ) < 10 ^ d := by positivity
  obtain ⟨m, hm, ⟨-, hsum⟩ | ⟨hlt, hsum⟩⟩ := sumContext_cases hprec hK hl
  · rw [hsum]
  · have hstep : (K : ℚ) / 10 ^ d < ((K + 1 : Nat) : ℚ) / 10 ^ d := by
      apply div_lt_div_of_pos_right _ hplace
      exact_mod_cast Nat.lt_succ_self K
    have habove : (K : ℚ) / 10 ^ d < l.sum := by
      rw [hm]
      apply div_lt_div_of_pos_right _ hplace
      exact_mod_cast hlt
    exact iff_of_false (not_le.mpr (hstep.trans_le hsum)) (not_le.mpr habove)

-- ==== multiples

/-- A multiple of the unit. -/
def OnGrid (unit x : ℚ) : Prop := ∃ n : Int, x = n * unit

variable {unit x y limit used : ℚ}

theorem onGrid_zero (unit : ℚ) : OnGrid unit 0 := ⟨0, by simp⟩

theorem onGrid_quantize (round : ℚ → Int) (unit x : ℚ) :
    OnGrid unit (quantize round unit x) := ⟨round (x / unit), rfl⟩

theorem OnGrid.add (hx : OnGrid unit x) (hy : OnGrid unit y) : OnGrid unit (x + y) := by
  obtain ⟨n, rfl⟩ := hx
  obtain ⟨m, rfl⟩ := hy
  exact ⟨n + m, by push_cast; ring⟩

theorem OnGrid.sub (hx : OnGrid unit x) (hy : OnGrid unit y) : OnGrid unit (x - y) := by
  obtain ⟨n, rfl⟩ := hx
  obtain ⟨m, rfl⟩ := hy
  exact ⟨n - m, by push_cast; ring⟩

theorem OnGrid.quantize_eq (hunit : unit ≠ 0) (hx : OnGrid unit x) :
    quantize halfEven unit x = x := by
  obtain ⟨n, rfl⟩ := hx
  exact quantize_units hunit n

theorem quantize_zero (hunit : unit ≠ 0) : quantize halfEven unit 0 = 0 :=
  (onGrid_zero unit).quantize_eq hunit

theorem quantize_nonneg (hunit : 0 < unit) (hx : 0 ≤ x) : 0 ≤ quantize halfEven unit x := by
  rw [← quantize_zero hunit.ne']
  exact quantize_mono hunit hx

theorem OnGrid.quantize_le (hunit : 0 < unit) (hy : OnGrid unit y) (h : x ≤ y) :
    quantize halfEven unit x ≤ y := by
  rw [← hy.quantize_eq hunit.ne']
  exact quantize_mono hunit h

-- ==== limits

/-- An amount keeps to a limit, up to half a unit where the limit is not a multiple of
the unit. -/
structure Within (unit limit x : ℚ) : Prop where
  slack : x ≤ limit + unit / 2
  exact : OnGrid unit limit → x ≤ limit

theorem within_of_le_quantize (hunit : 0 < unit)
    (h : x ≤ quantize halfEven unit limit) : Within unit limit x where
  slack := by
    have herror := (abs_le.mp (abs_quantize_sub_le hunit limit)).2
    linarith only [h, herror]
  exact := fun hgrid => by rwa [hgrid.quantize_eq hunit.ne'] at h

theorem Within.of_le (h : Within unit limit y) (hle : x ≤ y) :
    Within unit limit x :=
  ⟨hle.trans h.slack, fun hgrid => hle.trans (h.exact hgrid)⟩

theorem Within.add_rounded (hunit : 0 < unit) (h : Within unit limit used)
    (hused : OnGrid unit used)
    (hx : x ≤ quantize halfEven unit (max 0 (limit - used))) :
    Within unit limit (used + x) := by
  rcases le_total used limit with hle | hle
  · -- something is left, and it is a multiple when the limit is
    rw [max_eq_right (sub_nonneg.mpr hle)] at hx
    have hrest := within_of_le_quantize hunit hx
    constructor
    case slack =>
      have hslack := hrest.slack
      linarith only [hslack]
    case exact =>
      intro hgrid
      have hexact := hrest.exact (hgrid.sub hused)
      linarith only [hexact]
  · -- nothing is left
    rw [max_eq_left (sub_nonpos.mpr hle), quantize_zero hunit.ne'] at hx
    exact h.of_le (by linarith only [hx])

-- ==== budgets

section Budget

variable {K : Type _} [Field K] [LinearOrder K] [IsStrictOrderedRing K]
  {budget slack spent remaining cost : K}

/-- What has been spent of a budget and what remains of it: together the budget, or
else nothing remains and a slack has been overdrawn. -/
structure Spent (budget slack spent remaining : K) : Prop where
  nonneg : 0 ≤ remaining
  covered : spent + remaining ≤ budget ∨ remaining = 0 ∧ spent ≤ budget + slack

omit [IsStrictOrderedRing K] in
theorem Spent.start (hbudget : 0 ≤ budget) : Spent budget slack 0 budget :=
  ⟨hbudget, Or.inl (by rw [zero_add])⟩

variable (h : Spent budget slack spent remaining)

include h in
theorem Spent.pay (hcost : 0 ≤ cost) (hle : cost ≤ remaining) :
    Spent budget slack (spent + cost) (remaining - cost) := by
  refine ⟨sub_nonneg.mpr hle, ?_⟩
  rcases h.covered with hcovered | ⟨hzero, hspent⟩
  · left
    linarith only [hcovered]
  · right
    have hnone : cost = 0 := le_antisymm (hzero ▸ hle) hcost
    rw [hnone, sub_zero, add_zero]
    exact ⟨hzero, hspent⟩

include h in
theorem Spent.rest (hle : cost ≤ remaining + slack) (hzero : remaining = 0 → cost ≤ 0) :
    Spent budget slack (spent + cost) 0 := by
  refine ⟨le_refl 0, Or.inr ⟨rfl, ?_⟩⟩
  rcases h.covered with hcovered | ⟨hnone, hspent⟩
  · linarith only [hcovered, hle]
  · have hcost := hzero hnone
    linarith only [hspent, hcost]

include h in
theorem Spent.le (hslack : 0 ≤ slack) : spent ≤ budget + slack := by
  have hnonneg := h.nonneg
  rcases h.covered with hcovered | ⟨-, hspent⟩
  · linarith only [hcovered, hnonneg, hslack]
  · exact hspent

end Budget

end MarketRegimeAlpha.Lib
