/-
Fixed-scale decimals, as `numeric(precision, scale)` stores them.

# Two contexts

`bounded_decimal` widens the context for `quantize`, but takes the absolute
value in the context of its caller, which rounds it to `ambient` significant
digits. A number just below the limit that has more digits than that is
rounded up to the limit and refused (`NearLimit`).
-/
import MarketRegimeAlpha.Lib.Checked
import MarketRegimeAlpha.Lib.HalfEven

namespace MarketRegimeAlpha.Shared

open Lib List
open Lib.Decimal (digitCount)

/-- A `Decimal`. -/
inductive DecimalInput where
  | finite (d : Decimal)
  | infinity (negative : Bool)
  | nan (signaling : Bool)

/-- `value.quantize(Decimal(1).scaleb(-scale))` in a context of precision
`prec`, if it is not `InvalidOperation`. -/
def quantizeScale (prec scale : Nat) (value : Decimal) : Option Decimal :=
  let coefficient := (halfEven (|value.value| * 10 ^ scale)).natAbs
  if digitCount coefficient ≤ prec then some ⟨value.negative, coefficient, -scale⟩ else none

/-- `f"{field} exceeds numeric({precision}, {scale})"`. -/
def exceeds (field : String) (precision scale : Nat) : String :=
  field ++ " exceeds numeric(" ++ toString precision ++ ", " ++ toString scale ++ ")"

def boundedDecimal (ambient : Nat) (field : String) (precision scale : Nat) :
    DecimalInput → Except Raised Decimal
  | .finite value => do
      let canonical ← (quantizeScale (precision + scale + 2) scale value).elim
        (.error (.valueError (exceeds field precision scale))) .ok
      Lib.require (canonical.value = value.value)
        (.valueError (exceeds field precision scale ++ " scale"))
      Lib.require (roundSignificant ambient |canonical.value| < 10 ^ ((precision : Int) - scale))
        (.valueError (exceeds field precision scale ++ " precision"))
      return if canonical.value = 0 then { canonical with negative := false } else canonical
  | _ => .error (.valueError (field ++ " must be finite"))

variable {ambient precision scale : Nat} {field : String}

/-- `numeric(precision, scale)` holds the number. -/
structure Fits (precision scale : Nat) (x : ℚ) : Prop where
  integral : ∃ n : Int, x * 10 ^ scale = n
  below : |x| < 10 ^ ((precision : Int) - scale)

/-- The number is rounded up to the limit. -/
def NearLimit (ambient precision scale : Nat) (x : ℚ) : Prop :=
  (10 : ℚ) ^ ((precision : Int) - scale) - 10 ^ ((precision : Int) - scale - ambient) / 2 ≤ |x|

/-- What is promised of one input. -/
structure BoundedDecimalLaw (ambient : Nat) (field : String) (precision scale : Nat)
    (value : DecimalInput) : Prop where
  returns : (∃ canonical, boundedDecimal ambient field precision scale value = .ok canonical) ↔
    ∃ d, value = .finite d ∧ Fits precision scale d.value
  canonical : ∀ d canonical, value = .finite d →
    boundedDecimal ambient field precision scale value = .ok canonical →
    canonical.value = d.value ∧ canonical.exponent = -scale
      ∧ (canonical.coefficient = 0 → canonical.negative = false)
      ∧ boundedDecimal ambient field precision scale (.finite canonical) = .ok canonical
      ∧ ∀ other canonical', other.value = d.value →
        boundedDecimal ambient field precision scale (.finite other) = .ok canonical' →
        canonical' = canonical

-- ==== the result

/-- The one triple of the scale for a number. -/
def canonicalOf (scale : Nat) (x : ℚ) : Decimal :=
  ⟨decide (x < 0), (halfEven (|x| * 10 ^ scale)).natAbs, -scale⟩

variable (d : Decimal)

theorem value_eq :
    d.value = (if d.negative then -1 else 1) * (d.coefficient * (10 : ℚ) ^ d.exponent) :=
  mul_assoc _ _ _

theorem abs_value : |d.value| = d.coefficient * (10 : ℚ) ^ d.exponent := by
  rw [value_eq]
  cases d.negative with
  | false => simp
  | true => simp

theorem negative_eq {d : Decimal} (h : d.value ≠ 0) : d.negative = decide (d.value < 0) := by
  have hpos : 0 < d.coefficient * (10 : ℚ) ^ d.exponent := abs_value d ▸ abs_pos.mpr h
  rw [value_eq]
  cases d.negative with
  | false => simpa using hpos.le
  | true => simpa using hpos

variable {x : ℚ}

/-- The rounding to the scale leaves a number as it is exactly if it is a
multiple of the unit. -/
theorem coefficient_eq_iff : ((halfEven (|x| * 10 ^ scale)).natAbs : ℚ) = |x| * 10 ^ scale ↔
    ∃ n : Int, x * 10 ^ scale = n := by
  have hpow : (0 : ℚ) < 10 ^ scale := by positivity
  constructor
  · intro h
    rcases abs_choice x with hx | hx
    · exact ⟨_, (hx ▸ h.symm : x * 10 ^ scale = _).trans (Int.cast_natCast _).symm⟩
    · refine ⟨-(halfEven (|x| * 10 ^ scale)).natAbs, ?_⟩
      rw [Int.cast_neg, Int.cast_natCast, h, hx, neg_mul, neg_neg]
  · rintro ⟨n, hn⟩
    have habs : |x| * 10 ^ scale = ((|n| : Int) : ℚ) := by
      rw [Int.cast_abs, ← hn, abs_mul, abs_of_pos hpow]
    rw [habs, halfEven_intCast, Int.natAbs_abs, Nat.cast_natAbs]

theorem value_quantized (coefficient scale : Nat) :
    (Decimal.mk d.negative coefficient (-scale)).value = d.value ↔
      (coefficient : ℚ) = |d.value| * 10 ^ scale := by
  have hsign : (if d.negative then (-1 : ℚ) else 1) ≠ 0 := by
    cases d.negative <;> norm_num
  have hd : d.value = (if d.negative then -1 else 1) * |d.value| := by
    rw [abs_value, ← value_eq]
  generalize |d.value| = x at hd ⊢
  rw [hd, value_eq, mul_right_inj' hsign, zpow_neg, zpow_natCast, ← div_eq_mul_inv,
    div_eq_iff (by positivity)]

theorem value_canonicalOf (h : ∃ n : Int, x * 10 ^ scale = n) :
    (canonicalOf scale x).value = x := by
  have hpow : (10 : ℚ) ^ scale ≠ 0 := by positivity
  rw [value_eq, canonicalOf, coefficient_eq_iff.mpr h, zpow_neg, zpow_natCast,
    mul_inv_cancel_right₀ hpow]
  rcases lt_or_ge x 0 with hx | hx
  · simp [hx, abs_of_neg hx]
  · simp [hx, abs_of_nonneg hx]

theorem canonicalOf_of_value {d : Decimal} (h : d.value = x) :
    (if d.value = 0 then { d with negative := false } else d)
      = ⟨decide (x < 0), d.coefficient, d.exponent⟩ := by
  subst h
  by_cases hzero : d.value = 0
  · rw [if_pos hzero, hzero]
    rfl
  · rw [if_neg hzero, ← negative_eq hzero]

/-- What is returned, and when. -/
theorem boundedDecimal_ok (hambient : 1 ≤ ambient) {d canonical : Decimal} :
    boundedDecimal ambient field precision scale (.finite d) = .ok canonical ↔
      Fits precision scale d.value ∧ ¬ NearLimit ambient precision scale d.value
        ∧ canonical = canonicalOf scale d.value := by
  have hbelow : ¬ NearLimit ambient precision scale d.value ↔
      roundSignificant ambient |d.value| < (10 : ℚ) ^ ((precision : Int) - scale) := by
    rw [roundSignificant_lt_zpow hambient, NearLimit, not_le]
  have hunit : (0 : ℚ) < 10 ^ ((precision : Int) - scale - ambient) := zpow_pos (by norm_num) _
  rw [hbelow]
  unfold boundedDecimal quantizeScale
  constructor
  · intro h
    obtain ⟨rounded, hrounded, h⟩ := bind_ok.mp h
    by_cases hdigits : digitCount (halfEven (|d.value| * 10 ^ scale)).natAbs ≤ precision + scale + 2
    · rw [if_pos hdigits] at hrounded
      obtain rfl := Except.ok.inj hrounded
      simp only [bind_ok, require_ok, pure_ok] at h
      obtain ⟨_, hvalue, _, hlimit, rfl⟩ := h
      rw [hvalue] at hlimit
      refine ⟨⟨coefficient_eq_iff.mp ((value_quantized d _ scale).mp hvalue), ?_⟩, ?_, ?_⟩
      · have hlt := (roundSignificant_lt_zpow hambient).mp hlimit
        linarith only [hlt, hunit]
      · exact hlimit
      · exact canonicalOf_of_value hvalue
    · rw [if_neg hdigits] at hrounded
      cases hrounded
  · rintro ⟨hfits, hlimit, rfl⟩
    have hcoefficient := coefficient_eq_iff.mpr hfits.integral
    have hdigits : digitCount (halfEven (|d.value| * 10 ^ scale)).natAbs
        ≤ precision + scale + 2 := by
      have hle : (halfEven (|d.value| * 10 ^ scale)).natAbs ≤ 10 ^ precision := by
        have hmul := mul_le_mul_of_nonneg_right hfits.below.le (by positivity : (0 : ℚ) ≤ 10 ^ scale)
        rw [← hcoefficient, ← zpow_natCast, ← zpow_add₀ (by norm_num), sub_add_cancel,
          zpow_natCast] at hmul
        exact_mod_cast hmul
      have hlog := Nat.log_mono_right (b := 10) hle
      rw [Nat.log_pow (by norm_num)] at hlog
      unfold digitCount
      omega
    have hvalue := (value_quantized d _ scale).mpr hcoefficient
    dsimp only
    rw [if_pos hdigits]
    simp only [Option.elim, ok_bind]
    rw [require_true hvalue, ok_bind, require_true (by rw [hvalue]; exact hlimit), ok_bind]
    exact congrArg Except.ok (canonicalOf_of_value hvalue)

/-- In a context of `ambient` digits the promise is kept unless the number
is rounded up to the limit. -/
theorem bounded_decimal_law_iff (hambient : 1 ≤ ambient) (field : String)
    (precision scale : Nat) (value : DecimalInput) :
    BoundedDecimalLaw ambient field precision scale value ↔
      ∀ d, value = .finite d → Fits precision scale d.value →
        ¬ NearLimit ambient precision scale d.value := by
  constructor
  · rintro ⟨hreturns, -⟩ d rfl hfits
    obtain ⟨canonical, h⟩ := hreturns.mpr ⟨d, rfl, hfits⟩
    exact ((boundedDecimal_ok hambient).mp h).2.1
  · intro hnear
    constructor
    case returns =>
      constructor
      · rintro ⟨canonical, h⟩
        cases value with
        | finite d => exact ⟨d, rfl, ((boundedDecimal_ok hambient).mp h).1⟩
        | infinity => cases h
        | nan => cases h
      · rintro ⟨d, rfl, hfits⟩
        exact ⟨_, (boundedDecimal_ok hambient).mpr ⟨hfits, hnear d rfl hfits, rfl⟩⟩
    case canonical =>
      rintro d canonical rfl h
      obtain ⟨hfits, hlimit, rfl⟩ := (boundedDecimal_ok hambient).mp h
      have hvalue := value_canonicalOf hfits.integral
      refine ⟨hvalue, rfl, fun hzero => ?_, ?_, ?_⟩
      · have hplain : d.value = 0 := by
          rw [← hvalue, value_eq, hzero]
          simp
        simp [canonicalOf, hplain]
      · rw [boundedDecimal_ok hambient, hvalue]
        exact ⟨hfits, hlimit, rfl⟩
      · intro other canonical' heq h'
        rw [((boundedDecimal_ok hambient).mp h').2.2, heq]

theorem bounded_decimal_law_one : BoundedDecimalLaw 28 "amount" 38 10 (.finite ⟨false, 1, 0⟩) := by
  refine (bounded_decimal_law_iff (by decide) _ _ _ _).mpr ?_
  rintro d ⟨⟩ - hnear
  norm_num [NearLimit, Decimal.value] at hnear

/-- `9999999999999999999999999999.9999999999` fits `numeric(38, 10)`. -/
theorem nines_rejected :
    ¬ BoundedDecimalLaw 28 "amount" 38 10 (.finite ⟨false, 10 ^ 38 - 1, -10⟩) := by
  rintro ⟨hreturns, -⟩
  obtain ⟨canonical, h⟩ := hreturns.mpr ⟨_, rfl, ⟨10 ^ 38 - 1, by norm_num [Decimal.value]⟩,
    by norm_num [Decimal.value]⟩
  exact ((boundedDecimal_ok (by decide)).mp h).2.1 (by norm_num [NearLimit, Decimal.value])

end MarketRegimeAlpha.Shared
