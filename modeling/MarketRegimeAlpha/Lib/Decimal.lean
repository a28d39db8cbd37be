/-
Decimal numbers: a sign, a coefficient and a power of ten, and the
correctly rounded quotient of two integers.

# Division

`divide precision n d` is the quotient `n / d` rounded half-even to
`precision` significant digits. The quotient is scaled by the power of
ten that leaves `precision` digits before the point and divided with
remainder; the remainder rounds it. A quotient that comes out exactly
keeps as few trailing zeros as an exponent of at most 0 allows, as the
ideal exponent of two integers is 0.

# The specification

`RoundsTo precision q v` says what a rounding is, with no algorithm:
some power of ten scales `q` to `precision` digits before the point, and
`v` scaled the same way is the integer nearest to it, the even one of
two. `divide_rounds` is that `divide` meets it.
-/
import Mathlib.Algebra.Order.Field.Power
import Mathlib.Data.Nat.Log
import Mathlib.Tactic.FieldSimp
import Mathlib.Tactic.Linarith
import Mathlib.Tactic.Positivity
import Mathlib.Tactic.Ring

namespace MarketRegimeAlpha.Lib

/-- A finite decimal number. -/
structure Decimal where
  negative : Bool
  coefficient : Nat
  exponent : Int

namespace Decimal

/-- The number a decimal stands for. -/
def value (d : Decimal) : ℚ :=
  (if d.negative then -1 else 1) * d.coefficient * (10 : ℚ) ^ d.exponent

def digitCount (n : Nat) : Nat := Nat.log 10 n + 1

-- ==== rounding to an integer

/-- The integer nearest to a number, the even one of two. -/
structure NearestEven (t : ℚ) (c : ℤ) : Prop where
  near : |(c : ℚ) - t| ≤ 1 / 2
  even : |(c : ℚ) - t| = 1 / 2 → c % 2 = 0

/-- The quotient of two naturals, rounded half-even. -/
def divHalfEven (m k : Nat) : Nat :=
  if k < 2 * (m % k) ∨ (2 * (m % k) = k ∧ m / k % 2 = 1) then m / k + 1
  else m / k

variable {m k : Nat}

theorem div_eq_add_fraction (hk : 0 < k) :
    (m : ℚ) / k = (m / k : Nat) + ((m % k : Nat) : ℚ) / k := by
  have hm : ((k * (m / k) + m % k : Nat) : ℚ) = m := by rw [Nat.div_add_mod]
  field_simp
  rw [← hm]
  push_cast
  ring

/-- Rounding a number by its fraction: up past a half, to the even side
at a half, down below. -/
theorem nearestEven_of_fraction {w c : Nat} {f : ℚ} (hf0 : 0 ≤ f) (hf1 : f < 1)
    (hc : (1 / 2 < f ∧ c = w + 1) ∨ (f = 1 / 2 ∧ c % 2 = 0 ∧ (c = w ∨ c = w + 1))
      ∨ (f < 1 / 2 ∧ c = w)) : NearestEven (w + f) c := by
  have hdown : c = w → ((c : ℤ) : ℚ) - (w + f) = -f := by
    rintro rfl
    push_cast
    ring
  have hup : c = w + 1 → ((c : ℤ) : ℚ) - (w + f) = 1 - f := by
    rintro rfl
    push_cast
    ring
  have hup0 : 0 ≤ 1 - f := by linarith
  rcases hc with ⟨hf, hc⟩ | ⟨hf, heven, hc⟩ | ⟨hf, hc⟩
  · refine ⟨?_, fun habs => ?_⟩
    · rw [hup hc, abs_of_nonneg hup0]
      linarith
    · rw [hup hc, abs_of_nonneg hup0] at habs
      linarith
  · refine ⟨?_, fun _ => by omega⟩
    rcases hc with hc | hc
    · rw [hdown hc, abs_neg, abs_of_nonneg hf0]
      linarith
    · rw [hup hc, abs_of_nonneg hup0]
      linarith
  · refine ⟨?_, fun habs => ?_⟩
    · rw [hdown hc, abs_neg, abs_of_nonneg hf0]
      linarith
    · rw [hdown hc, abs_neg, abs_of_nonneg hf0] at habs
      linarith

/-- The rounded quotient is the integer nearest to the quotient. -/
theorem divHalfEven_nearest (hk : 0 < k) : NearestEven ((m : ℚ) / k) (divHalfEven m k) := by
  have hk' : (0 : ℚ) < k := by positivity
  rw [div_eq_add_fraction hk]
  have hr : m % k < k := Nat.mod_lt m hk
  unfold divHalfEven
  generalize m / k = w
  generalize m % k = r at hr ⊢
  -- the remainder compares with half the divisor as the fraction does
  -- with a half
  have hlt : k < 2 * r ↔ 1 / 2 < (r : ℚ) / k := by
    rw [lt_div_iff₀ hk', ← Nat.cast_lt (α := ℚ)]
    push_cast
    constructor <;> intro h <;> linarith
  have heq : 2 * r = k ↔ (r : ℚ) / k = 1 / 2 := by
    rw [div_eq_iff hk'.ne', ← Nat.cast_inj (R := ℚ)]
    push_cast
    constructor <;> intro h <;> linarith
  refine nearestEven_of_fraction (by positivity) ?_ ?_
  · rw [div_lt_one hk']
    exact_mod_cast hr
  · rcases lt_trichotomy (1 / 2) ((r : ℚ) / k) with h | h | h
    · left
      rw [if_pos (Or.inl (hlt.mpr h))]
      exact ⟨h, rfl⟩
    · right
      left
      have hhalf := heq.mpr h.symm
      refine ⟨h.symm, ?_⟩
      by_cases hodd : w % 2 = 1
      · rw [if_pos (Or.inr ⟨hhalf, hodd⟩)]
        omega
      · rw [if_neg (by omega)]
        omega
    · right
      right
      have hnot : ¬ k < 2 * r := fun h' => lt_asymm h (hlt.mp h')
      have hnot' : ¬ 2 * r = k := fun h' => h.ne (heq.mp h')
      rw [if_neg (by tauto)]
      exact ⟨h, rfl⟩

-- ==== scaling

/-- The power of ten under the quotient `a / d`. -/
def quotientExponent (a d : Nat) : Int :=
  let e := (Nat.log 10 a : Int) - Nat.log 10 d
  if d * 10 ^ e.toNat ≤ a * 10 ^ (-e).toNat then e else e - 1

theorem zpow_eq_div (e : Int) : (10 : ℚ) ^ e = 10 ^ e.toNat / 10 ^ (-e).toNat := by
  rcases le_total 0 e with h | h
  · obtain ⟨n, rfl⟩ := Int.eq_ofNat_of_zero_le h
    simp
  · obtain ⟨n, hn⟩ := Int.eq_ofNat_of_zero_le (neg_nonneg.mpr h)
    obtain rfl : e = -n := by omega
    simp

variable {a d : Nat} {precision : Nat}

theorem scaled_le_iff (hd : 0 < d) (e : Int) :
    d * 10 ^ e.toNat ≤ a * 10 ^ (-e).toNat ↔ (10 : ℚ) ^ e ≤ (a : ℚ) / d := by
  have hd' : (0 : ℚ) < d := by positivity
  rw [zpow_eq_div, div_le_div_iff₀ (by positivity) hd', ← Nat.cast_le (α := ℚ)]
  push_cast
  rw [mul_comm]

/-- The quotient lies between its power of ten and the next. -/
theorem quotientExponent_spec (ha : 0 < a) (hd : 0 < d) :
    (10 : ℚ) ^ quotientExponent a d ≤ (a : ℚ) / d
      ∧ (a : ℚ) / d < (10 : ℚ) ^ (quotientExponent a d + 1) := by
  have hd' : (0 : ℚ) < d := by positivity
  have ha₁ : ((10 ^ Nat.log 10 a : Nat) : ℚ) ≤ a := by exact_mod_cast Nat.pow_log_le_self 10 ha.ne'
  have ha₂ : (a : ℚ) < ((10 ^ (Nat.log 10 a + 1) : Nat) : ℚ) := by
    exact_mod_cast Nat.lt_pow_succ_log_self (by norm_num) a
  have hd₁ : ((10 ^ Nat.log 10 d : Nat) : ℚ) ≤ d := by exact_mod_cast Nat.pow_log_le_self 10 hd.ne'
  have hd₂ : (d : ℚ) < ((10 ^ (Nat.log 10 d + 1) : Nat) : ℚ) := by
    exact_mod_cast Nat.lt_pow_succ_log_self (by norm_num) d
  push_cast at ha₁ ha₂ hd₁ hd₂
  unfold quotientExponent
  generalize Nat.log 10 a = i at ha₁ ha₂
  generalize Nat.log 10 d = j at hd₁ hd₂
  have hupper : (a : ℚ) / d < (10 : ℚ) ^ ((i : Int) - j + 1) := by
    rw [div_lt_iff₀ hd', show (i : Int) - j + 1 = (i + 1 : Nat) - (j : Nat)
      by push_cast; ring, zpow_sub₀ (by norm_num), zpow_natCast,
      zpow_natCast, div_mul_eq_mul_div, lt_div_iff₀ (by positivity)]
    calc (a : ℚ) * 10 ^ j ≤ a * d := by gcongr
      _ < 10 ^ (i + 1) * d := by gcongr
  have hlower : (10 : ℚ) ^ ((i : Int) - j - 1) ≤ (a : ℚ) / d := by
    rw [le_div_iff₀ hd', show (i : Int) - j - 1 = (i : Nat) - (j + 1 : Nat)
      by push_cast; ring, zpow_sub₀ (by norm_num), zpow_natCast,
      zpow_natCast, div_mul_eq_mul_div, div_le_iff₀ (by positivity)]
    calc (10 : ℚ) ^ i * d ≤ a * d := by gcongr
      _ ≤ a * 10 ^ (j + 1) := by gcongr
  simp only
  split
  · next h => exact ⟨(scaled_le_iff hd _).mp h, hupper⟩
  · next h =>
      rw [scaled_le_iff hd, not_le] at h
      exact ⟨hlower, by rw [sub_add_cancel]; exact h⟩

-- ==== division

/-- Strip at most `k` trailing zeros, and count them. -/
def stripZeros : Nat → Nat → Nat × Nat
  | 0, c => (c, 0)
  | k + 1, c =>
    if c % 10 = 0 then
      ((stripZeros k (c / 10)).1, (stripZeros k (c / 10)).2 + 1)
    else (c, 0)

theorem stripZeros_spec (k c : Nat) : (stripZeros k c).1 * 10 ^ (stripZeros k c).2 = c := by
  induction k generalizing c with
  | zero => simp [stripZeros]
  | succ k ih =>
    unfold stripZeros
    split
    · next h =>
        rw [pow_succ, ← mul_assoc, ih]
        omega
    · simp

/-- The quotient of the scaled integers `m` and `k`, with its exponent
`x`: an exact one as close to the ideal exponent 0 as it can be, any
other rounded, carrying into one more digit where it must. -/
def divideScaled (precision : Nat) (negative : Bool) (x : Int) (m k : Nat) : Decimal :=
  if m % k = 0 then
    ⟨negative, (stripZeros (-x).toNat (m / k)).1, x + (stripZeros (-x).toNat (m / k)).2⟩
  else if divHalfEven m k = 10 ^ precision then
    ⟨negative, 10 ^ (precision - 1), x + 1⟩
  else ⟨negative, divHalfEven m k, x⟩

/-- `n / d` to `precision` significant digits, half-even. -/
def divide (precision : Nat) (n : Int) (d : Nat) : Decimal :=
  if n = 0 then ⟨false, 0, 0⟩
  else
    let x := quotientExponent n.natAbs d + 1 - precision
    divideScaled precision (n < 0) x (n.natAbs * 10 ^ (-x).toNat) (d * 10 ^ x.toNat)

/-- `v` is `q` rounded half-even to `precision` significant digits. -/
def RoundsTo (precision : Nat) (q v : ℚ) : Prop :=
  (q = 0 ∧ v = 0) ∨ ∃ (x : Int) (c : Int), (10 : ℚ) ^ (precision - 1) ≤ |q| / 10 ^ x
      ∧ |q| / 10 ^ x < 10 ^ precision
      ∧ NearestEven (q / 10 ^ x) c ∧ v = c * 10 ^ x

theorem NearestEven.neg {t : ℚ} {c : ℤ} (h : NearestEven t c) : NearestEven (-t) (-c) := by
  have habs : |((-c : ℤ) : ℚ) - -t| = |(c : ℚ) - t| := by
    rw [← abs_neg]
    congr 1
    push_cast
    ring
  refine ⟨habs ▸ h.near, fun heq => ?_⟩
  have := h.even (habs ▸ heq)
  omega

theorem scaled_eq (x : Int) :
    ((a * 10 ^ (-x).toNat : Nat) : ℚ) / (d * 10 ^ x.toNat : Nat) = (a : ℚ) / d / 10 ^ x := by
  rw [zpow_eq_div]
  push_cast
  field_simp

theorem divideScaled_value (hp : 1 ≤ precision) (negative : Bool) (x : Int) (hk : 0 < k) :
    ∃ c : Nat, NearestEven ((m : ℚ) / k) c ∧ (divideScaled precision negative x m k).value
        = (if negative then -1 else 1) * c * 10 ^ x := by
  unfold divideScaled
  split
  · next hexact =>
      -- an exact quotient is its own nearest integer
      have hval : (m : ℚ) / k = ((m / k : Nat) : ℚ) := by
        rw [div_eq_add_fraction hk, hexact, Nat.cast_zero, zero_div, add_zero]
      have hstrip := stripZeros_spec (-x).toNat (m / k)
      rw [hval]
      generalize m / k = c at hstrip ⊢
      refine ⟨c, ⟨by simp, fun h => ?_⟩, ?_⟩
      · simp at h
      · unfold value
        rw [zpow_add₀ (by norm_num), zpow_natCast]
        have hcast : ((stripZeros (-x).toNat c).1 : ℚ) * 10 ^ (stripZeros (-x).toNat c).2 = c := by
          exact_mod_cast hstrip
        rw [← hcast]
        ring
  · split
    · next hcarry =>
        refine ⟨divHalfEven m k, divHalfEven_nearest hk, ?_⟩
        unfold value
        obtain ⟨p, rfl⟩ := Nat.exists_eq_add_of_le' hp
        rw [hcarry, zpow_add_one₀ (by norm_num), Nat.add_sub_cancel]
        push_cast
        ring
    · exact ⟨divHalfEven m k, divHalfEven_nearest hk, rfl⟩

/-- `divide` rounds its quotient half-even. -/
theorem divide_rounds (hp : 1 ≤ precision) (q : ℚ) :
    RoundsTo precision q (divide precision q.num q.den).value := by
  by_cases hq : q.num = 0
  · left
    refine ⟨Rat.num_eq_zero.mp hq, ?_⟩
    unfold divide value
    rw [if_pos hq]
    simp
  · right
    have habs : |q| = (q.num.natAbs : ℚ) / q.den := by
      rw [Rat.abs_def, Rat.divInt_eq_div]
      simp
    obtain ⟨hlo, hhi⟩ := quotientExponent_spec (Int.natAbs_pos.mpr hq) q.pos
    unfold divide
    rw [if_neg hq]
    generalize quotientExponent q.num.natAbs q.den = e at hlo hhi ⊢
    obtain ⟨c, hnear, hval⟩ := divideScaled_value
      (m := q.num.natAbs * 10 ^ (-(e + 1 - (precision : Int))).toNat)
      (k := q.den * 10 ^ (e + 1 - (precision : Int)).toNat) hp
      (decide (q.num < 0)) (e + 1 - precision)
      (Nat.mul_pos q.pos (by positivity))
    rw [scaled_eq, ← habs] at hnear
    rw [← habs] at hlo hhi
    have hshift : ∀ y : Int, (10 : ℚ) ^ (y - (e + 1 - precision))
        = 10 ^ y / 10 ^ (e + 1 - precision) :=
      fun y => zpow_sub₀ (by norm_num) _ _
    refine ⟨e + 1 - precision, (if q.num < 0 then -1 else 1) * c, ?_, ?_, ?_, ?_⟩
    · have hpow := hshift e
      rw [show e - (e + 1 - (precision : Int)) = (precision - 1 : Nat) by
        omega, zpow_natCast] at hpow
      rw [hpow]
      gcongr
    · have hpow := hshift (e + 1)
      rw [show e + 1 - (e + 1 - (precision : Int)) = (precision : Nat) by
        omega, zpow_natCast] at hpow
      rw [hpow]
      gcongr
    · split
      · next hneg =>
          rw [abs_of_neg (Rat.num_neg.mp hneg), neg_div] at hnear
          have := hnear.neg
          rw [neg_neg] at this
          rwa [neg_one_mul]
      · next hnonneg =>
          rw [abs_of_nonneg (Rat.num_nonneg.mp (not_lt.mp hnonneg))] at hnear
          rwa [one_mul]
    · rw [hval]
      by_cases hneg : q.num < 0 <;> simp [hneg]

end Decimal

end MarketRegimeAlpha.Lib
