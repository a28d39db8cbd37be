/-
Arithmetic in which every result is rounded, and the signals it raises.

# One text, several arithmetics

An `Arithmetic` says what becomes of an exact result: `round` for the
sums, products and quotients, `square`, `root` and `power` for the
operations that round in their own way. A computation written over an
`Arithmetic` can be run in a decimal context (`DecimalContext`) and
reasoned about in exact arithmetic (`exact`), as one definition.

# The signals

A quotient by zero and the root of a negative number are signals, and
everything else has a value: the exponents of a context are not bounded
here. What keeps a computation from signalling is only that rounding
respects signs (`Lawful`).
-/
import MarketRegimeAlpha.Lib.Checked
import MarketRegimeAlpha.Lib.HalfEven

namespace MarketRegimeAlpha.Lib

-- ==== rounding modes

inductive RoundingMode where
  | roundDown
  | roundHalfEven
  | roundHalfUp
  | roundUp
  deriving DecidableEq

/-- `ROUND_HALF_UP`: to the nearest, away from zero of two. -/
def halfUp (x : ℚ) : Int := if 0 ≤ x then ⌊x + 1 / 2⌋ else ⌈x - 1 / 2⌉

def awayFromZero (x : ℚ) : Int := if 0 ≤ x then ⌈x⌉ else ⌊x⌋

/-- The integer that a mode takes a number to. -/
def RoundingMode.toInt : RoundingMode → ℚ → Int
  | .roundDown => truncate
  | .roundHalfEven => halfEven
  | .roundHalfUp => halfUp
  | .roundUp => awayFromZero

/-- An exact result, rounded to `prec` significant digits. -/
def RoundingMode.significant (mode : RoundingMode) (prec : Nat) (x : ℚ) : ℚ :=
  if x = 0 then 0 else quantize mode.toInt (significantUnit prec x) x

section Modes

variable (mode : RoundingMode) {x : ℚ} {prec : Nat}

theorem RoundingMode.le_toInt {n : Int} (hn : 0 ≤ n) (hx : (n : ℚ) ≤ x) : n ≤ mode.toInt x := by
  have hx0 : 0 ≤ x := le_trans (by exact_mod_cast hn) hx
  have hfloor : n ≤ ⌊x⌋ := Int.le_floor.mpr hx
  cases mode with
  | roundDown =>
    show n ≤ truncate x
    unfold truncate
    rwa [if_pos hx0]
  | roundHalfEven =>
    rw [← halfEven_intCast n]
    exact halfEven_mono hx
  | roundHalfUp =>
    show n ≤ halfUp x
    unfold halfUp
    rw [if_pos hx0]
    exact Int.le_floor.mpr (by linarith)
  | roundUp =>
    show n ≤ awayFromZero x
    unfold awayFromZero
    rw [if_pos hx0]
    exact hfloor.trans (Int.floor_le_ceil x)

theorem RoundingMode.toInt_le_neg_one (hx : x ≤ -1) : mode.toInt x ≤ -1 := by
  have hneg : ¬ 0 ≤ x := by linarith
  cases mode with
  | roundDown =>
    show truncate x ≤ -1
    unfold truncate
    rw [if_neg hneg]
    exact Int.ceil_le.mpr (by exact_mod_cast hx)
  | roundHalfEven =>
    rw [← halfEven_intCast (-1)]
    exact halfEven_mono (by exact_mod_cast hx)
  | roundHalfUp =>
    show halfUp x ≤ -1
    unfold halfUp
    rw [if_neg hneg]
    exact Int.ceil_le.mpr (by push_cast; linarith)
  | roundUp =>
    show awayFromZero x ≤ -1
    unfold awayFromZero
    rw [if_neg hneg]
    exact (Int.floor_le_ceil x).trans (Int.ceil_le.mpr (by exact_mod_cast hx))

theorem RoundingMode.significant_nonneg (hx : 0 ≤ x) : 0 ≤ mode.significant prec x := by
  unfold significant
  by_cases hzero : x = 0
  · rw [if_pos hzero]
  · rw [if_neg hzero]
    have hunit := significantUnit_pos prec x
    have hint : 0 ≤ mode.toInt (x / significantUnit prec x) :=
      mode.le_toInt le_rfl (by exact_mod_cast div_nonneg hx hunit.le)
    exact mul_nonneg (by exact_mod_cast hint) hunit.le

theorem RoundingMode.significant_ne_zero (hprec : 1 ≤ prec)
    (hx : x ≠ 0) : mode.significant prec x ≠ 0 := by
  unfold significant
  rw [if_neg hx]
  have hunit := significantUnit_pos prec x
  -- the first digit of a number is worth at least a unit
  have hone : significantUnit prec x ≤ |x| := by
    refine le_trans ?_ (Int.zpow_log_le_self (b := 10) (by norm_num) (abs_pos.mpr hx))
    exact zpow_le_zpow_right₀ (by norm_num) (by omega)
  apply mul_ne_zero _ hunit.ne'
  rcases lt_or_gt_of_ne hx with hneg | hpos
  · rw [abs_of_neg hneg] at hone
    have hle : x / significantUnit prec x ≤ -1 := (div_le_iff₀ hunit).mpr (by linarith)
    have hint := mode.toInt_le_neg_one hle
    exact_mod_cast (show mode.toInt (x / significantUnit prec x) ≠ 0 by omega)
  · rw [abs_of_pos hpos] at hone
    have hle : ((1 : Int) : ℚ) ≤ x / significantUnit prec x := by
      rw [Int.cast_one]
      exact (le_div_iff₀ hunit).mpr (by linarith)
    have hint := mode.le_toInt (by norm_num) hle
    exact_mod_cast (show mode.toInt (x / significantUnit prec x) ≠ 0 by omega)

end Modes

-- ==== arithmetics

/-- What an operation signals. -/
inductive Signal where
  | divisionUndefined
  | divisionByZero
  | negativeRoot
  deriving DecidableEq

/-- What becomes of the exact results of operations. -/
structure Arithmetic (K : Type _) where
  (round square root : K → K)
  power : K → K → K

namespace Arithmetic

section Operations

variable {K : Type _} [Field K] [LinearOrder K] (A : Arithmetic K)

def sum (values : List K) : K := values.foldl (fun total x => A.round (total + x)) 0

/-- `x / y`. -/
def quotient (x y : K) : Except Signal K :=
  if y = 0 then
    .error (if x = 0 then .divisionUndefined else .divisionByZero)
  else .ok (A.round (x / y))

/-- `x.sqrt()`. -/
def sqrt (x : K) : Except Signal K := if x < 0 then .error .negativeRoot else .ok (A.root x)

variable {A} {x y : K}

theorem quotient_ok (h : y ≠ 0) : A.quotient x y = .ok (A.round (x / y)) := if_neg h

theorem quotient_zero (x : K) : ∃ signal, A.quotient x 0 = .error signal := ⟨_, if_pos rfl⟩

theorem exists_quotient : (∃ q, A.quotient x y = .ok q) ↔ y ≠ 0 := by
  constructor
  · rintro ⟨q, hq⟩ rfl
    obtain ⟨signal, hsignal⟩ := quotient_zero (A := A) x
    rw [hsignal] at hq
    cases hq
  · exact fun h => ⟨_, quotient_ok h⟩

theorem sqrt_ok {x : K} (h : 0 ≤ x) : A.sqrt x = .ok (A.root x) := if_neg h.not_gt

end Operations

section Signs

variable {K : Type _} [Field K] [LinearOrder K] {A : Arithmetic K}

/-- Rounding respects signs. -/
structure Lawful (A : Arithmetic K) : Prop where
  round_zero : A.round 0 = 0
  round_nonneg : ∀ {x : K}, 0 ≤ x → 0 ≤ A.round x
  round_ne_zero : ∀ {x : K}, x ≠ 0 → A.round x ≠ 0
  square_nonneg : ∀ x : K, 0 ≤ A.square x

theorem Lawful.round_pos (hA : A.Lawful) {x : K} (h : 0 < x) : 0 < A.round x :=
  lt_of_le_of_ne (hA.round_nonneg h.le) (Ne.symm (hA.round_ne_zero h.ne'))

theorem Lawful.sum_nonneg [IsStrictOrderedRing K] (hA : A.Lawful)
    {values : List K} (h : ∀ x ∈ values, 0 ≤ x) : 0 ≤ A.sum values := by
  suffices hall : ∀ total : K, 0 ≤ total →
      0 ≤ values.foldl (fun total x => A.round (total + x)) total from
    hall 0 le_rfl
  induction values with
  | nil => exact fun total htotal => htotal
  | cons x rest ih =>
    intro total htotal
    apply ih fun y hy => h y (List.mem_cons_of_mem x hy)
    exact hA.round_nonneg (add_nonneg htotal (h x List.mem_cons_self))

end Signs

-- ==== the arithmetics

def exact {K : Type _} [Field K] (root : K → K) (power : K → K → K) : Arithmetic K where
  round := id
  square := fun x => x * x
  root := root
  power := power

section Exact

variable {K : Type _} [Field K] (root : K → K) (power : K → K → K)

@[simp] theorem exact_round (x : K) : (exact root power).round x = x := rfl

@[simp] theorem exact_square (x : K) : (exact root power).square x = x * x := rfl

@[simp] theorem exact_root (x : K) : (exact root power).root x = root x := rfl

@[simp] theorem exact_sum (values : List K) : (exact root power).sum values = values.sum := by
  rw [List.sum_eq_foldl]
  rfl

end Exact

end Arithmetic

/-- `x.sqrt()` to `prec` digits, of a number that is not negative. -/
def decimalRoot (prec : Nat) (x : ℚ) : ℚ :=
  if x = 0 then 0
  else
    let unit := (10 : ℚ) ^ (Int.log 10 x / 2 + 1 - prec)
    let scaled := x / (unit * unit)
    let root := Nat.sqrt ⌊scaled⌋₊
    let half := (root : ℚ) + 1 / 2
    if half * half < scaled ∨ (half * half = scaled ∧ root % 2 = 1) then
      (root + 1) * unit
    else root * unit

structure DecimalContext where
  prec : Nat
  rounding : RoundingMode

/-- The arithmetic of a context. A square is taken with three more digits
and rounded again, a root is always rounded half-even, and `power` is
`x ** y` of a positive `x`. -/
def DecimalContext.arithmetic (context : DecimalContext) (power : ℚ → ℚ → ℚ) : Arithmetic ℚ where
  round := context.rounding.significant context.prec
  square := fun x => context.rounding.significant context.prec
    (RoundingMode.roundHalfEven.significant (context.prec + 3) (x * x))
  root := decimalRoot context.prec
  power := power

theorem DecimalContext.lawful {context : DecimalContext} (h : 1 ≤ context.prec)
    (power : ℚ → ℚ → ℚ) : (context.arithmetic power).Lawful where
  round_zero := by
    show context.rounding.significant context.prec 0 = 0
    exact if_pos rfl
  round_nonneg hx := RoundingMode.significant_nonneg _ hx
  round_ne_zero hx := RoundingMode.significant_ne_zero _ h hx
  square_nonneg x := RoundingMode.significant_nonneg _
    (RoundingMode.significant_nonneg _ (mul_self_nonneg x))

end MarketRegimeAlpha.Lib
