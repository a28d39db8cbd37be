/-
Excursions and barriers, as numbers: what the two rounding paths of the
kernel have to do with each other.

# Two paths

An excursion divides by the reference, subtracts one and quantizes to 18
places; a barrier multiplies the reference with a threshold and compares.
Each operation rounds to 38 digits. A rounding never crosses a number
that the context has, and the thresholds of the grid are such numbers;
what is left is the error of the product, at most 5 parts in `10 ^ 38`.
Against half a quantum of 18 places that is nothing as long as the
boundary is less than `9 * 10 ^ 18` times the reference, and below the
reference it always is.
-/
import MarketRegimeAlpha.Lib.HalfEven
import MarketRegimeAlpha.Outcome.Kernel

namespace MarketRegimeAlpha.Outcome

open Lib

variable {r h t x : ℚ}

def ratioQuantum : ℚ := 1 / 10 ^ 18

theorem ratioQuantum_pos : 0 < ratioQuantum := by
  unfold ratioQuantum
  norm_num

/-- The thresholds of 18 places. -/
def OnGrid (t : ℚ) : Prop := ∃ k : Int, t = k * ratioQuantum

/-- The return of a price, before it is quantized. -/
def gain (r h : ℚ) : ℚ := decimal (decimal (h / r) - 1)

-- ==== monotonicity

theorem decimal_mono : Monotone decimal := roundSignificant_mono (by norm_num)

theorem decimal_zero : decimal 0 = 0 := by
  unfold decimal roundSignificant
  exact if_pos rfl

theorem decimal_nonneg (hx : 0 ≤ x) : 0 ≤ decimal x := roundSignificant_nonneg hx

theorem decimal_nonpos (hx : x ≤ 0) : decimal x ≤ 0 := (decimal_mono hx).trans decimal_zero.le

theorem decimal_one : decimal 1 = 1 := by
  have hone : Exact 38 ((10 : ℚ) ^ (0 : Int)) := exact_zpow (by norm_num) 0
  rwa [zpow_zero] at hone

theorem gain_mono (hr : 0 < r) : Monotone (gain r) := by
  intro h h' hle
  apply decimal_mono
  apply sub_le_sub_right
  exact decimal_mono (div_le_div_of_nonneg_right hle hr.le)

theorem barrierBoundary_up_mono (hr : 0 < r) : Monotone (barrierBoundary r .up) := by
  intro t t' hle
  apply decimal_mono
  apply mul_le_mul_of_nonneg_left _ hr.le
  apply decimal_mono
  linarith only [hle]

theorem barrierBoundary_down_anti (hr : 0 < r) : Antitone (barrierBoundary r .down) := by
  intro t t' hle
  apply decimal_mono
  apply mul_le_mul_of_nonneg_left _ hr.le
  apply decimal_mono
  linarith only [hle]

-- ==== the error

theorem decimal_bounds (hx : 0 ≤ x) :
    x - x * (5 / 10 ^ 38) ≤ decimal x ∧ decimal x ≤ x + x * (5 / 10 ^ 38) := by
  have herror : |decimal x - x| ≤ |x| * (5 / 10 ^ 38) := abs_roundSignificant_sub_le_mul x
  rw [abs_of_nonneg hx, abs_le] at herror
  constructor
  · linarith only [herror.1]
  · linarith only [herror.2]

theorem decimal_bounds_of_lt (e : Int) (hx : |x| < (10 : ℚ) ^ e) :
    x - (10 : ℚ) ^ (e - 38) / 2 ≤ decimal x ∧ decimal x ≤ x + (10 : ℚ) ^ (e - 38) / 2 := by
  have herror : |decimal x - x| ≤ (10 : ℚ) ^ (e - 38) / 2 := abs_roundSignificant_sub_le hx
  rw [abs_le] at herror
  constructor
  · linarith only [herror.1]
  · linarith only [herror.2]

theorem one_le_decimal (hx : 1 ≤ x) : 1 ≤ decimal x := decimal_one.symm.le.trans (decimal_mono hx)

theorem decimal_le_one (hx : x ≤ 1) : decimal x ≤ 1 := (decimal_mono hx).trans decimal_one.le

theorem gain_exact (hone : 1 ≤ h / r) (hlt : h / r < 10 ^ 19) : gain r h = decimal (h / r) - 1 := by
  apply exact_sub_one (by norm_num) hone
  apply hlt.trans
  norm_num

theorem gain_bounds (hone : 1 ≤ h / r) (hlt : h / r < 10 ^ 19) :
    h / r - 1 - 5 / 10 ^ 20 ≤ gain r h ∧ gain r h ≤ h / r - 1 + 5 / 10 ^ 20 := by
  have herror := decimal_bounds_of_lt 19 (x := h / r) (by
    rw [abs_of_nonneg (zero_le_one.trans hone)]
    exact_mod_cast hlt)
  have hunit : (10 : ℚ) ^ ((19 : Int) - 38) / 2 = 5 / 10 ^ 20 := by norm_num
  rw [gain_exact hone hlt]
  constructor
  · linarith only [herror.1]
  · linarith only [herror.2]

theorem gain_bounds_of_lt (h0 : 0 ≤ h / r) (hlt : h / r < 1) :
    h / r - 1 - 6 / 10 ^ 38 ≤ gain r h ∧ gain r h ≤ h / r - 1 + 6 / 10 ^ 38 := by
  have hdivide := decimal_bounds_of_lt 0 (x := h / r) (by
    rw [abs_of_nonneg h0]
    exact_mod_cast hlt)
  have hnonneg := decimal_nonneg h0
  have hle := decimal_le_one hlt.le
  have hsubtract := decimal_bounds_of_lt 1 (x := decimal (h / r) - 1) (by
    rw [abs_of_nonpos (by linarith only [hle]), zpow_one]
    linarith only [hnonneg])
  have hfirst : (10 : ℚ) ^ ((0 : Int) - 38) / 2 = 5 / 10 ^ 39 := by norm_num
  have hsecond : (10 : ℚ) ^ ((1 : Int) - 38) / 2 = 5 / 10 ^ 38 := by norm_num
  unfold gain
  constructor
  · linarith only [hdivide.1, hsubtract.1]
  · linarith only [hdivide.2, hsubtract.2]

-- ==== the quantum

theorem OnGrid.quantum_le (ht : OnGrid t) (h0 : 0 < t) : ratioQuantum ≤ t := by
  obtain ⟨k, rfl⟩ := ht
  have hk : 0 < k := by exact_mod_cast (pos_iff_pos_of_mul_pos h0).mpr ratioQuantum_pos
  have hone : (1 : ℚ) ≤ k := by exact_mod_cast hk
  exact le_mul_of_one_le_left ratioQuantum_pos.le hone

theorem OnGrid.le_quantize (ht : OnGrid t) (h : t - 5 / 10 ^ 19 < x) :
    t ≤ quantize halfEven ratioQuantum x := by
  obtain ⟨k, rfl⟩ := ht
  apply le_quantize_of_lt ratioQuantum_pos
  unfold ratioQuantum at h ⊢
  linarith only [h]

theorem OnGrid.quantize_le (ht : OnGrid t) (h : x < t + 5 / 10 ^ 19) :
    quantize halfEven ratioQuantum x ≤ t := by
  obtain ⟨k, rfl⟩ := ht
  apply quantize_le_of_lt ratioQuantum_pos
  unfold ratioQuantum at h ⊢
  linarith only [h]

theorem OnGrid.neg (ht : OnGrid t) : OnGrid (-t) := by
  obtain ⟨k, rfl⟩ := ht
  refine ⟨-k, ?_⟩
  rw [Int.cast_neg, neg_mul]

theorem OnGrid.decimal_eq (ht : OnGrid t) (hlt : |t| < 10 ^ 20) : decimal t = t := by
  obtain ⟨k, rfl⟩ := ht
  have hscaled : (k : ℚ) * ratioQuantum = k / 10 ^ 18 := by
    unfold ratioQuantum
    ring
  rw [hscaled] at hlt ⊢
  apply exact_of_scaled
  rw [abs_div, abs_of_pos (by positivity : (0 : ℚ) < 10 ^ 18), div_lt_iff₀ (by positivity)] at hlt
  have hbound : |(k : ℚ)| < 10 ^ 38 := hlt.trans_le (by norm_num)
  exact_mod_cast hbound

theorem OnGrid.add_one (ht : OnGrid t) : OnGrid (1 + t) := by
  obtain ⟨k, rfl⟩ := ht
  refine ⟨10 ^ 18 + k, ?_⟩
  unfold ratioQuantum
  push_cast
  ring

-- ==== the upper side

def favorable (r h : ℚ) : ℚ := quantize halfEven ratioQuantum (max 0 (gain r h))

def adverse (r l : ℚ) : ℚ := quantize halfEven ratioQuantum (min 0 (gain r l))

/-- The thresholds whose boundary 38 digits tell from its neighbours by
more than the error of the product. -/
def InRange (t : ℚ) : Prop := 1 + t < 9 * 10 ^ 18

section Up

variable (hr : 0 < r) (ht : OnGrid t) (h0 : 0 < t) (hrange : InRange t)
include hr ht h0 hrange

theorem boundary_up_bounds : r * ((1 + t) - 45 / 10 ^ 20) < barrierBoundary r .up t
      ∧ barrierBoundary r .up t < r * ((1 + t) + 45 / 10 ^ 20) := by
  have hlt : 1 + t < 9 * 10 ^ 18 := hrange
  have hsum : decimal (1 + t) = 1 + t := by
    apply ht.add_one.decimal_eq
    rw [abs_of_pos (by linarith only [h0])]
    linarith only [hlt]
  have herror := decimal_bounds (x := r * (1 + t)) (mul_nonneg hr.le (by linarith only [h0]))
  have hsmall : r * ((1 + t) * (5 / 10 ^ 38)) < r * (45 / 10 ^ 20) := by
    apply mul_lt_mul_of_pos_left _ hr
    linarith only [hlt]
  unfold barrierBoundary
  rw [hsum]
  constructor
  · linarith only [herror.1, hsmall]
  · linarith only [herror.2, hsmall]

theorem le_favorable (h : ℚ) (hhit : barrierBoundary r .up t ≤ h) : t ≤ favorable r h := by
  have hratio : 1 + t - 45 / 10 ^ 20 < h / r := by
    rw [lt_div_iff₀' hr]
    exact (boundary_up_bounds hr ht h0 hrange).1.trans_le hhit
  have hquantum := ht.quantum_le h0
  unfold ratioQuantum at hquantum
  apply ht.le_quantize
  apply lt_of_lt_of_le _ (le_max_right 0 _)
  rcases lt_or_ge (h / r) (10 ^ 19) with hlt | hge
  · have hbounds := gain_bounds (by linarith only [hratio, hquantum]) hlt
    linarith only [hbounds.1, hratio]
  · -- far above the boundary no digit is needed
    have hlt : 1 + t < 9 * 10 ^ 18 := hrange
    have hgain : decimal (10 ^ 19 - 1) ≤ gain r h := by
      apply decimal_mono
      apply sub_le_sub_right
      have hpow : Exact 38 ((10 : ℚ) ^ (19 : Int)) := exact_zpow (by norm_num) 19
      exact hpow.le_round (by norm_num) (by exact_mod_cast hge)
    have hexact : decimal (10 ^ 19 - 1) = 10 ^ 19 - 1 := by
      apply OnGrid.decimal_eq (t := 10 ^ 19 - 1)
      · exact ⟨(10 ^ 19 - 1) * 10 ^ 18, by norm_num [ratioQuantum]⟩
      · norm_num
    rw [hexact] at hgain
    linarith only [hgain, hlt]

theorem le_of_lt_favorable (h : ℚ) (hh : 0 < h) (hlt : t < favorable r h) :
    barrierBoundary r .up t ≤ h := by
  by_contra hmiss
  have hrange' : 1 + t < 9 * 10 ^ 18 := hrange
  have hratio : h / r < 1 + t + 45 / 10 ^ 20 := by
    rw [div_lt_iff₀' hr]
    exact (not_le.mp hmiss).trans (boundary_up_bounds hr ht h0 hrange).2
  apply absurd hlt
  apply not_lt.mpr
  apply ht.quantize_le
  apply max_lt
  · linarith only [h0]
  · rcases lt_or_ge (h / r) 1 with hone | hone
    · have hbounds := gain_bounds_of_lt (div_pos hh hr).le hone
      linarith only [hbounds.2, hone, h0]
    · have hbounds := gain_bounds hone (by linarith only [hratio, hrange'])
      linarith only [hbounds.2, hratio]

end Up

-- ==== the lower side

section Down

theorem boundary_down_nonpos (hr : 0 < r) (hge : 1 ≤ t) : barrierBoundary r .down t ≤ 0 := by
  apply decimal_nonpos
  apply mul_nonpos_of_nonneg_of_nonpos hr.le
  apply decimal_nonpos
  linarith only [hge]

variable (hr : 0 < r) (ht : OnGrid t) (h0 : 0 < t)
include hr ht h0

theorem boundary_down_bounds (hlt : t < 1) : r * ((1 - t) - 5 / 10 ^ 38) < barrierBoundary r .down t
      ∧ barrierBoundary r .down t < r * ((1 - t) + 5 / 10 ^ 38) := by
  have hdifference : decimal (1 - t) = 1 - t := by
    have hgrid := ht.neg.add_one
    rw [← sub_eq_add_neg] at hgrid
    apply hgrid.decimal_eq
    rw [abs_of_pos (by linarith only [hlt])]
    linarith only [h0]
  have herror := decimal_bounds (x := r * (1 - t)) (mul_nonneg hr.le (by linarith only [hlt]))
  have hsmall : r * ((1 - t) * (5 / 10 ^ 38)) < r * (5 / 10 ^ 38) := by
    apply mul_lt_mul_of_pos_left _ hr
    linarith only [h0]
  unfold barrierBoundary
  rw [hdifference]
  constructor
  · linarith only [herror.1, hsmall]
  · linarith only [herror.2, hsmall]

theorem adverse_le (l : ℚ) (hl : 0 < l) (hhit : l ≤ barrierBoundary r .down t) :
    adverse r l ≤ -t := by
  rcases lt_or_ge t 1 with hlt | hge
  · have hratio : l / r < 1 - t + 5 / 10 ^ 38 := by
      rw [div_lt_iff₀' hr]
      exact hhit.trans_lt (boundary_down_bounds hr ht h0 hlt).2
    have hquantum := ht.quantum_le h0
    unfold ratioQuantum at hquantum
    have hbounds := gain_bounds_of_lt (div_pos hl hr).le (by linarith only [hratio, hquantum])
    apply ht.neg.quantize_le
    apply (min_le_right 0 _).trans_lt
    linarith only [hbounds.2, hratio]
  · exact absurd hl (not_lt.mpr (hhit.trans (boundary_down_nonpos hr hge)))

/-- An excursion below the threshold is that of a price at the boundary. -/
theorem le_of_adverse_lt (l : ℚ) (hl : 0 < l) (hlt : adverse r l < -t) :
    l ≤ barrierBoundary r .down t := by
  by_contra hmiss
  apply absurd hlt
  apply not_lt.mpr
  rcases lt_or_ge t 1 with hone | hone
  · have hratio : 1 - t - 5 / 10 ^ 38 < l / r := by
      rw [lt_div_iff₀' hr]
      exact (boundary_down_bounds hr ht h0 hone).1.trans (not_le.mp hmiss)
    apply ht.neg.le_quantize
    apply lt_min
    · linarith only [h0]
    · rcases lt_or_ge (l / r) 1 with hlow | hhigh
      · have hbounds := gain_bounds_of_lt (div_pos hl hr).le hlow
        linarith only [hbounds.1, hratio]
      · have hgain : 0 ≤ gain r l := by
          apply decimal_nonneg
          exact sub_nonneg.mpr (one_le_decimal hhigh)
        linarith only [hgain, h0]
  · -- no price loses more than the reference
    have hgain : -1 ≤ gain r l := by
      have hexact : decimal (-1) = -1 := by
        unfold decimal
        rw [roundSignificant_neg]
        exact congrArg Neg.neg decimal_one
      rw [← hexact]
      apply decimal_mono
      have hnonneg := decimal_nonneg (div_pos hl hr).le
      linarith only [hnonneg]
    have hgrid : OnGrid (-1) := ⟨-10 ^ 18, by norm_num [ratioQuantum]⟩
    have hmin : -1 ≤ adverse r l := by
      apply hgrid.le_quantize
      apply lt_min
      · norm_num
      · linarith only [hgain]
    linarith only [hmin, hone]

end Down

end MarketRegimeAlpha.Outcome
