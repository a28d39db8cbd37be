/-
The greatest whole number of lots that a bound allows.

A bound is a set of quantities with everything below each of them. Of two bounds
that each have a greatest multiple of the lot, the smaller of the two is the
greatest that both allow (`isGreatest_min`); a budget at a price, and a quantity,
are such bounds.
-/
import Mathlib.Algebra.Order.Floor.Ring

namespace MarketRegimeAlpha.Lib

def lotsWithin (lot : ℤ) (bound : ℤ → Prop) : Set ℤ := {quantity | lot ∣ quantity ∧ bound quantity}

variable {lot : ℤ}

theorem isGreatest_budget {K : Type _} [Field K] [LinearOrder K] [IsStrictOrderedRing K]
    [FloorRing K] (hlot : 0 < lot) {price : K} (hprice : 0 < price) (budget : K) :
    IsGreatest (lotsWithin lot fun quantity => (quantity : K) * price ≤ budget)
      (⌊budget / price / lot⌋ * lot) := by
  have hlotK : (0 : K) < lot := Int.cast_pos.mpr hlot
  constructor
  · refine ⟨Int.dvd_mul_left _ _, ?_⟩
    have hfloor := Int.floor_le (budget / price / (lot : K))
    rw [le_div_iff₀ hlotK, le_div_iff₀ hprice] at hfloor
    show ((_ * lot : ℤ) : K) * price ≤ budget
    rw [Int.cast_mul]
    exact hfloor
  · rintro quantity ⟨⟨count, rfl⟩, hcost⟩
    rw [mul_comm lot count]
    refine Int.mul_le_mul_of_nonneg_right (Int.le_floor.mpr ?_) hlot.le
    rw [le_div_iff₀ hlotK, le_div_iff₀ hprice, ← Int.cast_mul, mul_comm count lot]
    exact hcost

theorem isGreatest_quantity (hlot : 0 < lot) (available : ℤ) :
    IsGreatest (lotsWithin lot fun quantity => quantity ≤ available) (available / lot * lot) := by
  constructor
  · exact ⟨Int.dvd_mul_left _ _, Int.ediv_mul_le _ hlot.ne'⟩
  · rintro quantity ⟨⟨count, rfl⟩, hle⟩
    rw [mul_comm lot count] at hle ⊢
    exact Int.mul_le_mul_of_nonneg_right ((Int.le_ediv_iff_mul_le hlot).mpr hle) hlot.le

theorem isGreatest_min {bound bound' : ℤ → Prop} {a b : ℤ}
    (hbound : ∀ {x y}, x ≤ y → bound y → bound x) (hbound' : ∀ {x y}, x ≤ y → bound' y → bound' x)
    (ha : IsGreatest (lotsWithin lot bound) a) (hb : IsGreatest (lotsWithin lot bound') b) :
    IsGreatest (lotsWithin lot fun quantity => bound quantity ∧ bound' quantity) (min a b) := by
  obtain ⟨⟨hdvda, hina⟩, hgreatesta⟩ := ha
  obtain ⟨⟨hdvdb, hinb⟩, hgreatestb⟩ := hb
  constructor
  · refine ⟨?_, hbound (min_le_left a b) hina, hbound' (min_le_right a b) hinb⟩
    rcases min_choice a b with h | h
    · exact h.symm ▸ hdvda
    · exact h.symm ▸ hdvdb
  · rintro quantity ⟨hdvd, hin, hin'⟩
    exact le_min (hgreatesta ⟨hdvd, hin⟩) (hgreatestb ⟨hdvd, hin'⟩)

end MarketRegimeAlpha.Lib
