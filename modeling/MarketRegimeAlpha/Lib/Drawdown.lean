/-
The greatest fall of a sequence of positive numbers.

# Peak and drawdown

The peak of a sequence up to a place is the greatest number so far, and
its drawdown the greatest relative fall `1 - w j / w i` from an earlier
number to a later one. Both are told for the next place by what they are
at this one and the next number alone (`IsPeak.succ`,
`IsDrawdown.succ`): a fall to the next number is greatest from the peak.
-/
import Mathlib.Algebra.Order.Field.Basic
import Mathlib.Tactic.Linarith

namespace MarketRegimeAlpha.Lib

variable {K : Type _} [Field K] [LinearOrder K] {w : Nat → K} {n m : Nat} {peak fall fall' : K}

/-- The relative falls up to a place. -/
def falls (w : Nat → K) (n : Nat) : Set K := {d | ∃ i j, i ≤ j ∧ j ≤ n ∧ d = 1 - w j / w i}

/-- The greatest number up to a place. -/
def IsPeak (w : Nat → K) (n : Nat) (peak : K) : Prop := IsGreatest {x | ∃ i ≤ n, x = w i} peak

/-- The greatest relative fall up to a place. -/
def IsDrawdown (w : Nat → K) (n : Nat) (fall : K) : Prop := IsGreatest (falls w n) fall

variable {v : Nat → K}

omit [Field K] in
theorem IsPeak.congr (h : ∀ i ≤ n, v i = w i) (hpeak : IsPeak w n peak) : IsPeak v n peak := by
  constructor
  · obtain ⟨i, hi, hmax⟩ := hpeak.1
    exact ⟨i, hi, hmax.trans (h i hi).symm⟩
  · rintro _ ⟨i, hi, rfl⟩
    exact hpeak.2 ⟨i, hi, h i hi⟩

theorem IsDrawdown.congr (h : ∀ i ≤ n, v i = w i)
    (hfall : IsDrawdown w n fall) : IsDrawdown v n fall := by
  constructor
  · obtain ⟨i, j, hij, hj, hmax⟩ := hfall.1
    refine ⟨i, j, hij, hj, ?_⟩
    rw [h i (hij.trans hj), h j hj]
    exact hmax
  · rintro _ ⟨i, j, hij, hj, rfl⟩
    rw [h i (hij.trans hj), h j hj]
    exact hfall.2 ⟨i, j, hij, hj, rfl⟩

-- ==== the pass

omit [Field K] in
theorem isPeak_zero (w : Nat → K) : IsPeak w 0 (w 0) := by
  constructor
  · exact ⟨0, le_rfl, rfl⟩
  · rintro _ ⟨i, hi, rfl⟩
    rw [Nat.le_zero.mp hi]

omit [Field K] in
theorem IsPeak.succ (h : IsPeak w n peak) : IsPeak w (n + 1) (max peak (w (n + 1))) := by
  constructor
  · rcases max_choice peak (w (n + 1)) with hmax | hmax
    · obtain ⟨i, hi, hpeak⟩ := h.1
      exact ⟨i, by omega, hmax.trans hpeak⟩
    · exact ⟨n + 1, le_rfl, hmax⟩
  · rintro _ ⟨i, hi, rfl⟩
    rcases Nat.lt_or_ge n i with hlt | hle
    · rw [show i = n + 1 by omega]
      exact le_max_right _ _
    · exact (h.2 ⟨i, hle, rfl⟩).trans (le_max_left _ _)

omit [LinearOrder K] in
theorem falls_mono (h : n ≤ m) : falls w n ⊆ falls w m := by
  rintro _ ⟨i, j, hij, hj, rfl⟩
  exact ⟨i, j, hij, hj.trans h, rfl⟩

theorem isDrawdown_zero (h : 0 < w 0) : IsDrawdown w 0 0 := by
  have hself : 1 - w 0 / w 0 = 0 := by rw [div_self h.ne', sub_self]
  constructor
  · exact ⟨0, 0, le_rfl, le_rfl, hself.symm⟩
  · rintro _ ⟨i, j, hij, hj, rfl⟩
    rw [show j = 0 by omega, show i = 0 by omega, hself]

theorem IsDrawdown.nonneg (hpos : ∀ i ≤ n, 0 < w i) (h : IsDrawdown w n fall) : 0 ≤ fall := by
  apply h.2
  refine ⟨0, 0, le_rfl, Nat.zero_le n, ?_⟩
  rw [div_self (hpos 0 (Nat.zero_le n)).ne', sub_self]

/-- A sequence that contains another, up to a factor, falls at least as
much. -/
theorem IsDrawdown.le_of_scaled {c : K} {k : Nat} (hc : c ≠ 0) (hv : ∀ i ≤ n, w (k + i) = c * v i)
    (hkm : k + n ≤ m) (h : IsDrawdown v n fall) (h' : IsDrawdown w m fall') : fall ≤ fall' := by
  obtain ⟨i, j, hij, hj, rfl⟩ := h.1
  apply h'.2
  refine ⟨k + i, k + j, by omega, by omega, ?_⟩
  rw [hv i (hij.trans hj), hv j hj, mul_div_mul_left _ _ hc]

variable [IsStrictOrderedRing K]

/-- The drawdown after one more number is that so far or the fall from the
peak. -/
theorem IsDrawdown.succ (hpos : ∀ i ≤ n + 1, 0 < w i)
    (hpeak : IsPeak w (n + 1) peak) (h : IsDrawdown w n fall) :
    IsDrawdown w (n + 1) (max fall (1 - w (n + 1) / peak)) := by
  constructor
  · rcases max_choice fall (1 - w (n + 1) / peak) with hmax | hmax
    · rw [hmax]
      exact falls_mono (by omega) h.1
    · obtain ⟨i, hi, rfl⟩ := hpeak.1
      rw [hmax]
      exact ⟨i, n + 1, hi, le_rfl, rfl⟩
  · rintro _ ⟨i, j, hij, hj, rfl⟩
    rcases Nat.lt_or_ge n j with hlt | hle
    · apply le_trans _ (le_max_right _ _)
      rw [show j = n + 1 by omega]
      apply sub_le_sub_left
      apply div_le_div_of_nonneg_left (hpos (n + 1) le_rfl).le (hpos i (by omega))
      exact hpeak.2 ⟨i, by omega, rfl⟩
    · exact (h.2 ⟨i, j, hij, hle, rfl⟩).trans (le_max_left _ _)

-- ==== the laws

theorem IsDrawdown.lt_one (hpos : ∀ i ≤ n, 0 < w i) (h : IsDrawdown w n fall) : fall < 1 := by
  obtain ⟨i, j, hij, hj, rfl⟩ := h.1
  have hdiv := div_pos (hpos j hj) (hpos i (hij.trans hj))
  linarith

theorem IsDrawdown.eq_zero_iff (hpos : ∀ i ≤ n, 0 < w i) (h : IsDrawdown w n fall) :
    fall = 0 ↔ ∀ i < n, w i ≤ w (i + 1) := by
  constructor
  · rintro rfl i hi
    have hle : 1 - w (i + 1) / w i ≤ 0 := h.2 ⟨i, i + 1, by omega, by omega, rfl⟩
    have hone : 1 ≤ w (i + 1) / w i := by linarith
    exact (one_le_div (hpos i hi.le)).mp hone
  · intro hrise
    have hmono : ∀ i j, i ≤ j → j ≤ n → w i ≤ w j := by
      intro i j hij
      induction j, hij using Nat.le_induction with
      | base => exact fun _ => le_rfl
      | succ j hij ih =>
        intro hj
        exact (ih (by omega)).trans (hrise j (by omega))
    apply le_antisymm _ (h.nonneg hpos)
    obtain ⟨i, j, hij, hj, rfl⟩ := h.1
    have hone := (one_le_div (hpos i (hij.trans hj))).mpr (hmono i j hij hj)
    linarith

end MarketRegimeAlpha.Lib
