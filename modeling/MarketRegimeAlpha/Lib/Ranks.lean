/-
The midranks of a list.

# Ranks by counting

The midrank of an entry is one more than the entries below it and half of
the other entries equal to it. It depends on the entries and not on their
order, a strictly increasing map keeps it and a strictly decreasing one
turns it around, and the midranks of `n` entries sum to `n (n + 1) / 2`:
an entry is below another as often as another is above it.
-/
import Mathlib.Algebra.BigOperators.Fin
import Mathlib.Algebra.Order.BigOperators.Ring.Finset
import Mathlib.Algebra.Order.Field.Basic
import Mathlib.Tactic.FieldSimp
import Mathlib.Tactic.LinearCombination
import Mathlib.Tactic.Linarith

namespace MarketRegimeAlpha.Lib

open List

-- ==== counting

section Counting

variable {α β : Type _}

theorem countP_eq_sum (p : α → Bool) (l : List α) :
    l.countP p = (l.map fun x => if p x then 1 else 0).sum := by
  induction l with
  | nil => rfl
  | cons a l ih => rw [countP_cons, map_cons, sum_cons, ih, Nat.add_comm]

/-- Counting the pairs of a relation by their left or by their right
entries comes to the same. -/
theorem sum_countP_comm (r : α → β → Bool) (l : List α) (l' : List β) :
    (l.map fun x => l'.countP (r x)).sum = (l'.map fun y => l.countP fun x => r x y).sum := by
  induction l with
  | nil => simp
  | cons a l ih =>
    simp only [map_cons, sum_cons, countP_cons]
    rw [sum_map_add, ← ih, ← countP_eq_sum, Nat.add_comm]

variable [LinearOrder α] {l : List α} {x y : α}

theorem countP_lt_add_count_add (l : List α) (x : α) :
    l.countP (· < x) + l.count x + l.countP (x < ·) = l.length := by
  induction l with
  | nil => rfl
  | cons a l ih =>
    rcases lt_trichotomy a x with h | h | h
    · simp [h, h.ne, h.not_gt]
      omega
    · simp [h]
      omega
    · simp [h, h.ne', h.not_gt]
      omega

theorem countP_lt_add_count_le (l : List α) (h : x < y) :
    l.countP (· < x) + l.count x ≤ l.countP (· < y) := by
  induction l with
  | nil => exact le_rfl
  | cons a l ih =>
    rw [countP_cons, countP_cons, count_cons]
    rcases lt_trichotomy a x with ha | ha | ha
    · simp [ha, ha.ne, ha.trans h]
      omega
    · simp [ha, h]
      omega
    · simp [ha.ne', ha.not_gt]
      omega

end Counting

-- ==== the midranks

section Midranks

variable {α : Type _} [LinearOrder α] {K : Type _} [Field K]

/-- One more than the entries below, and half of the other equal ones. -/
def midrank (K : Type _) [Field K] (l : List α) (x : α) : K :=
  1 + (l.countP (· < x) : K) + ((l.count x : K) - 1) / 2

variable {l l' : List α} {x y : α}

theorem midrank_perm (h : l.Perm l') (x : α) : midrank K l x = midrank K l' x := by
  unfold midrank
  rw [h.countP_eq, h.count_eq]

omit [LinearOrder α] in
theorem countP_map_congr {β : Type _} {f : α → β} {p : β → Bool} {q : α → Bool}
    (h : ∀ y ∈ l, p (f y) = q y) : (l.map f).countP p = l.countP q := by
  rw [countP_map]
  exact countP_congr fun y hy => by rw [Function.comp_apply, h y hy]

section Maps

variable {β : Type _} [LinearOrder β] {f : α → β}

theorem count_map_of_injOn (hf : Set.InjOn f {y | y ∈ l}) (hx : x ∈ l) :
    (l.map f).count (f x) = l.count x := by
  apply countP_map_congr
  intro y hy
  rw [beq_eq_beq]
  exact ⟨fun heq => hf hy hx heq, fun heq => congrArg f heq⟩

theorem midrank_map_mono (hf : StrictMonoOn f {y | y ∈ l}) (hx : x ∈ l) :
    midrank K (l.map f) (f x) = midrank K l x := by
  have hbelow : (l.map f).countP (· < f x) = l.countP (· < x) := by
    apply countP_map_congr
    intro y hy
    exact decide_eq_decide.mpr (hf.lt_iff_lt hy hx)
  unfold midrank
  rw [hbelow, count_map_of_injOn hf.injOn hx]

variable [CharZero K]

theorem midrank_map_anti (hf : StrictAntiOn f {y | y ∈ l}) (hx : x ∈ l) :
    midrank K (l.map f) (f x) = l.length + 1 - midrank K l x := by
  have hbelow : (l.map f).countP (· < f x) = l.countP (x < ·) := by
    apply countP_map_congr
    intro y hy
    exact decide_eq_decide.mpr (hf.lt_iff_gt hy hx)
  have htotal : ((l.countP (· < x) : Nat) : K) + l.count x + l.countP (x < ·) = l.length := by
    exact_mod_cast countP_lt_add_count_add l x
  unfold midrank
  rw [hbelow, count_map_of_injOn hf.injOn hx]
  linear_combination htotal

end Maps

/-- The midranks of a list sum to `n (n + 1) / 2`. -/
theorem sum_midrank [CharZero K] (l : List α) : (l.map (midrank K l)).sum
    = l.length * (l.length + 1) / 2 := by
  have hcomm : (l.map fun x => l.countP (· < x)).sum = (l.map fun x => l.countP (x < ·)).sum :=
    sum_countP_comm (fun x y => decide (y < x)) l l
  have htotal : (l.map fun x => l.countP (· < x)).sum + (l.map (l.count ·)).sum
      + (l.map fun x => l.countP (x < ·)).sum = l.length * l.length := by
    rw [← sum_map_add, ← sum_map_add]
    simp [countP_lt_add_count_add]
  have hcast : ((l.map fun x => l.countP (· < x)).sum : K) * 2
      + (l.map (l.count ·)).sum = l.length * l.length := by
    exact_mod_cast (by omega : (l.map fun x => l.countP (· < x)).sum * 2
      + (l.map (l.count ·)).sum = l.length * l.length)
  have hsum : ∀ m : List α, (m.map (midrank K l)).sum = m.length
      + ((m.map fun x => l.countP (· < x)).sum : Nat)
      + (((m.map (l.count ·)).sum : Nat) - (m.length : K)) / 2 := by
    intro m
    induction m with
    | nil => simp
    | cons x m ih =>
      simp only [map_cons, sum_cons, length_cons, ih, midrank]
      push_cast
      ring
  rw [hsum]
  linear_combination hcast / 2

theorem midrank_of_all_eq [CharZero K] (h : ∀ y ∈ l, y = x) :
    midrank K l x = ((l.length : K) + 1) / 2 := by
  have hbelow : l.countP (· < x) = 0 := by
    rw [countP_eq_zero]
    intro y hy
    simp [h y hy]
  have hcount : l.count x = l.length := by
    rw [count_eq_length]
    exact fun y hy => (h y hy).symm
  unfold midrank
  rw [hbelow, hcount]
  ring

variable [LinearOrder K] [IsStrictOrderedRing K]

/-- The midranks of `n` entries lie between one and `n`. -/
theorem midrank_bounds (hx : x ∈ l) : 1 ≤ midrank K l x ∧ midrank K l x ≤ l.length := by
  have hpos : (1 : K) ≤ (l.count x : Nat) := by exact_mod_cast count_pos_iff.mpr hx
  have htotal : ((l.countP (· < x) : Nat) : K) + l.count x + l.countP (x < ·) = l.length := by
    exact_mod_cast countP_lt_add_count_add l x
  unfold midrank
  constructor
  · linarith
  · linarith

theorem midrank_lt (hx : x ∈ l) (h : x < y) : midrank K l x < midrank K l y := by
  have hbelow : ((l.countP (· < x) : Nat) : K) + (l.count x : Nat) ≤ (l.countP (· < y) : Nat) := by
    exact_mod_cast countP_lt_add_count_le l h
  have hpos : (0 : K) < (l.count x : Nat) := by exact_mod_cast count_pos_iff.mpr hx
  have hnonneg : (0 : K) ≤ (l.count y : Nat) := Nat.cast_nonneg _
  unfold midrank
  linarith

theorem midrank_inj (hx : x ∈ l) (hy : y ∈ l) (h : midrank K l x = midrank K l y) : x = y := by
  rcases lt_trichotomy x y with hlt | heq | hgt
  · exact absurd h (midrank_lt hx hlt).ne
  · exact heq
  · exact absurd h.symm (midrank_lt hy hgt).ne

end Midranks

-- ==== the correlation

section Correlation

variable {K : Type _} [Field K] [LinearOrder K] [IsStrictOrderedRing K]

theorem sum_mul_sq_le (l : List (K × K)) :
    (l.map fun p => p.1 * p.2).sum * (l.map fun p => p.1 * p.2).sum
      ≤ (l.map fun p => p.1 * p.1).sum * (l.map fun p => p.2 * p.2).sum := by
  have hsum : ∀ f : K × K → K, (l.map f).sum = ∑ i : Fin l.length, f (l.get i) := by
    intro f
    rw [← sum_ofFn]
    conv_lhs => rw [← ofFn_get l, map_ofFn]
    rfl
  have h := Finset.sum_mul_sq_le_sq_mul_sq Finset.univ
    (fun i : Fin l.length => (l.get i).1) (fun i => (l.get i).2)
  rw [hsum, hsum, hsum]
  simpa only [sq] using h

theorem sum_mul_self_eq_zero {l : List K} : (l.map fun x => x * x).sum = 0 ↔ ∀ x ∈ l, x = 0 := by
  induction l with
  | nil => simp
  | cons a l ih =>
    have hrest : 0 ≤ (l.map fun x => x * x).sum := List.sum_nonneg (by
      intro x hx
      obtain ⟨y, -, rfl⟩ := mem_map.mp hx
      exact mul_self_nonneg y)
    rw [map_cons, sum_cons, add_eq_zero_iff_of_nonneg (mul_self_nonneg a) hrest, ih,
      forall_mem_cons, mul_self_eq_zero]

end Correlation

end MarketRegimeAlpha.Lib
