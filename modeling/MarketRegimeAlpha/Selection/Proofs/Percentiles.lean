/-
The law of the midrank percentiles: between zero and one, one half on
average, in the order of the observations, and turned around by the
direction.

# One formula

The two branches of `arithmetic_midrank_percentiles` are one formula: the
percentile of an observation is its midrank less one, over the other
observations (`percentile`), and observations that are all equal, of
which there may be only one, stand in the middle. What the percentiles do
is then what midranks do under strictly monotone maps.
-/
import MarketRegimeAlpha.Lib.Ranks
import MarketRegimeAlpha.Selection.Ranking

namespace MarketRegimeAlpha.Selection

open Lib List

-- ==== the percentile

/-- The share of the other values below a value, the equal ones counting
half. -/
def percentile (values : List ℚ) (x : ℚ) : ℚ :=
  if values.length = 1 then 1 / 2
  else (midrank ℚ values x - 1) / ((values.length : ℚ) - 1)

section Percentile

variable {values : List ℚ} {x y : ℚ} {f : ℚ → ℚ}

theorem percentile_singleton (h : values.length = 1) (x : ℚ) :
    percentile values x = 1 / 2 := if_pos h

theorem percentile_of_ne (h : values.length ≠ 1) (x : ℚ) : percentile values x
      = (midrank ℚ values x - 1) / ((values.length : ℚ) - 1) := if_neg h

theorem others_pos (hx : x ∈ values) (h : values.length ≠ 1) :
    (0 : ℚ) < (values.length : ℚ) - 1 := by
  have hpos : 0 < values.length := length_pos_of_mem hx
  have htwo : (2 : ℚ) ≤ (values.length : ℚ) := by exact_mod_cast (by omega : 2 ≤ values.length)
  linarith

theorem percentile_of_all_eq (hx : x ∈ values) (h : ∀ y ∈ values, y = x) :
    percentile values x = 1 / 2 := by
  by_cases hone : values.length = 1
  · exact percentile_singleton hone x
  · have hpos := others_pos hx hone
    rw [percentile_of_ne hone, midrank_of_all_eq h]
    field_simp
    ring

theorem percentile_bounds (hx : x ∈ values) :
    0 ≤ percentile values x ∧ percentile values x ≤ 1 := by
  by_cases hone : values.length = 1
  · rw [percentile_singleton hone]
    norm_num
  · have hpos := others_pos hx hone
    have hmidrank : 1 ≤ midrank ℚ values x ∧ midrank ℚ values x ≤ values.length := midrank_bounds hx
    rw [percentile_of_ne hone]
    constructor
    · apply div_nonneg _ hpos.le
      linarith [hmidrank.1]
    · rw [div_le_one hpos]
      linarith [hmidrank.2]

theorem percentile_lt (hx : x ∈ values) (hy : y ∈ values) (h : x < y) :
    percentile values x < percentile values y := by
  by_cases hone : values.length = 1
  · obtain ⟨z, rfl⟩ := length_eq_one_iff.mp hone
    rw [mem_singleton.mp hx, mem_singleton.mp hy] at h
    exact absurd h (lt_irrefl z)
  · have hpos := others_pos hx hone
    have hmidrank : midrank ℚ values x < midrank ℚ values y := midrank_lt hx h
    rw [percentile_of_ne hone, percentile_of_ne hone]
    exact div_lt_div_of_pos_right (by linarith) hpos

theorem percentile_lt_iff (hx : x ∈ values) (hy : y ∈ values) :
    percentile values x < percentile values y ↔ x < y := by
  constructor
  case mp =>
    intro h
    by_contra hnot
    rcases lt_or_eq_of_le (not_lt.mp hnot) with hlt | heq
    · exact lt_asymm h (percentile_lt hy hx hlt)
    · rw [heq] at h
      exact lt_irrefl _ h
  case mpr => exact percentile_lt hx hy

theorem percentile_eq_iff (hx : x ∈ values) (hy : y ∈ values) :
    percentile values x = percentile values y ↔ x = y := by
  constructor
  case mp =>
    intro h
    rcases lt_trichotomy x y with hlt | heq | hgt
    · exact absurd h (percentile_lt hx hy hlt).ne
    · exact heq
    · exact absurd h.symm (percentile_lt hy hx hgt).ne
  case mpr =>
    intro h
    rw [h]

theorem sum_percentile (values : List ℚ) :
    (values.map (percentile values)).sum = (values.length : ℚ) / 2 := by
  cases values with
  | nil => simp
  | cons z rest =>
    by_cases hone : (z :: rest).length = 1
    · obtain ⟨w, hw⟩ := length_eq_one_iff.mp hone
      rw [hw, map_singleton, sum_singleton, percentile_singleton rfl]
      norm_num
    · have hpos := others_pos (mem_cons_self (l := rest) (a := z)) hone
      have hsum : ((z :: rest).map (percentile (z :: rest))).sum
          = (((z :: rest).map (midrank ℚ (z :: rest))).sum
              - (z :: rest).length) / (((z :: rest).length : ℚ) - 1) := by
        have hpart : ∀ m : List ℚ, (m.map (percentile (z :: rest))).sum
            = ((m.map (midrank ℚ (z :: rest))).sum - m.length)
              / (((z :: rest).length : ℚ) - 1) := by
          intro m
          induction m with
          | nil => simp
          | cons w m ih =>
            rw [map_cons, sum_cons, ih, percentile_of_ne hone,
              map_cons, sum_cons, length_cons (a := w)]
            push_cast
            ring
        exact hpart (z :: rest)
      rw [hsum, sum_midrank]
      field_simp
      ring

theorem percentile_map_mono (hf : StrictMonoOn f {z | z ∈ values}) (hx : x ∈ values) :
    percentile (values.map f) (f x) = percentile values x := by
  unfold percentile
  rw [length_map, midrank_map_mono hf hx]

theorem percentile_map_anti (hf : StrictAntiOn f {z | z ∈ values}) (hx : x ∈ values) :
    percentile (values.map f) (f x) = 1 - percentile values x := by
  by_cases hone : values.length = 1
  · rw [percentile_singleton hone, percentile_singleton ((length_map f).trans hone)]
    norm_num
  · have hpos := others_pos hx hone
    rw [percentile_of_ne hone,
      percentile_of_ne (by rw [length_map]; exact hone), length_map,
      midrank_map_anti hf hx]
    field_simp
    ring

end Percentile

-- ==== the function

section Function

variable {observations : List (Nat × ℚ)} {o : Nat × ℚ} (direction : DesirabilityDirection)

/-- The observations as more is better. -/
def oriented (observations : List (Nat × ℚ)) : List ℚ :=
  observations.map fun o => orient direction o.2

theorem length_oriented (observations : List (Nat × ℚ)) :
    (oriented direction observations).length = observations.length :=
  length_map _

theorem mem_oriented (h : o ∈ observations) :
    orient direction o.2 ∈ oriented direction observations :=
  mem_map_of_mem h

theorem all_eq_of_dedup {l : List ℚ} (h : l.dedup.length = 1) : ∀ x ∈ l, ∀ y ∈ l, y = x := by
  obtain ⟨z, hz⟩ := length_eq_one_iff.mp h
  have hall : ∀ x ∈ l, x = z := by
    intro x hx
    have hmem : x ∈ l.dedup := mem_dedup.mpr hx
    rw [hz] at hmem
    exact mem_singleton.mp hmem
  intro x hx y hy
  rw [hall x hx, hall y hy]

/-- Both branches give every observation its percentile. -/
theorem arithmeticMidrankPercentiles_eq (observations : List (Nat × ℚ))
    (direction : DesirabilityDirection) :
    arithmeticMidrankPercentiles observations direction = observations.map fun o => (o.1,
          percentile (oriented direction observations) (orient direction o.2)) := by
  unfold arithmeticMidrankPercentiles
  dsimp only
  split
  next hzero => rw [length_eq_zero_iff.mp hzero, map_nil]
  next hcount =>
    split
    next hdedup =>
      apply map_congr_left
      intro o ho
      have hall : ∀ y ∈ oriented direction observations, y = orient direction o.2 := by
        intro y hy
        obtain ⟨o', ho', rfl⟩ := mem_map.mp hy
        rw [all_eq_of_dedup hdedup o.2 (mem_map_of_mem ho) o'.2 (mem_map_of_mem ho')]
      rw [percentile_of_all_eq (mem_oriented direction ho) hall]
    next hdedup =>
      have hone : (oriented direction observations).length ≠ 1 := by
        rw [length_oriented]
        intro hone
        obtain ⟨o, rfl⟩ := length_eq_one_iff.mp hone
        exact hdedup rfl
      rw [map_map, map_map]
      apply map_congr_left
      intro o ho
      have hvalues : (observations.map ((·.2) ∘ fun item =>
          (item.1, orient direction item.2))) = oriented direction observations := rfl
      rw [percentile_of_ne hone, length_oriented]
      unfold midrank
      simp only [Function.comp_apply, hvalues, count_eq_countP]
      rw [add_assoc, add_sub_cancel_left]
      rfl

/-- What the function gives an identity is the percentile of its
observation. -/
theorem percentile_of_mem (hmap : (observations.map (·.1)).Nodup)
    {direction : DesirabilityDirection} {a : Nat} {x p : ℚ} (hx : (a, x) ∈ observations)
    (hp : (a, p) ∈ arithmeticMidrankPercentiles observations direction) :
    p = percentile (oriented direction observations) (orient direction x) := by
  rw [arithmeticMidrankPercentiles_eq] at hp
  obtain ⟨o, ho, heq⟩ := mem_map.mp hp
  obtain ⟨hid, hp⟩ := Prod.mk.inj heq
  have hsame : o = (a, x) := inj_on_of_nodup_map hmap ho hx hid
  rw [← hp, hsame]

/-- The observations as less is better are those as more is better, turned
around. -/
theorem oriented_lower (observations : List (Nat × ℚ)) : oriented .lowerIsBetter observations
      = (oriented .higherIsBetter observations).map fun x => -x := by
  unfold oriented
  rw [map_map]
  rfl

def transformed (f : ℚ → ℚ) (observations : List (Nat × ℚ)) : List (Nat × ℚ) :=
  observations.map fun o => (o.1, f o.2)

/-- Under either direction a strictly increasing transformation is a
strictly increasing map of the oriented values. -/
theorem percentile_transformed {f : ℚ → ℚ} (hf : StrictMono f)
    (direction : DesirabilityDirection) (ho : o ∈ observations) :
    percentile (oriented direction (transformed f observations)) (orient direction (f o.2))
      = percentile (oriented direction observations) (orient direction o.2) := by
  have hmem := mem_oriented direction ho
  cases direction with
  | higherIsBetter =>
    have hvalues : oriented .higherIsBetter (transformed f observations)
        = (oriented .higherIsBetter observations).map f := by
      unfold oriented transformed
      rw [map_map, map_map]
      rfl
    rw [hvalues]
    exact percentile_map_mono (fun x _ y _ h => hf h) hmem
  | lowerIsBetter =>
    have hvalues : oriented .lowerIsBetter (transformed f observations)
        = (oriented .lowerIsBetter observations).map fun x => -f (-x) := by
      unfold oriented transformed
      rw [map_map, map_map]
      apply map_congr_left
      intro o _
      show -f o.2 = -f (-(-o.2))
      rw [neg_neg]
    have hmono : StrictMonoOn (fun x => -f (-x)) {z | z ∈ oriented .lowerIsBetter observations} :=
      fun x _ y _ h => neg_lt_neg (hf (neg_lt_neg h))
    have hat := percentile_map_mono hmono hmem
    have hneg : orient .lowerIsBetter (f o.2) = (fun x => -f (-x)) (orient .lowerIsBetter o.2) := by
      show -f o.2 = -f (-(-o.2))
      rw [neg_neg]
    rw [hvalues, hneg]
    exact hat

/-- The percentiles of observations by identity lie between zero and one
and are one half on average. As more is better they are in the order of
the observations, with equal observations equal; a strictly increasing
transformation leaves them as they are, and as less is better they are
turned around. -/
theorem midrank_percentile_law (observations : List (Nat × ℚ))
    (hmap : (observations.map (·.1)).Nodup) (hne : observations ≠ []) :
    (∀ direction, (arithmeticMidrankPercentiles observations direction).map (·.1)
          = observations.map (·.1)
        ∧ (∀ o ∈ arithmeticMidrankPercentiles observations direction, 0 ≤ o.2 ∧ o.2 ≤ 1)
        ∧ ((arithmeticMidrankPercentiles observations direction).map (·.2)).sum
            / (arithmeticMidrankPercentiles observations direction).length
          = 1 / 2)
    ∧ (∀ a x p b y q, (a, x) ∈ observations → (b, y) ∈ observations →
        (a, p) ∈ arithmeticMidrankPercentiles observations .higherIsBetter →
        (b, q) ∈ arithmeticMidrankPercentiles observations .higherIsBetter →
        (p < q ↔ x < y) ∧ (p = q ↔ x = y))
    ∧ (∀ f : ℚ → ℚ, StrictMono f → ∀ direction,
        arithmeticMidrankPercentiles (transformed f observations) direction
          = arithmeticMidrankPercentiles observations direction)
    ∧ ∀ a p q, (a, p) ∈ arithmeticMidrankPercentiles observations .lowerIsBetter →
        (a, q) ∈ arithmeticMidrankPercentiles observations .higherIsBetter →
        p = 1 - q := by
  refine ⟨fun direction => ⟨?_, ?_, ?_⟩, ?_, ?_, ?_⟩
  case refine_1 =>
    rw [arithmeticMidrankPercentiles_eq, map_map]
    rfl
  case refine_2 =>
    intro o ho
    rw [arithmeticMidrankPercentiles_eq] at ho
    obtain ⟨o', ho', rfl⟩ := mem_map.mp ho
    exact percentile_bounds (mem_oriented direction ho')
  case refine_3 =>
    have hvalues : (arithmeticMidrankPercentiles observations direction).map (·.2)
        = (oriented direction observations).map (percentile (oriented direction observations)) := by
      rw [arithmeticMidrankPercentiles_eq, map_map, oriented, map_map]
      rfl
    have hlength : (arithmeticMidrankPercentiles observations direction).length
        = observations.length := by
      rw [arithmeticMidrankPercentiles_eq, length_map]
    have hpos : (observations.length : ℚ) ≠ 0 := by exact_mod_cast (length_pos_iff.mpr hne).ne'
    rw [hvalues, sum_percentile, length_oriented, hlength]
    field_simp
  case refine_4 =>
    intro a x p b y q hx hy hp hq
    have hp := percentile_of_mem hmap hx hp
    have hq := percentile_of_mem hmap hy hq
    have hx := mem_oriented .higherIsBetter hx
    have hy := mem_oriented .higherIsBetter hy
    rw [hp, hq]
    exact ⟨percentile_lt_iff hx hy, percentile_eq_iff hx hy⟩
  case refine_5 =>
    intro f hf direction
    rw [arithmeticMidrankPercentiles_eq, arithmeticMidrankPercentiles_eq]
    unfold transformed
    rw [map_map]
    apply map_congr_left
    intro o ho
    exact congrArg (Prod.mk o.1) (percentile_transformed hf direction ho)
  case refine_6 =>
    intro a p q hp hq
    have hkeys : a ∈ observations.map (·.1) := by
      rw [arithmeticMidrankPercentiles_eq] at hp
      obtain ⟨o, ho, heq⟩ := mem_map.mp hp
      exact mem_map.mpr ⟨o, ho, congrArg Prod.fst heq⟩
    obtain ⟨⟨_, x⟩, hx, rfl⟩ := mem_map.mp hkeys
    have hp := percentile_of_mem hmap hx hp
    have hq := percentile_of_mem hmap hx hq
    have hanti : StrictAntiOn (fun x : ℚ => -x) {z | z ∈ oriented .higherIsBetter observations} :=
      fun x _ y _ h => neg_lt_neg h
    have hmem := mem_oriented .higherIsBetter hx
    rw [hp, hq, oriented_lower]
    exact percentile_map_anti hanti hmem

theorem midrank_percentile_law_tied :
    arithmeticMidrankPercentiles [(4, 2), (9, 7), (5, 2)] .higherIsBetter
        = [(4, 1 / 4), (9, 1), (5, 1 / 4)]
      ∧ ∀ a p q, (a, p) ∈ arithmeticMidrankPercentiles [(4, 2), (9, 7), (5, 2)] .lowerIsBetter →
        (a, q) ∈ arithmeticMidrankPercentiles [(4, 2), (9, 7), (5, 2)] .higherIsBetter →
        p = 1 - q :=
  ⟨by decide +kernel, (midrank_percentile_law [(4, 2), (9, 7), (5, 2)]
    (by decide) (by decide)).2.2.2⟩

end Function

end MarketRegimeAlpha.Selection
