/-
The projection of exact values to decimals: what it returns, and when it
raises.

`project_exact_values` tests that the projected values of the sorted
distinct inputs go strictly up, which is that the projection keeps the
order of any two inputs (`increasing_map_iff`); so what it returns
`Separates` them. It tries the closed precisions in order and stops at
the first that does, or raises where a value no longer fits a `numeric`.
-/
import MarketRegimeAlpha.Selection.Ranking

namespace MarketRegimeAlpha.Selection

open Lib

-- ==== one fraction

def stored (precision : Nat) (value : ℚ) : ℚ := (Decimal.divide precision value.num value.den).value

variable {precision : Nat}

theorem projectFraction_ok {value : ℚ} {d : Decimal} (h : projectFraction precision value = .ok d) :
    d = Decimal.divide precision value.num value.den := by
  simp only [projectFraction, bind_ok, require_ok, pure_ok] at h
  obtain ⟨_, -, rfl⟩ := h
  rfl

/-- A fraction raises only where its decimal exceeds a `numeric`. -/
theorem projectFraction_error {value : ℚ} {raised : Raised}
    (h : projectFraction precision value = .error raised) :
    exceedsNumeric (Decimal.divide precision value.num value.den) := by
  simp only [projectFraction, bind_error, require_error] at h
  rcases h with ⟨hexceeds, -⟩ | ⟨_, -, h⟩
  · exact not_not.mp hexceeds
  · cases h

section Items

variable {κ : Type} {values : List (κ × ℚ)} {precision : Nat} {projected : List (κ × Decimal)}

theorem mem_projectItems (h : projectItems precision values = .ok projected)
    {key : κ} {d : Decimal} (hd : (key, d) ∈ projected) :
    ∃ value, (key, value) ∈ values ∧ d.value = stored precision value := by
  obtain ⟨pair, hpair, hitem⟩ := mem_mapM_ok h _ hd
  simp only [bind_ok, pure_ok] at hitem
  obtain ⟨d', hd', heq⟩ := hitem
  obtain ⟨rfl, rfl⟩ := Prod.mk.inj heq
  refine ⟨pair.2, hpair, ?_⟩
  rw [projectFraction_ok hd']
  rfl

theorem projectItems_error {raised : Raised} (h : projectItems precision values = .error raised) :
    ∃ pair ∈ values, exceedsNumeric (Decimal.divide precision pair.2.num pair.2.den) := by
  obtain ⟨pair, hpair, hitem⟩ := mapM_error h
  rw [bind_error] at hitem
  rcases hitem with hitem | ⟨_, -, hitem⟩
  · exact ⟨pair, hpair, projectFraction_error hitem⟩
  · cases hitem

end Items

-- ==== the loop

/-- At this precision the stored values keep the order of the values. -/
def Separates {κ : Type} (precision : Nat) (values : List (κ × ℚ)) : Prop :=
  ∀ a ∈ values, ∀ b ∈ values, a.2 < b.2 → stored precision a.2 < stored precision b.2

variable {κ : Type} {precision : Nat} {values : List (κ × ℚ)}

/-- The values, stored at this precision, are in order and equal as the
values are. -/
theorem Separates.iff (h : Separates precision values)
    {a b : κ × ℚ} (ha : a ∈ values) (hb : b ∈ values) :
    (stored precision a.2 < stored precision b.2 ↔ a.2 < b.2)
      ∧ (stored precision a.2 = stored precision b.2 ↔ a.2 = b.2) := by
  rcases lt_trichotomy a.2 b.2 with hab | hab | hab
  · have hlt := h a ha b hb hab
    simp [hab, hlt, hab.ne, hlt.ne]
  · simp [hab]
  · have hlt := h b hb a ha hab
    simp [hab.ne', hlt.ne', not_lt_of_gt hab, not_lt_of_gt hlt]

/-- The doubling sequence between two bounds; none for bounds that are
not of the closed sequence. -/
def doublings (minimum maximum : Nat) : List Nat :=
  if ValidBounds minimum maximum then
    allowedProjectionPrecisions.filter fun p => minimum ≤ p ∧ p ≤ maximum
  else []

theorem mem_doublings {minimum maximum p : Nat} : p ∈ doublings minimum maximum
      ↔ ValidBounds minimum maximum ∧ p ∈ allowedProjectionPrecisions
        ∧ minimum ≤ p ∧ p ≤ maximum := by
  unfold doublings
  split
  · next h => simp [h, List.mem_filter]
  · next h => simp [h]

theorem doubling_step {p maximum : Nat} (hp : p ∈ allowedProjectionPrecisions)
    (hmax : maximum ∈ allowedProjectionPrecisions) (hlt : p < maximum) :
    min (p * 2) maximum ∈ allowedProjectionPrecisions
      ∧ ∀ q ∈ allowedProjectionPrecisions, p < q → min (p * 2) maximum ≤ q := by
  have hall : ∀ p ∈ allowedProjectionPrecisions, ∀ m ∈ allowedProjectionPrecisions, p < m →
        min (p * 2) m ∈ allowedProjectionPrecisions
          ∧ ∀ q ∈ allowedProjectionPrecisions, p < q → min (p * 2) m ≤ q := by
    decide
  exact hall p hp maximum hmax hlt

theorem increasing_projected_iff {order : List Decimal}
    (h : (sortedDistinct (values.map (·.2))).mapM (projectFraction precision) = .ok order) :
    increasing (order.map Decimal.value) = true ↔ Separates precision values := by
  have hmap : order.map Decimal.value
      = (sortedDistinct (values.map (·.2))).map (stored precision) := by
    refine map_mapM_ok (fun value d hd => ?_) h
    rw [projectFraction_ok hd]
    rfl
  rw [hmap, increasing_map_iff]
  unfold Separates
  simp only [List.forall_mem_map]

/-- What the loop returns from an allowed precision on. -/
structure LeastSeparating {κ : Type} (values : List (κ × ℚ)) (lower maximum : Nat) (precision : Nat)
    (projected : List (κ × Decimal)) : Prop where
  allowed : precision ∈ allowedProjectionPrecisions
  bounds : lower ≤ precision ∧ precision ≤ maximum
  items : projectItems precision values = .ok projected
  separates : Separates precision values
  least : ∀ q ∈ allowedProjectionPrecisions, lower ≤ q → q < precision → ¬ Separates q values

/-- Some value exceeds a `numeric` at this precision. -/
def Exceeds {κ : Type} (precision : Nat) (values : List (κ × ℚ)) : Prop :=
  ∃ pair ∈ values, exceedsNumeric (Decimal.divide precision pair.2.num pair.2.den)

/-- The loop, by its recursion: each round returns, raises, or has found
that its own precision does not separate. -/
theorem projectLoop_spec (values : List (κ × ℚ)) {maximum precision : Nat} (hpos : 0 < precision)
    (hle : precision ≤ maximum) (hmax : maximum ∈ allowedProjectionPrecisions)
    (hp : precision ∈ allowedProjectionPrecisions) :
    (∃ p projected, projectLoop values maximum precision hpos hle = .ok (p, projected)
        ∧ LeastSeparating values precision maximum p projected)
      ∨ (∃ raised, projectLoop values maximum precision hpos hle = .error raised)
        ∧ ((∀ q ∈ allowedProjectionPrecisions, precision ≤ q → q ≤ maximum → ¬ Separates q values)
          ∨ ∃ q ∈ allowedProjectionPrecisions, precision ≤ q ∧ q ≤ maximum ∧ Exceeds q values) := by
  rw [projectLoop]
  split
  · next raised hitems =>
      exact Or.inr ⟨⟨raised, rfl⟩, Or.inr ⟨precision, hp, le_refl _, hle,
        projectItems_error hitems⟩⟩
  · next projected hitems =>
      split
      · next raised horder =>
          obtain ⟨value, hvalue, herror⟩ := mapM_error horder
          rw [mem_sortedDistinct] at hvalue
          obtain ⟨pair, hpair, rfl⟩ := List.mem_map.mp hvalue
          exact Or.inr ⟨⟨raised, rfl⟩, Or.inr ⟨precision, hp, le_refl _,
            hle, pair, hpair, projectFraction_error herror⟩⟩
      · next order horder =>
          have hsep := increasing_projected_iff horder
          split
          · next hinc =>
              exact Or.inl ⟨precision, projected, rfl, hp, ⟨le_refl _, hle⟩, hitems, hsep.mp hinc,
                fun q _ hq hlt => absurd hq (Nat.not_le.mpr hlt)⟩
          · next hinc =>
              have hnot : ¬ Separates precision values := fun h => hinc (hsep.mpr h)
              split
              · next hend =>
                  refine Or.inr ⟨⟨_, rfl⟩, Or.inl fun q _ hq hq' => ?_⟩
                  have hqp : q = precision := by omega
                  rw [hqp]
                  exact hnot
              · next hmore =>
                  have hlt : precision < maximum := by omega
                  obtain ⟨hnext, hgap⟩ := doubling_step hp hmax hlt
                  -- below the next precision only this one is left
                  have hbelow : ∀ q ∈ allowedProjectionPrecisions,
                      precision ≤ q → q < min (precision * 2) maximum → ¬ Separates q values := by
                    intro q hq hpq hqn
                    rcases Nat.lt_or_eq_of_le hpq with h | h
                    · exact absurd (hgap q hq h) (Nat.not_le.mpr hqn)
                    · rw [← h]
                      exact hnot
                  have hpos' : 0 < min (precision * 2) maximum := by omega
                  rcases projectLoop_spec values hpos' (by omega) hmax hnext with
                    ⟨p, projected, hok, hl⟩ | ⟨herr, hwhy⟩
                  · refine Or.inl ⟨p, projected, hok, hl.allowed,
                      ⟨by have := hl.bounds; omega, hl.bounds.2⟩, hl.items,
                      hl.separates, fun q hq hpq hqp => ?_⟩
                    rcases Nat.lt_or_ge q (min (precision * 2) maximum) with
                      h | h
                    · exact hbelow q hq hpq h
                    · exact hl.least q hq h hqp
                  · refine Or.inr ⟨herr, ?_⟩
                    rcases hwhy with hnone | ⟨q, hq, hnq, hqm, hex⟩
                    · refine Or.inl fun q hq hpq hqm => ?_
                      rcases Nat.lt_or_ge q (min (precision * 2) maximum)
                        with h | h
                      · exact hbelow q hq hpq h
                      · exact hnone q hq h hqm
                    · exact Or.inr ⟨q, hq, by omega, hqm, hex⟩
  termination_by maximum - precision

section Exact

variable {κ : Type} {values : List (κ × ℚ)} {minimum maximum : Nat}

/-- The call is the loop from the lower bound on, for bounds of the closed
sequence. -/
theorem projectExactValues_valid (h : ValidBounds minimum maximum) :
    projectExactValues values minimum maximum
      = projectLoop values maximum minimum (pos_of_allowed h.1) h.2.2 := by
  unfold projectExactValues
  rw [dif_pos h]

theorem projectExactValues_invalid (h : ¬ ValidBounds minimum maximum) :
    projectExactValues values minimum maximum = .error (.valueError
      "invalid Candidate Decimal projection precision bounds") := by
  unfold projectExactValues
  rw [dif_neg h]

/-- What `project_exact_values` returns is the least precision of the
doubling sequence that separates the values. -/
theorem projectExactValues_ok {p : Nat} {projected : List (κ × Decimal)}
    (h : projectExactValues values minimum maximum = .ok (p, projected)) :
    p ∈ doublings minimum maximum ∧ projectItems p values = .ok projected ∧ Separates p values
      ∧ ∀ q ∈ doublings minimum maximum, q < p → ¬ Separates q values := by
  by_cases hv : ValidBounds minimum maximum
  · rw [projectExactValues_valid hv] at h
    rcases projectLoop_spec values (pos_of_allowed hv.1) hv.2.2
      hv.2.1 hv.1 with ⟨p', projected', hok, hl⟩ | ⟨⟨raised, herr⟩, -⟩
    · rw [h] at hok
      injection hok with hok
      obtain ⟨rfl, rfl⟩ := Prod.mk.inj hok
      refine ⟨mem_doublings.mpr ⟨hv, hl.allowed, hl.bounds⟩, hl.items,
        hl.separates, fun q hq hlt => ?_⟩
      obtain ⟨-, hallowed, hmin, -⟩ := mem_doublings.mp hq
      exact hl.least q hallowed hmin hlt
    · rw [h] at herr
      cases herr
  · rw [projectExactValues_invalid hv] at h
    cases h

/-- It raises only where no precision of the sequence separates the
values, or a value exceeds a `numeric`. -/
theorem projectExactValues_error {raised : Raised}
    (h : projectExactValues values minimum maximum = .error raised) :
    (∀ q ∈ doublings minimum maximum, ¬ Separates q values)
      ∨ ∃ q ∈ doublings minimum maximum, Exceeds q values := by
  by_cases hv : ValidBounds minimum maximum
  · rw [projectExactValues_valid hv] at h
    rcases projectLoop_spec values (pos_of_allowed hv.1) hv.2.2
      hv.2.1 hv.1 with ⟨p, projected, hok, -⟩ | ⟨-, hnone | hexceeds⟩
    · rw [h] at hok
      cases hok
    · refine Or.inl fun q hq => ?_
      obtain ⟨-, hallowed, hmin, hmax⟩ := mem_doublings.mp hq
      exact hnone q hallowed hmin hmax
    · obtain ⟨q, hallowed, hmin, hmax, hex⟩ := hexceeds
      exact Or.inr ⟨q, mem_doublings.mpr ⟨hv, hallowed, hmin, hmax⟩, hex⟩
  · refine Or.inl fun q hq => ?_
    exact absurd (mem_doublings.mp hq).1 hv

end Exact

end MarketRegimeAlpha.Selection
