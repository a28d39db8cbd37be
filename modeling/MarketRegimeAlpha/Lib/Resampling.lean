/-
Resampling a series in blocks of consecutive entries, and the ratio of two
sums.

# The loop

`fillBlocks` appends blocks of one width until there are as many entries as
the series has. A source of random numbers keeps within its range, which it
carries as a field (`Random.inRange`), so that every block is a whole one and
the loop ends: its termination rests on the range and on nothing else. What
it appended is read back as the starts of its blocks (`Runs`).

# The ratio of sums

A ratio of two sums lies between bounds of the ratios of their terms when the
denominators are positive.
-/
import Mathlib.Algebra.BigOperators.Ring.List
import Mathlib.Algebra.Order.BigOperators.Group.List
import Mathlib.Algebra.Order.Field.Basic
import Mathlib.Tactic.Linarith
import MarketRegimeAlpha.Lib.Checked

namespace MarketRegimeAlpha.Lib

open List

-- ==== the source

/-- A source of random numbers with its states. -/
structure Random (σ : Type _) where
  seeded : Nat → σ
  next : σ → Nat → Nat × σ
  inRange : ∀ (rng : σ) (n : Nat), 0 < n → (next rng n).1 < n

/-- `rng.randrange(n)`. -/
def Random.randrange {σ : Type _} (source : Random σ) (rng : σ) (n : Nat) :
    Except Raised (Nat × σ) :=
  if n = 0 then .error (.valueError "empty range for randrange()")
  else .ok (source.next rng n)

variable {σ : Type _}

theorem Random.randrange_ok (source : Random σ) (rng : σ) {n : Nat}
    (h : 0 < n) : ∃ start rng', source.randrange rng n = .ok (start, rng') ∧ start < n :=
  ⟨_, _, if_neg h.ne', source.inRange rng n h⟩

theorem Random.lt_of_randrange {source : Random σ} {rng rng' : σ}
    {n start : Nat} (h : source.randrange rng n = .ok (start, rng')) :
    start < n := by
  unfold randrange at h
  by_cases hn : n = 0
  · rw [if_pos hn] at h
    cases h
  · rw [if_neg hn] at h
    have hnext : source.next rng n = (start, rng') := Except.ok.inj h
    have hlt := source.inRange rng n (Nat.pos_of_ne_zero hn)
    rwa [hnext] at hlt

-- ==== the blocks

section Blocks

variable {σ α : Type _} (source : Random σ) (span : Nat) (rows : List α)

/-- The block from `start` on: `rows[start:start + span + 1]`. -/
def block (start : Nat) : List α := (rows.drop start).take (span + 1)

/-- Blocks from random starts, until there are as many entries as in `rows`. -/
def fillBlocks (chosen : List α) (rng : σ) : Except Raised (List α × σ) :=
  if rows.length ≤ chosen.length then .ok (chosen, rng)
  else
    match _h : source.randrange rng (rows.length - span) with
    | .error raised => .error raised
    | .ok (start, rng') => fillBlocks (chosen ++ block span rows start) rng'
termination_by rows.length - chosen.length
decreasing_by
  have hlt := Random.lt_of_randrange _h
  unfold block
  rw [length_append, length_take, length_drop]
  omega

variable {source span rows}

theorem length_block {start : Nat} (h : start + span < rows.length) :
    (block span rows start).length = span + 1 := by
  unfold block
  rw [length_take, length_drop]
  omega

theorem block_subset (start : Nat) : block span rows start ⊆ rows :=
  fun _ hx => mem_of_mem_drop (mem_of_mem_take hx)

/-- With a block's entries at least the loop ends, and what it appended is
whole blocks, no more of them than it takes. -/
theorem fillBlocks_ok (source : Random σ) (h : span < rows.length) (chosen : List α) (rng : σ) :
    ∃ starts rng', fillBlocks source span rows chosen rng
          = .ok (chosen ++ starts.flatMap (block span rows), rng')
        ∧ (∀ start ∈ starts, start + span < rows.length)
        ∧ rows.length ≤ chosen.length + starts.length * (span + 1)
        ∧ (starts ≠ [] → chosen.length + (starts.length - 1) * (span + 1) < rows.length) := by
  induction chosen, rng using fillBlocks.induct source span rows with
  | case1 chosen rng hdone =>
    rw [fillBlocks, if_pos hdone]
    exact ⟨[], rng, by simp, by simp, by simpa using hdone, by simp⟩
  | case2 chosen rng hmore raised hraised =>
    obtain ⟨start, rng', hok, -⟩ := source.randrange_ok rng (show 0 < rows.length - span by omega)
    rw [hok] at hraised
    cases hraised
  | case3 chosen rng hmore start rng' hrange ih =>
    have hlt := Random.lt_of_randrange hrange
    have hstart : start + span < rows.length := by omega
    obtain ⟨starts, rng'', hfill, hstarts, henough, hlast⟩ := ih
    rw [length_append, length_block hstart] at henough hlast
    refine ⟨start :: starts, rng'', ?_, ?_, ?_, ?_⟩
    case refine_1 =>
      rw [fillBlocks, if_neg hmore]
      split
      next raised hraised =>
        rw [hrange] at hraised
        cases hraised
      next start' rng₁ hrange' =>
        rw [hrange] at hrange'
        obtain ⟨rfl, rfl⟩ := Prod.mk.inj (Except.ok.inj hrange')
        rw [hfill, flatMap_cons, append_assoc]
    case refine_2 =>
      intro s hs
      rcases mem_cons.mp hs with rfl | hs
      · exact hstart
      · exact hstarts s hs
    case refine_3 =>
      rw [length_cons, Nat.add_mul]
      omega
    case refine_4 =>
      by_cases hnil : starts = []
      · rw [hnil]
        simp only [length_cons, length_nil]
        omega
      · have hpos := length_pos_iff.mpr hnil
        have hmul : (starts.length - 1 + 1) * (span + 1)
            = (starts.length - 1) * (span + 1) + (span + 1) := Nat.succ_mul _ _
        have hlast := hlast hnil
        rw [length_cons, Nat.add_sub_cancel]
        rw [Nat.sub_add_cancel hpos] at hmul
        omega

variable (span rows)

/-- `sampled` is as long as `rows` and consists of runs of `span + 1`
consecutive entries of `rows`, the last one cut short where it must be. -/
def Resampled (sampled : List α) : Prop :=
  sampled.length = rows.length ∧ ∃ starts : List Nat, (∀ start ∈ starts, start + span < rows.length)
      ∧ sampled = (starts.flatMap (block span rows)).take rows.length
      ∧ (starts.length - 1) * (span + 1) < rows.length

variable {span rows}

theorem fillBlocks_resampled (source : Random σ) (h : span < rows.length) (rng : σ) :
    ∃ chosen rng', fillBlocks source span rows [] rng = .ok (chosen, rng')
      ∧ Resampled span rows (chosen.take rows.length) := by
  obtain ⟨starts, rng', hfill, hstarts, henough, hlast⟩ := fillBlocks_ok source h [] rng
  refine ⟨_, rng', hfill, ?_, starts, hstarts, rfl, ?_⟩
  · have hlength : (starts.flatMap (block span rows)).length = starts.length * (span + 1) := by
      rw [length_flatMap, map_congr_left fun s hs => length_block (hstarts s hs)]
      simp
    rw [length_take, nil_append, hlength]
    simp only [length_nil, Nat.zero_add] at henough
    omega
  · by_cases hnil : starts = []
    · rw [hnil]
      simp only [length_nil]
      omega
    · simpa using hlast hnil

theorem Resampled.subset {sampled : List α} (h : Resampled span rows sampled) : sampled ⊆ rows := by
  obtain ⟨-, starts, -, rfl, -⟩ := h
  intro x hx
  obtain ⟨start, -, hx⟩ := mem_flatMap.mp (mem_of_mem_take hx)
  exact block_subset start hx

end Blocks

-- ==== ratios of sums

section Ratios

variable {α : Type _} {l : List α}

theorem sum_pos_of_pos {M : Type _} [AddCommMonoid M] [PartialOrder M] [IsOrderedCancelAddMonoid M]
    {weight : α → M} (hweight : ∀ x ∈ l, 0 < weight x) (hne : l ≠ []) :
    0 < (l.map weight).sum := by
  apply sum_pos
  · intro w hw
    obtain ⟨x, hx, rfl⟩ := mem_map.mp hw
    exact hweight x hx
  · rwa [ne_eq, map_eq_nil_iff]

variable {K : Type _} [Field K] [LinearOrder K] [IsStrictOrderedRing K] {value weight : α → K}
  {bound : K}

theorem le_ratio_of_sums (hweight : ∀ x ∈ l, 0 < weight x) (hne : l ≠ [])
    (h : ∀ x ∈ l, bound ≤ value x / weight x) :
    bound ≤ (l.map value).sum / (l.map weight).sum := by
  rw [le_div_iff₀ (sum_pos_of_pos hweight hne), ← sum_map_mul_left]
  apply sum_le_sum
  exact fun x hx => (le_div_iff₀ (hweight x hx)).mp (h x hx)

theorem ratio_of_sums_le (hweight : ∀ x ∈ l, 0 < weight x) (hne : l ≠ [])
    (h : ∀ x ∈ l, value x / weight x ≤ bound) :
    (l.map value).sum / (l.map weight).sum ≤ bound := by
  rw [div_le_iff₀ (sum_pos_of_pos hweight hne), ← sum_map_mul_left]
  apply sum_le_sum
  exact fun x hx => (div_le_iff₀ (hweight x hx)).mp (h x hx)

end Ratios

end MarketRegimeAlpha.Lib
