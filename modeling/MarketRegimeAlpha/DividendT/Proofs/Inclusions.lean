/-
The frame without inclusions: every bar lies wholly above or wholly below
the one before it.

# The invariant

A merge changes `rows[-1]` in place, and so it could bring it back into
inclusion with `rows[-2]`. That it does not is due to the direction, which
is always the one from `rows[-2]` to `rows[-1]` (`Moves`): upwards the merge
takes both maxima, downwards both minima. Of the first row the direction
says nothing, and there it does not matter.
-/
import Mathlib.Data.List.Chain
import MarketRegimeAlpha.DividendT.Chan

namespace MarketRegimeAlpha.DividendT

open List

-- ==== vocabulary

/-- The bar is strictly above the one before, at both ends. -/
def Rises (previous current : Row) : Prop :=
  previous.high < current.high ∧ previous.low < current.low

/-- The way from a bar to the next one. -/
def Moves : Direction → Row → Row → Prop
  | .up, previous, current => Rises previous current
  | .down, previous, current => Rises current previous

/-- No bar of the pair contains the other. -/
def Steps (previous current : Row) : Prop := Rises previous current ∨ Rises current previous

variable {direction : Direction} {previous current : Row}

theorem Moves.steps (h : Moves direction previous current) : Steps previous current := by
  cases direction with
  | up => exact Or.inl h
  | down => exact Or.inr h

theorem Rises.asymm (h : Rises previous current) : ¬ Rises current previous :=
  fun h' => lt_asymm h.1 h'.1

/-- A bar whose low is at most its high. -/
def Row.Ordered (row : Row) : Prop := row.low ≤ row.high

-- ==== one bar

variable {previous bar : Row}

/-- Two bars of which none contains the other differ at both ends the same
way. -/
theorem steps_of_not_contains (h : ¬ contains previous bar) : Steps previous bar := by
  simp only [contains, Bool.or_eq_true, Bool.and_eq_true, decide_eq_true_eq,
    not_or, not_and, not_le] at h
  obtain ⟨hinside, hoverlap⟩ := h
  by_cases hhigh : bar.high ≤ previous.high
  · have hlow : bar.low < previous.low := hinside hhigh
    refine Or.inr ⟨lt_of_le_of_ne hhigh ?_, hlow⟩
    intro heq
    exact lt_asymm hlow (hoverlap heq.ge)
  · have hhigh' : previous.high < bar.high := not_le.mp hhigh
    exact Or.inl ⟨hhigh', hoverlap hhigh'.le⟩

theorem moves_nextDirection (h : Steps previous bar) :
    Moves (nextDirection direction previous bar) previous bar := by
  unfold nextDirection
  by_cases hup : previous.high < bar.high ∧ previous.low < bar.low
  · rw [if_pos hup]
    exact hup
  · have hdown : bar.high < previous.high ∧ bar.low < previous.low := h.resolve_left hup
    rw [if_neg hup, if_pos hdown]
    exact hdown

/-- A merge moves `rows[-1]` further in the direction it came. -/
theorem moves_merge {before previous : Row} (bar : Row) (h : Moves direction before previous) :
    Moves direction before (merge direction previous bar) := by
  cases direction with
  | up => exact ⟨lt_of_lt_of_le h.1 (le_max_left _ _), lt_of_lt_of_le h.2 (le_max_left _ _)⟩
  | down => exact ⟨lt_of_le_of_lt (min_le_left _ _) h.1, lt_of_le_of_lt (min_le_left _ _) h.2⟩

theorem ordered_merge (hprevious : previous.Ordered) (hbar : bar.Ordered) :
    (merge direction previous bar).Ordered := by
  cases direction with
  | up => exact max_le_max hprevious hbar
  | down => exact min_le_min hprevious hbar

-- ==== the loop

theorem isChain_cons_normalizeFrom {before previous : Row} (bars : List Row)
    (h : Moves direction before previous) :
    (before :: normalizeFrom direction previous bars).IsChain Steps := by
  induction bars generalizing direction before previous with
  | nil =>
    exact isChain_pair.mpr h.steps
  | cons bar bars ih =>
    unfold normalizeFrom
    by_cases hcontains : contains previous bar
    · rw [if_pos hcontains]
      exact ih (moves_merge bar h)
    · rw [if_neg hcontains]
      have hnext : Moves (nextDirection direction previous bar) previous bar :=
        moves_nextDirection (steps_of_not_contains hcontains)
      exact isChain_cons_cons.mpr ⟨h.steps, ih hnext⟩

theorem exists_moves (direction : Direction) (row : Row) :
    ∃ before, Moves direction before row := by
  cases direction with
  | up => exact ⟨{ row with high := row.high - 1, low := row.low - 1 }, sub_one_lt _, sub_one_lt _⟩
  | down =>
    exact ⟨{ row with high := row.high + 1, low := row.low + 1 }, lt_add_one _, lt_add_one _⟩

theorem isChain_normalizeFrom (direction : Direction) (previous : Row) (bars : List Row) :
    (normalizeFrom direction previous bars).IsChain Steps := by
  obtain ⟨before, h⟩ := exists_moves direction previous
  exact (isChain_cons_normalizeFrom bars h).tail

theorem ordered_normalizeFrom {previous : Row} {bars : List Row} (hprevious : previous.Ordered)
    (hbars : ∀ bar ∈ bars, bar.Ordered) :
    ∀ row ∈ normalizeFrom direction previous bars, row.Ordered := by
  induction bars generalizing direction previous with
  | nil =>
    exact forall_mem_singleton.mpr hprevious
  | cons bar bars ih =>
    obtain ⟨hbar, hbars⟩ := forall_mem_cons.mp hbars
    unfold normalizeFrom
    by_cases hcontains : contains previous bar
    · rw [if_pos hcontains]
      exact ih (ordered_merge hprevious hbar) hbars
    · rw [if_neg hcontains]
      exact forall_mem_cons.mpr ⟨hprevious, ih hbar hbars⟩

theorem normalizeFrom_ne_nil (direction : Direction) (previous : Row)
    (bars : List Row) : normalizeFrom direction previous bars ≠ [] := by
  induction bars generalizing direction previous with
  | nil => exact cons_ne_nil _ _
  | cons bar bars ih =>
    unfold normalizeFrom
    by_cases hcontains : contains previous bar
    · rw [if_pos hcontains]
      exact ih _ _
    · rw [if_neg hcontains]
      exact cons_ne_nil _ _

-- ==== the source ranges

def Row.indices (row : Row) : List Nat :=
  List.range' row.sourceStartIndex (row.sourceEndIndex + 1 - row.sourceStartIndex)

/-- Rows of which each takes up where the one before it ends. -/
structure Consecutive (rows : List Row) : Prop where
  forwards : ∀ row ∈ rows, row.sourceStartIndex ≤ row.sourceEndIndex
  chain : rows.IsChain fun row next => next.sourceStartIndex = row.sourceEndIndex + 1

section Ranges

variable {direction : Direction} {previous bar : Row} {bars : List Row}

theorem indices_merge (direction : Direction)
    (hprevious : previous.sourceStartIndex ≤ previous.sourceEndIndex)
    (hbar : bar.sourceStartIndex ≤ bar.sourceEndIndex)
    (h : bar.sourceStartIndex = previous.sourceEndIndex + 1) :
    (merge direction previous bar).indices = previous.indices ++ bar.indices := by
  have hlength : bar.sourceEndIndex + 1 - previous.sourceStartIndex
      = (previous.sourceEndIndex + 1 - previous.sourceStartIndex)
        + (bar.sourceEndIndex + 1 - bar.sourceStartIndex) := by omega
  have hstart : bar.sourceStartIndex = previous.sourceStartIndex
      + (previous.sourceEndIndex + 1 - previous.sourceStartIndex) := by omega
  show List.range' previous.sourceStartIndex
      (bar.sourceEndIndex + 1 - previous.sourceStartIndex) = _
  rw [hlength, ← range'_append_1, ← hstart]
  rfl

theorem Consecutive.merge (h : Consecutive (previous :: bar :: bars)) (direction : Direction) :
    Consecutive (merge direction previous bar :: bars) := by
  obtain ⟨hprevious, hforwards⟩ := forall_mem_cons.mp h.forwards
  obtain ⟨hbar, hforwards⟩ := forall_mem_cons.mp hforwards
  obtain ⟨hadjacent, hchain⟩ := isChain_cons_cons.mp h.chain
  constructor
  case forwards =>
    refine forall_mem_cons.mpr ⟨?_, hforwards⟩
    show previous.sourceStartIndex ≤ bar.sourceEndIndex
    omega
  case chain =>
    cases bars with
    | nil => exact isChain_singleton _
    | cons next bars =>
      obtain ⟨hnext, hchain⟩ := isChain_cons_cons.mp hchain
      exact isChain_cons_cons.mpr ⟨hnext, hchain⟩

theorem Consecutive.tail (h : Consecutive (previous :: bars)) : Consecutive bars :=
  ⟨(forall_mem_cons.mp h.forwards).2, h.chain.tail⟩

/-- The rows have the indices of the bars, in their order, and none is
empty. -/
theorem indices_normalizeFrom (h : Consecutive (previous :: bars)) :
    (normalizeFrom direction previous bars).flatMap Row.indices
        = (previous :: bars).flatMap Row.indices
      ∧ ∀ row ∈ normalizeFrom direction previous bars,
          row.sourceStartIndex ≤ row.sourceEndIndex := by
  induction bars generalizing direction previous with
  | nil =>
    exact ⟨rfl, h.forwards⟩
  | cons bar bars ih =>
    obtain ⟨hprevious, hforwards⟩ := forall_mem_cons.mp h.forwards
    obtain ⟨hbar, -⟩ := forall_mem_cons.mp hforwards
    obtain ⟨hadjacent, -⟩ := isChain_cons_cons.mp h.chain
    unfold normalizeFrom
    by_cases hcontains : contains previous bar
    · rw [if_pos hcontains]
      obtain ⟨hindices, hrows⟩ := @ih direction _ (h.merge direction)
      refine ⟨?_, hrows⟩
      rw [hindices, flatMap_cons, flatMap_cons, flatMap_cons,
        indices_merge direction hprevious hbar hadjacent, append_assoc]
    · rw [if_neg hcontains]
      obtain ⟨hindices, hrows⟩ := ih h.tail
      refine ⟨?_, forall_mem_cons.mpr ⟨hprevious, hrows⟩⟩
      rw [flatMap_cons, hindices, flatMap_cons, flatMap_cons, flatMap_cons]

theorem sum_normalizeFrom (total : Row → ℚ) (hmerge : ∀ direction previous bar,
      total (merge direction previous bar) = total previous + total bar) :
    ((normalizeFrom direction previous bars).map total).sum
      = ((previous :: bars).map total).sum := by
  induction bars generalizing direction previous with
  | nil => rfl
  | cons bar bars ih =>
    unfold normalizeFrom
    by_cases hcontains : contains previous bar
    · rw [if_pos hcontains, ih, map_cons, map_cons, map_cons,
        sum_cons, sum_cons, sum_cons, hmerge, add_assoc]
    · rw [if_neg hcontains, map_cons, sum_cons, ih]
      rfl

end Ranges

-- ==== the whole frame

def sourceRows (bars : List Bar) : List Row :=
  bars.zipIdx.map fun (bar, index) =>
    { bar with sourceStartIndex := index, sourceEndIndex := index : Row }

theorem flatMap_indices_sourceRows (bars : List Bar) :
    (sourceRows bars).flatMap Row.indices = List.range bars.length := by
  have hsingle : ∀ row ∈ sourceRows bars, row.indices = [row.sourceStartIndex] := by
    intro row hrow
    obtain ⟨⟨bar, index⟩, -, rfl⟩ := mem_map.mp hrow
    show List.range' index (index + 1 - index) = [index]
    rw [Nat.add_sub_cancel_left]
    rfl
  rw [flatMap_def, map_congr_left hsingle, ← flatMap_def,
    ← map_eq_flatMap, sourceRows, map_map, range_eq_range']
  exact zipIdx_map_snd 0 bars

theorem consecutive_sourceRows (bars : List Bar) : Consecutive (sourceRows bars) := by
  have hrows : ∀ start, Consecutive ((bars.zipIdx start).map fun (bar, index) =>
      { bar with sourceStartIndex := index, sourceEndIndex := index : Row }) := by
    induction bars with
    | nil =>
      intro start
      exact ⟨fun row hrow => absurd hrow not_mem_nil, isChain_nil⟩
    | cons bar bars ih =>
      intro start
      have hrest := ih (start + 1)
      constructor
      case forwards => exact forall_mem_cons.mpr ⟨le_rfl, hrest.forwards⟩
      case chain =>
        cases bars with
        | nil => exact isChain_singleton _
        | cons next bars =>
          exact isChain_cons_cons.mpr ⟨rfl, hrest.chain⟩
  exact hrows 0

theorem isChain_normalizeInclusions (bars : List Bar) :
    (normalizeInclusions bars).IsChain Steps := by
  unfold normalizeInclusions
  split
  next => exact isChain_nil
  next first rest heq => exact isChain_normalizeFrom _ _ _

variable {bars : List Bar}

theorem ordered_normalizeInclusions (h : ∀ bar ∈ bars, bar.low ≤ bar.high) :
    ∀ row ∈ normalizeInclusions bars, row.Ordered := by
  have hrows : ∀ row ∈ (bars.zipIdx.map fun (bar, index) =>
      { bar with sourceStartIndex := index, sourceEndIndex := index : Row }),
      row.Ordered := by
    intro row hrow
    obtain ⟨⟨bar, index⟩, hmem, rfl⟩ := mem_map.mp hrow
    exact h bar (fst_mem_of_mem_zipIdx hmem)
  unfold normalizeInclusions
  split
  next => exact fun _ hrow => absurd hrow not_mem_nil
  next first rest heq =>
    rw [heq] at hrows
    obtain ⟨hfirst, hrest⟩ := forall_mem_cons.mp hrows
    exact ordered_normalizeFrom hfirst hrest

theorem normalizeInclusions_ne_nil (h : bars ≠ []) : normalizeInclusions bars ≠ [] := by
  unfold normalizeInclusions
  split
  next heq =>
    rw [map_eq_nil_iff, zipIdx_eq_nil_iff] at heq
    exact absurd heq h
  next first rest heq => exact normalizeFrom_ne_nil _ _ _

theorem indices_normalizeInclusions (bars : List Bar) :
    (normalizeInclusions bars).flatMap Row.indices = List.range bars.length
      ∧ ∀ row ∈ normalizeInclusions bars, row.sourceStartIndex ≤ row.sourceEndIndex := by
  have hindices := flatMap_indices_sourceRows bars
  have hconsecutive := consecutive_sourceRows bars
  unfold normalizeInclusions
  unfold sourceRows at hindices hconsecutive
  split
  next heq =>
    rw [heq] at hindices
    exact ⟨hindices, fun _ hrow => absurd hrow not_mem_nil⟩
  next first rest heq =>
    rw [heq] at hindices hconsecutive
    rw [← hindices]
    exact indices_normalizeFrom hconsecutive

theorem sum_normalizeInclusions (total : Bar → ℚ)
    (hmerge : ∀ direction (previous bar : Row), total (merge direction previous bar).toBar
        = total previous.toBar + total bar.toBar) (bars : List Bar) :
    ((normalizeInclusions bars).map fun row => total row.toBar).sum = (bars.map total).sum := by
  have hsource : ((sourceRows bars).map fun row => total row.toBar) = bars.map total := by
    unfold sourceRows
    rw [map_map]
    calc bars.zipIdx.map (total ∘ Prod.fst)
        = (bars.zipIdx.map Prod.fst).map total := by rw [map_map]
      _ = bars.map total := by rw [zipIdx_map_fst]
  unfold sourceRows at hsource
  rw [← hsource]
  unfold normalizeInclusions
  split
  next heq => rw [heq]
  next first rest heq =>
    rw [heq]
    exact sum_normalizeFrom (fun row => total row.toBar) hmerge

/-- The frame without inclusions: every row keeps its low at most its high,
neighbours differ strictly at both ends and the same way, the source ranges
take the bars apart in their order, and the volumes and the amounts add up to
those of the bars. -/
theorem inclusions_normalized (bars : List Bar) (_ : bars ≠ [])
    (hordered : ∀ bar ∈ bars, bar.low ≤ bar.high) :
    (∀ row ∈ normalizeInclusions bars, row.low ≤ row.high)
      ∧ (normalizeInclusions bars).IsChain Steps
      ∧ (normalizeInclusions bars).flatMap Row.indices = List.range bars.length
      ∧ (∀ row ∈ normalizeInclusions bars, row.sourceStartIndex ≤ row.sourceEndIndex)
      ∧ ((normalizeInclusions bars).map (·.volume)).sum = (bars.map (·.volume)).sum
      ∧ ((normalizeInclusions bars).map (·.amount)).sum = (bars.map (·.amount)).sum :=
  ⟨ordered_normalizeInclusions hordered, isChain_normalizeInclusions bars,
    (indices_normalizeInclusions bars).1, (indices_normalizeInclusions bars).2,
    sum_normalizeInclusions (·.volume) (fun _ _ _ => rfl) bars,
    sum_normalizeInclusions (·.amount) (fun _ _ _ => rfl) bars⟩

def insideBars : List Bar :=
  [⟨0, 5, 9, 3, 6, 10, 60⟩, ⟨1, 6, 8, 4, 5, 20, 110⟩, ⟨2, 4, 5, 1, 2, 30, 70⟩]

theorem inclusions_normalized_inside :
    (normalizeInclusions insideBars).map Row.indices = [[0, 1], [2]]
      ∧ (normalizeInclusions insideBars).flatMap Row.indices = List.range insideBars.length :=
  ⟨by decide +kernel, (inclusions_normalized insideBars (by decide) (by decide)).2.2.1⟩

end MarketRegimeAlpha.DividendT
