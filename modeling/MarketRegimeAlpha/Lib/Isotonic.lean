/-
Lists cut into blocks that share one level each, and when the levels are the
best monotone fit.

# Pooled blocks

A block is pooled if none of its prefixes lies below its mean (`Pooled`). One
entry alone is pooled, and so are two pooled blocks joined, if the first has the
greater mean: the joint mean lies between the two.

# The fit

Let every block be pooled and every entry get the mean of its block. By a
summation by parts within each block, no monotone sequence is nearer to the
entries, and its excess is at least its squared distance from the fit
(`squares_fitted_add_le`). If the means do not decrease the fit is monotone
itself, so it is the nearest and the only nearest one.

# Where blocks end

A block that was joined from pieces has in each of its inner places a run that
ends there with a greater mean than a run that starts there (`Clasped`), and
between two pooled blocks with means in order there is no such pair: the ends of
the blocks can be told from the list alone (`BlocksMade.ends_iff`).
-/
import Mathlib.Algebra.BigOperators.Ring.List
import Mathlib.Algebra.Order.BigOperators.Group.List
import Mathlib.Tactic.FieldSimp
import Mathlib.Tactic.Linarith
import Mathlib.Tactic.Ring

namespace MarketRegimeAlpha.Lib

open List

-- ==== the blocks

/-- Some entries in a row. -/
structure Block (α : Type _) where
  entries : List α
  filled : entries ≠ []

namespace Block

variable {α : Type _}

/-- `[item]`. -/
def single (item : α) : Block α := ⟨[item], cons_ne_nil _ _⟩

/-- Two neighbours as one. -/
def join (b c : Block α) : Block α :=
  ⟨b.entries ++ c.entries, fun h => b.filled (append_eq_nil_iff.mp h).1⟩

def first (b : Block α) : α := b.entries.head b.filled

def last (b : Block α) : α := b.entries.getLast b.filled

def entriesOf (blocks : List (Block α)) : List α := (blocks.map Block.entries).flatten

@[simp] theorem entriesOf_nil : entriesOf ([] : List (Block α)) = [] := rfl

@[simp] theorem entriesOf_cons (b : Block α) (blocks : List (Block α)) :
    entriesOf (b :: blocks) = b.entries ++ entriesOf blocks := rfl

@[simp] theorem entriesOf_append (bs cs : List (Block α)) :
    entriesOf (bs ++ cs) = entriesOf bs ++ entriesOf cs := by
  simp [entriesOf]

@[simp] theorem single_entries (item : α) : (single item).entries = [item] := rfl

@[simp] theorem join_entries (b c : Block α) : (b.join c).entries = b.entries ++ c.entries := rfl

theorem entriesOf_singles (l : List α) : entriesOf (l.map single) = l := by
  induction l with
  | nil => rfl
  | cons item l ih => rw [map_cons, entriesOf_cons, ih]; rfl

theorem first_mem (b : Block α) : b.first ∈ b.entries := head_mem b.filled

theorem last_mem (b : Block α) : b.last ∈ b.entries := getLast_mem b.filled

end Block

-- ==== the means

section Means

variable {α K : Type _} [Field K]

/-- The mean of what `f` makes of the entries. -/
def meanOf (f : α → K) (l : List α) : K := (l.map f).sum / l.length

theorem sum_map_append (f : α → K) (front back : List α) :
    ((front ++ back).map f).sum = (front.map f).sum + (back.map f).sum := by
  rw [map_append, sum_append]

theorem cast_length_append (front back : List α) :
    ((front ++ back).length : K) = front.length + back.length := by
  rw [length_append, Nat.cast_add]

variable [LinearOrder K] [IsStrictOrderedRing K] {f : α → K} {l front back : List α} {m : K}

theorem length_pos_of_ne (h : l ≠ []) : (0 : K) < l.length := by
  exact_mod_cast length_pos_iff.mpr h

theorem meanOf_mul_length (f : α → K) (h : l ≠ []) : meanOf f l * l.length = (l.map f).sum :=
  div_mul_cancel₀ _ (length_pos_of_ne h).ne'

theorem le_meanOf_iff (h : l ≠ []) : m ≤ meanOf f l ↔ m * l.length ≤ (l.map f).sum :=
  le_div_iff₀ (length_pos_of_ne h)

theorem meanOf_le_iff (h : l ≠ []) : meanOf f l ≤ m ↔ (l.map f).sum ≤ m * l.length :=
  div_le_iff₀ (length_pos_of_ne h)

theorem meanOf_append_le (hfront : front ≠ []) (hback : back ≠ [])
    (h : meanOf f back ≤ meanOf f front) :
    meanOf f (front ++ back) ≤ meanOf f front := by
  rw [meanOf_le_iff (append_ne_nil_of_left_ne_nil hfront back), sum_map_append,
    cast_length_append, mul_add, meanOf_mul_length f hfront]
  exact add_le_add_right ((meanOf_le_iff hback).mp h) _

theorem le_meanOf_append (hfront : front ≠ []) (hback : back ≠ [])
    (h : meanOf f back ≤ meanOf f front) :
    meanOf f back ≤ meanOf f (front ++ back) := by
  rw [le_meanOf_iff (append_ne_nil_of_left_ne_nil hfront back), sum_map_append,
    cast_length_append, mul_add, meanOf_mul_length f hback]
  exact add_le_add_left ((le_meanOf_iff hfront).mp h) _

end Means

-- ==== pooled entries

section Pooled

variable {α K : Type _} [Field K] [LinearOrder K] {f : α → K} {l a b : List α}

/-- No prefix lies below the mean. -/
def Pooled (f : α → K) (l : List α) : Prop :=
  ∀ front back, l = front ++ back → meanOf f l * front.length ≤ (front.map f).sum

/-- The runs that end with `front` have no greater mean than those that start
with `back`: what tells an end of a block from the entries alone. -/
def EndsBetween (f : α → K) (front back : List α) : Prop :=
  ∀ p run run' s, front = p ++ run → back = run' ++ s → run ≠ [] → run' ≠ [] →
    meanOf f run ≤ meanOf f run'

/-- No block ends within these entries. -/
def Clasped (f : α → K) (l : List α) : Prop :=
  ∀ front back, l = front ++ back → front ≠ [] → back ≠ [] → ¬ EndsBetween f front back

theorem Pooled.singleton (f : α → K) (item : α) : Pooled f [item] := by
  intro front back h
  cases front with
  | nil => simp
  | cons x front =>
    injection h with hx hrest
    obtain ⟨rfl, rfl⟩ := append_eq_nil_iff.mp hrest.symm
    rw [hx]
    simp [meanOf]

theorem Clasped.singleton (f : α → K) (item : α) : Clasped f [item] := by
  intro front back h hfront hback
  have hlength := congrArg List.length h
  rw [length_append, length_singleton] at hlength
  have := length_pos_iff.mpr hfront
  have := length_pos_iff.mpr hback
  omega

theorem EndsBetween.shorter {p front back s : List α}
    (h : EndsBetween f (p ++ front) (back ++ s)) : EndsBetween f front back := by
  intro q run run' t hfront hback
  apply h (p ++ q) run run' (t ++ s)
  · rw [hfront, append_assoc]
  · rw [hback, append_assoc]

theorem Clasped.append (ha : Clasped f a) (hb : Clasped f b) (hane : a ≠ [])
    (hbne : b ≠ []) (h : meanOf f b < meanOf f a) : Clasped f (a ++ b) := by
  intro front back hsplit hfront hback hends
  obtain ⟨mid, rfl, rfl⟩ | ⟨mid, rfl, rfl⟩ := append_eq_append_iff.mp hsplit
  · by_cases hmid : mid = []
    · subst hmid
      exact absurd (hends [] a back [] (append_nil a) (append_nil _).symm
        hane hback) (not_le.mpr h)
    · refine hb mid back rfl hmid hback ?_
      exact EndsBetween.shorter (s := []) (by rwa [append_nil])
  · by_cases hmid : mid = []
    · subst hmid
      rw [append_nil] at h
      exact absurd (hends [] front b [] rfl (append_nil _).symm hfront hbne) (not_le.mpr h)
    · exact ha front mid rfl hfront hmid (EndsBetween.shorter (p := []) hends)

variable [IsStrictOrderedRing K]

/-- A prefix of the two joined lies above the joint mean: a whole first part
and a prefix of the second make up for what the joint mean exceeds the second. -/
theorem Pooled.append (ha : Pooled f a) (hb : Pooled f b) (hane : a ≠ [])
    (hbne : b ≠ []) (h : meanOf f b ≤ meanOf f a) : Pooled f (a ++ b) := by
  intro front back hsplit
  have hle := meanOf_append_le hane hbne h
  have hge := le_meanOf_append hane hbne h
  obtain ⟨mid, rfl, rfl⟩ | ⟨mid, rfl, rfl⟩ := append_eq_append_iff.mp hsplit
  · -- the whole of `a` and the part `mid` of `b`
    have hmid := hb mid back rfl
    have hshort : (0 : K) ≤ back.length := Nat.cast_nonneg _
    have htotal := meanOf_mul_length f (append_ne_nil_of_left_ne_nil hane (mid ++ back))
    have hbtotal := meanOf_mul_length f hbne
    rw [sum_map_append f a, cast_length_append a] at htotal
    rw [sum_map_append, cast_length_append]
    rw [cast_length_append] at htotal hbtotal
    have := mul_le_mul_of_nonneg_right hge hshort
    linarith
  · have hfront := ha front mid rfl
    have := mul_le_mul_of_nonneg_right hle (Nat.cast_nonneg (α := K) front.length)
    exact this.trans hfront

end Pooled

-- ==== the ends of blocks

section Ends

variable {α K : Type _} [Field K] [LinearOrder K] {f : α → K} {blocks : List (Block α)}
  {front back : List α}

def Block.mean (f : α → K) (b : Block α) : K := meanOf f b.entries

/-- Every block is pooled and has no end within. -/
def BlocksMade (f : α → K) (blocks : List (Block α)) : Prop :=
  ∀ b ∈ blocks, Pooled f b.entries ∧ Clasped f b.entries

/-- The means do not decrease. -/
def BlocksRise (f : α → K) (blocks : List (Block α)) : Prop :=
  blocks.Pairwise fun b c => b.mean f ≤ c.mean f

theorem Block.cut (h : Block.entriesOf blocks = front ++ back) :
    (∃ bs cs, blocks = bs ++ cs ∧ Block.entriesOf bs = front ∧ Block.entriesOf cs = back)
      ∨ ∃ bs b cs u v, blocks = bs ++ b :: cs ∧ b.entries = u ++ v ∧ u ≠ [] ∧ v ≠ []
        ∧ front = Block.entriesOf bs ++ u ∧ back = v ++ Block.entriesOf cs := by
  induction blocks generalizing front with
  | nil =>
    obtain ⟨rfl, rfl⟩ := append_eq_nil_iff.mp h.symm
    exact .inl ⟨[], [], rfl, rfl, rfl⟩
  | cons b blocks ih =>
    rw [Block.entriesOf_cons] at h
    obtain ⟨mid, rfl, hrest⟩ | ⟨v, hb, rfl⟩ := append_eq_append_iff.mp h
    · obtain ⟨bs, cs, rfl, rfl, rfl⟩ | ⟨bs, c, cs, u, v, rfl, hc, hu, hv, rfl, rfl⟩ := ih hrest
      · exact .inl ⟨b :: bs, cs, rfl, rfl, rfl⟩
      · exact .inr ⟨b :: bs, c, cs, u, v, rfl, hc, hu, hv, (append_assoc _ _ _).symm, rfl⟩
    · by_cases hfront : front = []
      · subst hfront
        rw [nil_append] at hb
        exact .inl ⟨[], b :: blocks, rfl, rfl, by rw [Block.entriesOf_cons, hb]⟩
      · by_cases hv : v = []
        · subst hv
          exact .inl ⟨[b], blocks, rfl, by simp [hb], rfl⟩
        · exact .inr ⟨[], b, blocks, front, v, rfl, hb, hfront, hv, rfl, rfl⟩

variable [IsStrictOrderedRing K] {m : K} (hpooled : ∀ b ∈ blocks, Pooled f b.entries)

include hpooled in
/-- A prefix of pooled blocks with means of at least `m`. -/
theorem Pooled.prefix_ge (hm : ∀ b ∈ blocks, m ≤ b.mean f)
    (h : Block.entriesOf blocks = front ++ back) :
    m * front.length ≤ (front.map f).sum := by
  induction blocks generalizing front with
  | nil =>
    obtain ⟨rfl, -⟩ := append_eq_nil_iff.mp h.symm
    simp
  | cons b blocks ih =>
    have hb : m ≤ b.mean f := hm b mem_cons_self
    obtain ⟨mid, rfl, hrest⟩ | ⟨v, hfront, -⟩ := append_eq_append_iff.mp h
    · have hmid := ih (fun c hc => hpooled c (mem_cons_of_mem b hc))
        (fun c hc => hm c (mem_cons_of_mem b hc)) hrest
      rw [sum_map_append, cast_length_append, mul_add]
      exact add_le_add ((le_meanOf_iff b.filled).mp hb) hmid
    · exact (mul_le_mul_of_nonneg_right hb (Nat.cast_nonneg _)).trans
        (hpooled b mem_cons_self front v hfront)

theorem Pooled.suffix_le (h : Pooled f (front ++ back)) (hne : front ++ back ≠ []) :
    (back.map f).sum ≤ meanOf f (front ++ back) * back.length := by
  have htotal := meanOf_mul_length f hne
  rw [sum_map_append, cast_length_append, mul_add] at htotal
  have := h front back rfl
  linarith

/-- The whole of blocks with means of at most `m`. -/
theorem Block.entriesOf_le (hm : ∀ b ∈ blocks, b.mean f ≤ m) :
    ((Block.entriesOf blocks).map f).sum ≤ m * (Block.entriesOf blocks).length := by
  induction blocks with
  | nil => simp
  | cons b blocks ih =>
    have hrest := ih fun c hc => hm c (mem_cons_of_mem b hc)
    rw [Block.entriesOf_cons, sum_map_append, cast_length_append, mul_add]
    exact add_le_add ((meanOf_le_iff b.filled).mp (hm b mem_cons_self)) hrest

/-- The whole of blocks with means of at least `m`. -/
theorem Block.le_entriesOf (hm : ∀ b ∈ blocks, m ≤ b.mean f) :
    m * (Block.entriesOf blocks).length ≤ ((Block.entriesOf blocks).map f).sum := by
  induction blocks with
  | nil => simp
  | cons b blocks ih =>
    have hrest := ih fun c hc => hm c (mem_cons_of_mem b hc)
    rw [Block.entriesOf_cons, sum_map_append, cast_length_append, mul_add]
    exact add_le_add ((le_meanOf_iff b.filled).mp (hm b mem_cons_self)) hrest

include hpooled in
/-- A suffix of pooled blocks with means of at most `m`. -/
theorem Pooled.suffix_le_of_blocks (hm : ∀ b ∈ blocks, b.mean f ≤ m)
    (h : Block.entriesOf blocks = front ++ back) :
    (back.map f).sum ≤ m * back.length := by
  obtain ⟨bs, cs, rfl, rfl, rfl⟩ | ⟨bs, b, cs, u, v, rfl, hb, hu, -, rfl, rfl⟩ := Block.cut h
  · exact Block.entriesOf_le fun c hc => hm c (mem_append_right bs hc)
  · have hmem : b ∈ bs ++ b :: cs := mem_append_right bs mem_cons_self
    have hv := Pooled.suffix_le (hb ▸ hpooled b hmem) (append_ne_nil_of_left_ne_nil hu v)
    have hmean : meanOf f (u ++ v) ≤ m := by
      rw [← hb]
      exact hm b hmem
    have hcs : ((Block.entriesOf cs).map f).sum ≤ m * (Block.entriesOf cs).length :=
      Block.entriesOf_le fun c hc => hm c (mem_append_right bs (mem_cons_of_mem b hc))
    rw [sum_map_append, cast_length_append, mul_add]
    exact add_le_add (hv.trans (mul_le_mul_of_nonneg_right hmean (Nat.cast_nonneg _))) hcs

theorem BlocksRise.endsBetween {bs cs : List (Block α)}
    (hpooled : ∀ b ∈ bs ++ cs, Pooled f b.entries) (hrise : BlocksRise f (bs ++ cs)) :
    EndsBetween f (Block.entriesOf bs) (Block.entriesOf cs) := by
  intro p run run' s hfront hback hrun hrun'
  cases cs with
  | nil => exact absurd (append_eq_nil_iff.mp hback.symm).1 hrun'
  | cons c cs =>
    obtain ⟨-, hcs, hcross⟩ := pairwise_append.mp hrise
    have hbelow : meanOf f run ≤ c.mean f := by
      rw [meanOf_le_iff hrun]
      exact Pooled.suffix_le_of_blocks (fun b hb => hpooled b (mem_append_left _ hb))
        (fun b hb => hcross b hb c mem_cons_self) hfront
    have habove : c.mean f ≤ meanOf f run' := by
      rw [le_meanOf_iff hrun']
      have hleast : ∀ b ∈ c :: cs, c.mean f ≤ b.mean f := by
        intro b hb
        cases hb with
        | head => exact le_rfl
        | tail _ hb => exact (pairwise_cons.mp hcs).1 b hb
      exact Pooled.prefix_ge (fun b hb => hpooled b (mem_append_right _ hb)) hleast hback
    exact hbelow.trans habove

theorem BlocksMade.ends_iff (hmade : BlocksMade f blocks) (hrise : BlocksRise f blocks)
    (h : Block.entriesOf blocks = front ++ back) :
    EndsBetween f front back ↔ ∃ bs cs, blocks = bs ++ cs
      ∧ Block.entriesOf bs = front ∧ Block.entriesOf cs = back := by
  constructor
  case mp =>
    intro hends
    obtain hcut | ⟨bs, b, cs, u, v, rfl, hb, hu, hv, rfl, rfl⟩ := Block.cut h
    · exact hcut
    · exact absurd (EndsBetween.shorter hends)
        ((hmade b (mem_append_right bs mem_cons_self)).2 u v hb hu hv)
  case mpr =>
    intro ⟨bs, cs, hblocks, hfront, hback⟩
    rw [hblocks] at hrise hmade
    rw [← hfront, ← hback]
    exact hrise.endsBetween fun b hb => (hmade b hb).1

/-- Where blocks whose means rise are pooled as a whole, no mean is above the
first. -/
theorem BlocksRise.mean_le_first {b c : Block α} (hrise : BlocksRise f (b :: blocks))
    (hpooled : Pooled f (Block.entriesOf (b :: blocks))) (hc : c ∈ b :: blocks) :
    c.mean f ≤ b.mean f := by
  have hfirst : ∀ d ∈ b :: blocks, b.mean f ≤ d.mean f := by
    intro d hd
    cases hd with
    | head => exact le_rfl
    | tail _ hd => exact (pairwise_cons.mp hrise).1 d hd
  -- the joint mean is at most that of the first block, which is a prefix
  have hprefix := hpooled b.entries (Block.entriesOf blocks) (Block.entriesOf_cons b blocks)
  have hjoint := (le_meanOf_iff b.filled).mpr hprefix
  have hne : Block.entriesOf (b :: blocks) ≠ [] := append_ne_nil_of_left_ne_nil b.filled _
  have habove := (meanOf_le_iff hne).mp hjoint
  -- so no other block can be above it
  obtain ⟨xs, ys, hsplit⟩ := append_of_mem hc
  rw [hsplit] at habove hfirst
  have hxs := Block.le_entriesOf fun d hd => hfirst d (mem_append_left _ hd)
  have hys := Block.le_entriesOf fun d hd =>
    hfirst d (mem_append_right xs (mem_cons_of_mem c hd))
  refine (meanOf_le_iff c.filled).mpr ?_
  rw [Block.entriesOf_append, Block.entriesOf_cons, sum_map_append, sum_map_append,
    cast_length_append, cast_length_append] at habove
  have hb : meanOf f b.entries = b.mean f := rfl
  rw [hb] at habove
  linarith

include hpooled in
theorem Pooled.of_level (hlevel : ∀ b ∈ blocks, b.mean f = m) : Pooled f (Block.entriesOf blocks)
    := by
  intro front back hsplit
  by_cases hfront : front = []
  · subst hfront
    simp
  have hne : Block.entriesOf blocks ≠ [] := by
    rw [hsplit]
    exact append_ne_nil_of_left_ne_nil hfront back
  have hmean : meanOf f (Block.entriesOf blocks) ≤ m :=
    (meanOf_le_iff hne).mpr (Block.entriesOf_le fun b hb => (hlevel b hb).le)
  exact (mul_le_mul_of_nonneg_right hmean (Nat.cast_nonneg _)).trans
    (Pooled.prefix_ge hpooled (fun b hb => (hlevel b hb).ge) hsplit)

end Ends

-- ==== the fit

section Fit

variable {α K : Type _} [Field K] {f : α → K} {blocks : List (Block α)} {ys gs : List K}

/-- The sum of the squared differences of two sequences. -/
def squares (ys gs : List K) : K := ((ys.zip gs).map fun p => (p.1 - p.2) * (p.1 - p.2)).sum

/-- Every entry gets the mean of its block. -/
def fitted (f : α → K) (blocks : List (Block α)) : List K :=
  blocks.flatMap fun b => List.replicate b.entries.length (b.mean f)

theorem fitted_cons (b : Block α) : fitted f (b :: blocks)
      = List.replicate b.entries.length (b.mean f) ++ fitted f blocks := by
  simp [fitted]

theorem length_fitted (f : α → K) (blocks : List (Block α)) :
    (fitted f blocks).length = (Block.entriesOf blocks).length := by
  induction blocks with
  | nil => rfl
  | cons b blocks ih =>
    rw [fitted_cons, Block.entriesOf_cons, length_append, length_append,
      length_replicate, ih]

theorem squares_append {ys' gs' : List K} (h : ys.length = gs.length) :
    squares (ys ++ ys') (gs ++ gs') = squares ys gs + squares ys' gs' := by
  unfold squares
  rw [zip_append h, map_append, sum_append]

variable {β : Type _}

/-- The squares of two sequences, around a level `m`. -/
theorem squares_around (d g : β → K) (m : K) (l : List β) :
    squares (l.map d) (l.map g) = squares (l.map d) (List.replicate l.length m)
        + squares (List.replicate l.length m) (l.map g)
        + 2 * (m * (l.map fun p => d p - m).sum - (l.map fun p => (d p - m) * g p).sum) := by
  induction l with
  | nil => simp [squares]
  | cons p l ih =>
    simp only [squares, map_cons, length_cons, replicate_succ,
      zip_cons_cons, sum_cons] at ih ⊢
    rw [ih]
    ring

theorem sum_map_sub_const (g : β → K) (m : K) (l : List β) :
    (l.map fun p => g p - m).sum = (l.map g).sum - m * l.length := by
  induction l with
  | nil => simp
  | cons p l ih =>
    simp only [map_cons, sum_cons, ih, length_cons, Nat.cast_add, Nat.cast_one]
    ring

theorem fitted_mem {y : K} (h : y ∈ fitted f blocks) : ∃ b ∈ blocks, y = b.mean f := by
  obtain ⟨b, hb, hy⟩ := mem_flatMap.mp h
  exact ⟨b, hb, eq_of_mem_replicate hy⟩

variable [LinearOrder K]

theorem fitted_monotone (h : BlocksRise f blocks) : (fitted f blocks).Pairwise (· ≤ ·) := by
  induction blocks with
  | nil => exact List.Pairwise.nil
  | cons b blocks ih =>
    obtain ⟨hb, hrest⟩ := pairwise_cons.mp h
    rw [fitted_cons, pairwise_append]
    refine ⟨pairwise_replicate.mpr (.inr le_rfl), ih hrest, fun x hx y hy => ?_⟩
    obtain ⟨c, hc, rfl⟩ := fitted_mem hy
    rw [eq_of_mem_replicate hx]
    exact hb c hc

variable [IsStrictOrderedRing K]

theorem squares_nonneg (ys gs : List K) : 0 ≤ squares ys gs := by
  apply List.sum_nonneg
  intro y hy
  obtain ⟨p, -, rfl⟩ := mem_map.mp hy
  exact mul_self_nonneg _

theorem eq_of_squares_nonpos (hlength : ys.length = gs.length)
    (h : squares ys gs ≤ 0) : ys = gs := by
  induction ys generalizing gs with
  | nil => exact (length_eq_zero_iff.mp hlength.symm).symm
  | cons y ys ih =>
    cases gs with
    | nil => exact absurd hlength (Nat.succ_ne_zero _)
    | cons g gs =>
      have hsum : squares (y :: ys) (g :: gs) = (y - g) * (y - g) + squares ys gs := rfl
      have hrest := squares_nonneg ys gs
      have hfirst := mul_self_nonneg (y - g)
      rw [ih (Nat.succ_inj.mp hlength) (by linarith)]
      have hzero : (y - g) * (y - g) = 0 := by linarith
      rw [sub_eq_zero.mp (mul_self_eq_zero.mp hzero)]

/-- Summation by parts: where the running sums of `d` stay nonnegative and end at
zero, a monotone `g` weighs them down. -/
theorem sum_products_nonpos {d g : β → K} {l : List β} {carry low : K}
    (hmonotone : l.Pairwise fun p q => g p ≤ g q) (hlow : ∀ p ∈ l, carry * low ≤ carry * g p)
    (hrunning : ∀ front back, l = front ++ back → 0 ≤ carry + (front.map d).sum)
    (hend : carry + (l.map d).sum = 0) :
    carry * low + (l.map fun p => d p * g p).sum ≤ 0 := by
  induction l generalizing carry low with
  | nil =>
    simp only [map_nil, sum_nil, add_zero] at hend ⊢
    rw [hend, zero_mul]
  | cons p l ih =>
    obtain ⟨hp, hrest⟩ := pairwise_cons.mp hmonotone
    simp only [map_cons, sum_cons] at hend ⊢
    have hcarry : 0 ≤ carry + d p := by simpa using hrunning [p] l rfl
    have hnext : (carry + d p) * g p + (l.map fun q => d q * g q).sum ≤ 0 := by
      refine ih hrest (fun q hq => mul_le_mul_of_nonneg_left (hp q hq) hcarry)
        (fun front back hsplit => ?_) (by rw [← hend, add_assoc])
      have := hrunning (p :: front) back (by rw [hsplit, cons_append])
      rwa [map_cons, sum_cons, ← add_assoc] at this
    have hstep := hlow p mem_cons_self
    linarith

/-- In a pooled block, a monotone sequence is farther from the entries than the
mean is, by at least its distance from the mean. -/
theorem Pooled.squares_add_le {l : List α} (h : Pooled f l) (hne : l ≠ [])
    (hlength : gs.length = l.length) (hmonotone : gs.Pairwise (· ≤ ·)) :
    squares (l.map f) (List.replicate l.length (meanOf f l))
        + squares (List.replicate l.length (meanOf f l)) gs
      ≤ squares (l.map f) gs := by
  obtain ⟨pairs, rfl, rfl⟩ : ∃ pairs : List (α × K), pairs.map (·.1) = l ∧ pairs.map (·.2) = gs :=
    ⟨l.zip gs, map_fst_zip hlength.ge, map_snd_zip hlength.le⟩
  set m := meanOf f (pairs.map (·.1))
  have hrunning (front back) (hsplit : pairs = front ++ back) :
      0 ≤ (front.map fun p => f p.1 - m).sum := by
    have hfront := h (front.map (·.1)) (back.map (·.1)) (by rw [hsplit, map_append])
    rw [length_map, map_map] at hfront
    rw [sum_map_sub_const]
    exact sub_nonneg.mpr hfront
  have hend : (pairs.map fun p => f p.1 - m).sum = 0 := by
    have htotal := meanOf_mul_length f hne
    rw [length_map, map_map] at htotal
    rw [sum_map_sub_const]
    exact sub_eq_zero.mpr htotal.symm
  have hweighed : (pairs.map fun p => (f p.1 - m) * p.2).sum ≤ 0 := by
    have hpairs : pairs.Pairwise fun p q => p.2 ≤ q.2 := pairwise_map.mp hmonotone
    have := @sum_products_nonpos K _ _ _ _ (fun p => f p.1 - m) (·.2) pairs 0 0
      hpairs (fun _ _ => by simp)
      (fun front back hsplit => by rw [zero_add]; exact hrunning front back hsplit)
      (by rw [zero_add, hend])
    rwa [zero_mul, zero_add] at this
  have haround := squares_around (fun p => f p.1) (·.2) m pairs
  rw [hend, mul_zero] at haround
  rw [map_map, length_map]
  have hcomp : f ∘ (fun p : α × K => p.1) = fun p => f p.1 := rfl
  rw [hcomp]
  linarith

/-- Where every block is pooled, a monotone sequence is farther from the entries
than the fit is, by at least its distance from the fit. -/
theorem squares_fitted_add_le (hpooled : ∀ b ∈ blocks, Pooled f b.entries)
    (hlength : gs.length = (Block.entriesOf blocks).length) (hmonotone : gs.Pairwise (· ≤ ·)) :
    squares ((Block.entriesOf blocks).map f) (fitted f blocks) + squares (fitted f blocks) gs
      ≤ squares ((Block.entriesOf blocks).map f) gs := by
  induction blocks generalizing gs with
  | nil => simp [squares, fitted]
  | cons b blocks ih =>
    rw [Block.entriesOf_cons, length_append] at hlength
    obtain ⟨front, back, rfl, hfront⟩ : ∃ front back, gs = front ++ back
        ∧ front.length = b.entries.length :=
      ⟨gs.take b.entries.length, gs.drop b.entries.length,
        (take_append_drop _ _).symm, by rw [length_take]; omega⟩
    have hback : back.length = (Block.entriesOf blocks).length := by
      rw [length_append] at hlength
      omega
    obtain ⟨hfirst, hrest, -⟩ := pairwise_append.mp hmonotone
    have hb := (hpooled b mem_cons_self).squares_add_le b.filled hfront hfirst
    have hbs := ih (fun c hc => hpooled c (mem_cons_of_mem b hc)) hback hrest
    rw [Block.entriesOf_cons, fitted_cons, map_append,
      squares_append (by rw [length_map, length_replicate]),
      squares_append (by rw [length_replicate, hfront]),
      squares_append (by rw [length_map, hfront])]
    unfold Block.mean
    linarith

/-- The fit is nearest to the entries, and no other monotone sequence is as
near. -/
theorem fitted_nearest (hpooled : ∀ b ∈ blocks, Pooled f b.entries)
    (hlength : gs.length = (Block.entriesOf blocks).length) (hmonotone : gs.Pairwise (· ≤ ·)) :
    squares ((Block.entriesOf blocks).map f) (fitted f blocks)
        ≤ squares ((Block.entriesOf blocks).map f) gs
      ∧ (squares ((Block.entriesOf blocks).map f) gs
          ≤ squares ((Block.entriesOf blocks).map f) (fitted f blocks) →
        gs = fitted f blocks) := by
  have hbelow := squares_fitted_add_le hpooled hlength hmonotone
  have hexcess := squares_nonneg (fitted f blocks) gs
  refine ⟨by linarith, fun hle => ?_⟩
  exact (eq_of_squares_nonpos (by rw [length_fitted, hlength]) (by linarith)).symm

end Fit

end MarketRegimeAlpha.Lib
